import RssMdmAgent.ProgressElapsed

set_option autoImplicit false

/-! # The worker of a recovery cleanup and the records it leaves -/

namespace RssMdmAgent.RecoveryCleanup
open BoundedArithmetic ContractIdentity ContractProcess ProgramInstructions ContractPlan PlanShape
open ProgressHistory ProgressValidity ProgressReserve ProgressTails ProgressElapsed RunnerProgram TransitionRuns

inductive Waited where
  | running
  | exited (code : Option Int)
  | failed

inductive Arrival where
  | written (ok : Bool)
  | read (fromStdout : Bool) (chunk : Option (List UInt8))
  | slept

/-- Everything that one turn asks of its environment, with times in nanoseconds. -/
structure Turn where
  clock : Nat
  cancelled : Bool
  lost : Bool
  waited : Waited
  quiescent : Bool
  arrival : Arrival
  later : Nat

/-- The recipe of a native worker, and the decoders of its output. -/
structure Worker where
  cap : Nat
  deadline : Nat
  activeUser : Bool
  preview : Bool
  macos : Bool
  exitCodes : SoftwareExitCodes
  decodeResult : List UInt8 → Option (Nat × Bool)
  quality : List UInt8 → List UInt8 → OutputQuality

/-- The variables of the supervising loop. Whether the process was killed already is not among them: no evidence depends on it. -/
structure Supervision where
  facts : ProcessEvidence
  stopAt : Option Nat
  nextCheck : Nat
  exited : Bool
  inputDone : Bool
  inputFailed : Bool
  outDone : Bool
  errDone : Bool

def Supervision.fail (s : Supervision) (kind : ProcessFailureKind) (now : Nat) : Supervision :=
  { s with
    facts := { fault s.facts kind with processEnd := if s.stopAt.isNone then .unknown else s.facts.processEnd }
    stopAt := some (s.stopAt.getD now) }

def Supervision.stopCause (s : Supervision) (w : Worker) (t : Turn) : Option ProcessEnd :=
  if t.cancelled then some .cancelled
  else if w.deadline ≤ t.clock then some .timedOut
  else if w.cap ≤ s.facts.totalOutputBytes then some .outputLimit
  else none

/-- The causes that end the process from outside, looked at first. -/
def Supervision.stop (s : Supervision) (w : Worker) (t : Turn) : Supervision :=
  match s.stopAt, s.stopCause w t with
  | none, some cause =>
    { s with
      facts := { s.facts with processEnd := cause }
      stopAt := some t.clock }
  | _, _ => s

def Supervision.checkSession (s : Supervision) (w : Worker) (t : Turn) : Supervision :=
  if s.stopAt.isNone ∧ s.nextCheck ≤ t.clock then
    let s := { s with nextCheck := t.clock + 200000000 }
    if w.activeUser ∧ t.lost then s.fail .unbound t.clock else s
  else s

def Worker.grace (w : Worker) : Nat := if w.preview then 17000000000 else 200000000

def Supervision.overdue (s : Supervision) (w : Worker) (t : Turn) : Bool :=
  s.stopAt.any fun stop => w.grace + 2000000000 ≤ t.clock - stop

def Supervision.wait (s : Supervision) (t : Turn) : Supervision :=
  if s.exited then s
  else
    match t.waited with
    | .running => s
    | .exited code =>
      { s with
        exited := true
        facts := { s.facts with
          exitCode := code
          processEnd := if s.stopAt.isNone then .exited else s.facts.processEnd } }
    | .failed => s.fail .supervision t.clock

def Supervision.settled (s : Supervision) (w : Worker) (t : Turn) : Bool :=
  s.exited && s.outDone && s.errDone && s.inputDone && (w.macos || t.quiescent)

/-- A chunk is retained up to the cap and counted whole. -/
def Supervision.keep (s : Supervision) (w : Worker) (fromStdout : Bool) (chunk : List UInt8) : Supervision :=
  let kept := chunk.take (w.cap - (s.facts.stdout.length + s.facts.stderr.length))
  { s with
    facts := { s.facts with
      totalOutputBytes := saturatingAdd s.facts.totalOutputBytes chunk.length
      stdout := if fromStdout then s.facts.stdout ++ kept else s.facts.stdout
      stderr := if fromStdout then s.facts.stderr else s.facts.stderr ++ kept } }

def Supervision.close (s : Supervision) (fromStdout : Bool) : Supervision :=
  { s with
    outDone := s.outDone || fromStdout
    errDone := s.errDone || !fromStdout }

def Supervision.arrive (s : Supervision) (w : Worker) (t : Turn) : Supervision :=
  match t.arrival with
  | .slept => s
  | .written true => { s with inputDone := true }
  | .written false => { s with inputDone := true, inputFailed := true }.fail .inputDelivery t.later
  | .read fromStdout none => (s.fail .capture t.later).close fromStdout
  | .read fromStdout (some []) => s.close fromStdout
  | .read fromStdout (some chunk) => s.keep w fromStdout chunk

def Supervision.awaits (s : Supervision) : Arrival → Bool
  | .slept => true
  | .written _ => !s.inputDone
  | .read fromStdout chunk =>
    !(if fromStdout then s.outDone else s.errDone) && chunk.all fun bytes => bytes.length ≤ 8192

def Supervision.turn (s : Supervision) (w : Worker) (t : Turn) : Supervision ⊕ Supervision :=
  let s := (s.stop w t).checkSession w t
  if s.overdue w t then .inl s
  else
    let s := s.wait t
    if s.settled w t then .inl s else .inr (s.arrive w t)

inductive Turns (w : Worker) : Supervision → Turn → Supervision → Prop where
  | next {s s' : Supervision} {t : Turn} (awaited : s.awaits t.arrival = true) (made : s.turn w t = .inr s') : Turns w s t s'

def Supervision.started (plan : FrozenExecution) (attempt : AttemptId) (runner : Identifier) (scope : ProcessScope) : Supervision where
  facts :=
    { contentDigest := plan.digest
      attemptId := attempt
      runner := runner
      scope := scope
      finished := false
      exitCode := none
      processEnd := .unknown
      failureKind := .none
      quiescent := false
      stdout := []
      stderr := []
      totalOutputBytes := 0
      quality := .partialCapture }
  stopAt := none
  nextCheck := 0
  exited := false
  inputDone := false
  inputFailed := false
  outDone := false
  errDone := false

/-- The end of the input and of the root process, after the loop. -/
def Supervision.drained (s : Supervision) (late : Option (Option Int)) : Supervision :=
  let s := if s.inputDone then s else { s with inputFailed := true, facts := fault s.facts .inputDelivery }
  if s.exited then s
  else
    match late with
    | some code => { s with exited := true, facts := { s.facts with exitCode := code } }
    | none => { s with facts := fault s.facts .supervision }

def Worker.nativeBytes (w : Worker) (facts : ProcessEvidence) : Nat := ((w.decodeResult facts.stdout).map Prod.fst).getD 0

def Worker.reported (w : Worker) (facts : ProcessEvidence) : ProcessEvidence :=
  match w.decodeResult facts.stdout with
  | none => facts
  | some (native, _) =>
    let total := saturatingAdd facts.totalOutputBytes native
    { facts with
      totalOutputBytes := total
      processEnd := if w.cap < total then .outputLimit else facts.processEnd }

def Worker.closed (w : Worker) (facts : ProcessEvidence) : Bool :=
  facts.processEnd == .exited && facts.failureKind == .none && (w.decodeResult facts.stdout).any Prod.snd

def Worker.approved (w : Worker) (facts : ProcessEvidence) : Bool :=
  facts.exitCode.any fun code => decide (code ∈ w.exitCodes.success) || decide (code ∈ w.exitCodes.reboot)

def Worker.judged (w : Worker) (s : Supervision) (facts : ProcessEvidence) : OutputQuality :=
  if w.cap < facts.totalOutputBytes ∨ facts.processEnd = .outputLimit then .truncated
  else if !s.outDone || !s.errDone then .partialCapture
  else if s.inputFailed || facts.failureKind ≠ .none || facts.processEnd ≠ .exited || !w.approved facts then .failed
  else w.quality facts.stdout facts.stderr

/-- The final evidence of a supervised worker. -/
def Supervision.finish (s : Supervision) (w : Worker) (late : Option (Option Int)) (quiescent : Bool) : ProcessEvidence :=
  let s := s.drained late
  let facts := w.reported { s.facts with finished := true }
  let facts := { facts with
    quiescent := s.exited && s.outDone && s.errDone && ((quiescent && w.closed facts) || (w.macos && w.closed facts)) }
  let facts := { facts with quality := w.judged s facts }
  if facts.quality = .failed ∧ facts.processEnd = .exited ∧ facts.exitCode = some 0 then fault facts .outputValidation else facts

def readBytes (turns : List Turn) : Nat :=
  (turns.map fun t => match t.arrival with
    | .read _ (some chunk) => chunk.length
    | _ => 0).sum

/-- The evidence that the invocation of a worker gives, with the bytes that were read from its pipes or reported by itself. -/
inductive Invoked (plan : FrozenExecution) (attempt : AttemptId) (runner : Identifier) (w : Worker) : Nat → ProcessEvidence → Prop where
  | refused (processEnd : ProcessEnd) (kind : ProcessFailureKind) :
      Invoked plan attempt runner w 0 { rejected plan attempt runner processEnd with failureKind := kind }
  | supervised {scope : ProcessScope} {turns : List Turn} {s last : Supervision} {t : Turn} (late : Option (Option Int)) (quiescent : Bool)
      (run : Runs (Turns w) (Supervision.started plan attempt runner scope) turns s) (left : s.turn w t = .inl last) :
      Invoked plan attempt runner w (readBytes turns + w.nativeBytes last.facts) (last.finish w late quiescent)
  /-- A delegated worker that was never heard of. -/
  | silent (scope : ProcessScope) : Invoked plan attempt runner w 0
      { rejected plan attempt runner .unknown with
        scope := scope
        quiescent := false
        quality := .partialCapture }
  /-- A delegated worker whose last evidence is not its final one. -/
  | unanswered {scope : ProcessScope} {turns : List Turn} {s : Supervision}
      (run : Runs (Turns w) (Supervision.started plan attempt runner scope) turns s) :
      Invoked plan attempt runner w (readBytes turns)
        { s.facts with
          finished := true
          quiescent := false
          quality := .partialCapture }

def advance (w : Worker) (s : Supervision) (t : Turn) : Option Supervision :=
  if s.awaits t.arrival then (s.turn w t).getRight? else none

theorem advance_turns {w : Worker} {s s' : Supervision} {t : Turn} (h : advance w s t = some s') : Turns w s t s' := by
  unfold advance at h
  split at h
  · next awaited => exact .next awaited (Sum.getRight?_eq_some_iff.mp h)
  · cases h

section Accounting
variable {plan : FrozenExecution} {attempt : AttemptId} {runner : Identifier} {scope : ProcessScope} {w : Worker} {s s' : Supervision}
  {t : Turn} {turns : List Turn}

/-- The identity and the output of the evidence. -/
structure SameCapture (f g : ProcessEvidence) : Prop where
  digest : g.contentDigest = f.contentDigest
  attempt : g.attemptId = f.attemptId
  runner : g.runner = f.runner
  stdout : g.stdout = f.stdout
  stderr : g.stderr = f.stderr
  total : g.totalOutputBytes = f.totalOutputBytes

theorem SameCapture.trans {f g h : ProcessEvidence} (first : SameCapture f g) (second : SameCapture g h) : SameCapture f h :=
  ⟨second.digest.trans first.digest, second.attempt.trans first.attempt, second.runner.trans first.runner, second.stdout.trans first.stdout,
    second.stderr.trans first.stderr, second.total.trans first.total⟩

theorem fault_capture (facts : ProcessEvidence) (kind : ProcessFailureKind) : SameCapture facts (fault facts kind) := by
  unfold fault
  split <;> exact ⟨rfl, rfl, rfl, rfl, rfl, rfl⟩

theorem fail_capture (s : Supervision) (kind : ProcessFailureKind) (now : Nat) : SameCapture s.facts (s.fail kind now).facts :=
  (fault_capture s.facts kind).trans ⟨rfl, rfl, rfl, rfl, rfl, rfl⟩

theorem head_capture (s : Supervision) (w : Worker) (t : Turn) : SameCapture s.facts ((s.stop w t).checkSession w t).facts := by
  have stopped : SameCapture s.facts (s.stop w t).facts := by
    unfold Supervision.stop
    split <;> exact ⟨rfl, rfl, rfl, rfl, rfl, rfl⟩
  refine stopped.trans ?_
  unfold Supervision.checkSession
  split
  · dsimp only
    split
    · exact fail_capture _ _ t.clock
    · exact ⟨rfl, rfl, rfl, rfl, rfl, rfl⟩
  · exact ⟨rfl, rfl, rfl, rfl, rfl, rfl⟩

theorem wait_capture (s : Supervision) (t : Turn) : SameCapture s.facts (s.wait t).facts := by
  unfold Supervision.wait
  split
  · exact ⟨rfl, rfl, rfl, rfl, rfl, rfl⟩
  · split
    · exact ⟨rfl, rfl, rfl, rfl, rfl, rfl⟩
    · exact ⟨rfl, rfl, rfl, rfl, rfl, rfl⟩
    · exact fail_capture _ _ _

/-- The evidence of the attempt after so many bytes: none is retained that was not counted. -/
structure Captured (plan : FrozenExecution) (attempt : AttemptId) (runner : Identifier) (bytes : Nat) (facts : ProcessEvidence) : Prop where
  digest : facts.contentDigest = plan.digest
  attempt : facts.attemptId = attempt
  runner : facts.runner = runner
  retained : min (facts.stdout.length + facts.stderr.length) maxWord ≤ facts.totalOutputBytes
  total : facts.totalOutputBytes = min bytes maxWord

theorem Captured.same {bytes : Nat} {f g : ProcessEvidence} (captured : Captured plan attempt runner bytes f) (same : SameCapture f g) :
    Captured plan attempt runner bytes g := by
  refine ⟨same.digest.trans captured.digest, same.attempt.trans captured.attempt, same.runner.trans captured.runner, ?_,
    same.total.trans captured.total⟩
  rw [same.stdout, same.stderr, same.total]
  exact captured.retained

theorem keep_captured {bytes : Nat} (captured : Captured plan attempt runner bytes s.facts) (fromStdout : Bool) (chunk : List UInt8) :
    Captured plan attempt runner (bytes + chunk.length) (s.keep w fromStdout chunk).facts := by
  have retained := captured.retained
  have total := captured.total
  have shorter : (chunk.take (w.cap - (s.facts.stdout.length + s.facts.stderr.length))).length ≤ chunk.length := by
    rw [List.length_take]
    exact Nat.min_le_right _ _
  refine ⟨captured.digest, captured.attempt, captured.runner, ?_, ?_⟩
  · unfold Supervision.keep saturatingAdd
    cases fromStdout <;> simp only [Bool.false_eq_true, if_false, if_true, List.length_append] <;> omega
  · unfold Supervision.keep saturatingAdd
    dsimp only
    omega

theorem turn_left {last : Supervision} {bytes : Nat} (captured : Captured plan attempt runner bytes s.facts) (left : s.turn w t = .inl last) :
    Captured plan attempt runner bytes last.facts := by
  have head := captured.same (head_capture s w t)
  unfold Supervision.turn at left
  dsimp only at left
  split at left
  · cases left
    exact head
  split at left
  · cases left
    exact head.same (wait_capture _ t)
  · cases left

theorem turn_captured {bytes : Nat} (captured : Captured plan attempt runner bytes s.facts) (h : Turns w s t s') :
    Captured plan attempt runner (bytes + readBytes [t]) s'.facts := by
  obtain ⟨-, made⟩ := h
  have head := captured.same (head_capture s w t)
  unfold Supervision.turn at made
  dsimp only at made
  split at made
  · cases made
  have waited := head.same (wait_capture ((s.stop w t).checkSession w t) t)
  split at made
  · cases made
  rw [Sum.inr.injEq] at made
  subst made
  unfold Supervision.arrive readBytes
  rw [List.map_singleton, List.sum_singleton]
  cases arrival : t.arrival with
  | slept => exact waited
  | written ok =>
    cases ok with
    | true => exact waited
    | false => exact waited.same (fail_capture _ .inputDelivery t.later)
  | read fromStdout chunk =>
    cases chunk with
    | none => exact waited.same (fail_capture _ .capture t.later)
    | some chunk =>
      cases chunk with
      | nil => exact waited
      | cons first rest => exact keep_captured waited fromStdout (first :: rest)

theorem runs_captured (run : Runs (Turns w) (Supervision.started plan attempt runner scope) turns s) :
    Captured plan attempt runner (readBytes turns) s.facts := by
  refine run.history (fun turns s => Captured plan attempt runner (readBytes turns) s.facts) ?_ ?_
  · exact ⟨rfl, rfl, rfl, Nat.min_le_left _ _, rfl⟩
  · intro turns s t s' captured h
    have grown := turn_captured captured h
    rw [show readBytes turns + readBytes [t] = readBytes (turns ++ [t]) by simp [readBytes]] at grown
    exact grown

theorem drained_capture (s : Supervision) (late : Option (Option Int)) : SameCapture s.facts (s.drained late).facts := by
  unfold Supervision.drained
  dsimp only
  have input : SameCapture s.facts
      (if s.inputDone then s else { s with inputFailed := true, facts := fault s.facts .inputDelivery }).facts := by
    split
    · exact ⟨rfl, rfl, rfl, rfl, rfl, rfl⟩
    · exact fault_capture _ _
  refine input.trans ?_
  generalize (if s.inputDone then s else { s with inputFailed := true, facts := fault s.facts .inputDelivery }) = u
  split
  · exact ⟨rfl, rfl, rfl, rfl, rfl, rfl⟩
  · cases late with
    | some code => exact ⟨rfl, rfl, rfl, rfl, rfl, rfl⟩
    | none => exact fault_capture _ _

theorem reported_captured {bytes : Nat} {facts : ProcessEvidence} (captured : Captured plan attempt runner bytes facts) :
    Captured plan attempt runner (bytes + w.nativeBytes facts) (w.reported facts) := by
  have retained := captured.retained
  have total := captured.total
  unfold Worker.nativeBytes Worker.reported
  cases w.decodeResult facts.stdout with
  | none => exact captured
  | some result =>
    obtain ⟨native, closed⟩ := result
    refine ⟨captured.digest, captured.attempt, captured.runner, ?_, ?_⟩
    · simp only [saturatingAdd]
      omega
    · simp only [saturatingAdd, Option.map_some, Option.getD_some]
      omega

theorem finish_captured {bytes : Nat} (captured : Captured plan attempt runner bytes s.facts) (late : Option (Option Int)) (quiescent : Bool) :
    Captured plan attempt runner (bytes + w.nativeBytes s.facts) (s.finish w late quiescent) ∧ (s.finish w late quiescent).finished = true := by
  have same := drained_capture s late
  have drained : Captured plan attempt runner bytes { (s.drained late).facts with finished := true } :=
    captured.same (same.trans ⟨rfl, rfl, rfl, rfl, rfl, rfl⟩)
  have told : w.nativeBytes { (s.drained late).facts with finished := true } = w.nativeBytes s.facts := by
    unfold Worker.nativeBytes
    dsimp only
    rw [same.stdout]
  have ended := @reported_captured _ _ _ w _ _ drained
  rw [told] at ended
  have finished : (w.reported { (s.drained late).facts with finished := true }).finished = true := by
    unfold Worker.reported
    split <;> rfl
  unfold Supervision.finish
  dsimp only
  split
  · refine ⟨ended.same (SameCapture.trans ?_ (fault_capture _ _)), ?_⟩
    · exact ⟨rfl, rfl, rfl, rfl, rfl, rfl⟩
    · unfold fault
      split <;> exact finished
  · exact ⟨ended.same ⟨rfl, rfl, rfl, rfl, rfl, rfl⟩, finished⟩

theorem invoked_captured {bytes : Nat} {process : ProcessEvidence} (invoked : Invoked plan attempt runner w bytes process) :
    Captured plan attempt runner bytes process ∧ process.finished = true := by
  cases invoked with
  | refused => exact ⟨⟨rfl, rfl, rfl, Nat.min_le_left _ _, rfl⟩, rfl⟩
  | supervised late quiescent run left => exact finish_captured (turn_left (runs_captured run) left) late quiescent
  | silent => exact ⟨⟨rfl, rfl, rfl, Nat.min_le_left _ _, rfl⟩, rfl⟩
  | unanswered run => exact ⟨(runs_captured run).same ⟨rfl, rfl, rfl, rfl, rfl, rfl⟩, rfl⟩

end Accounting

def resourcesClosed (process : ProcessEvidence) : Bool := process.quiescent && process.exitedZero

def cleanupBegun (p : SoftwareProgress) (grant : Nat × Nat × Nat × Nat) (begun : Nat) : SoftwareProgress :=
  extended p [.cleanupBegin grant.1 grant.2.1 grant.2.2.1 grant.2.2.2] (saturatingAdd p.elapsedMs (millis begun))

def cleanupEnded (p : SoftwareProgress) (grant : Nat × Nat × Nat × Nat) (ended committed : Nat) (process : ProcessEvidence) :
    SoftwareProgress :=
  afterCleanup p grant (millis ended) process (resourcesClosed process) (saturatingAdd p.elapsedMs (millis committed))

def cleanupCap (plan : FrozenExecution) (p : SoftwareProgress) (grant : Nat × Nat × Nat × Nat) : Nat :=
  min grant.2.2.2 (plan.spec.budget.totalOutputBytes - p.outputBytes)

section Recording
variable {plan : FrozenExecution} {p : SoftwareProgress} {w : Worker} {bytes : Nat} {process : ProcessEvidence}

theorem invoked_own (same : p.contentDigest = plan.digest) (invoked : Invoked plan p.attemptId p.runner w bytes process) :
    OwnEvidence p process (resourcesClosed process) := by
  obtain ⟨captured, finished⟩ := invoked_captured invoked
  refine ⟨captured.attempt, captured.digest.trans same.symm, captured.runner, finished, captured.retained, fun closed => ?_⟩
  exact Bool.and_eq_true_iff.mp closed

theorem slice_counts {program : SoftwareProgram} (found : plan.program = some program) {grant : Nat × Nat × Nat × Nat}
    (granted : p.cleanupAllowance plan = some grant) (total : process.totalOutputBytes = min bytes maxWord) :
    process.totalOutputBytes ≤ grant.2.2.2 ↔ bytes ≤ grant.2.2.2 := by
  obtain ⟨step, sequence, timeoutMs, outputBytes⟩ := grant
  have allowed := @granted_output_le _ _ _ found _ _ _ _ outputBytes (allowance_granted found granted) (Nat.le_refl _)
  have account := (allowance_granted found granted).account
  obtain ⟨command, invocation, -, -, slice⟩ := account
  unfold SoftwareProgram.invocation at invocation
  split at invocation
  · cases invocation
  next current found' =>
  have bound := (((frozen_shape found).step found').bounds .cleanup command invocation).output_le
  have large : 1048576 < maxWord := by decide
  rw [total]
  dsimp only
  omega

/-- The records of a granted cleanup are accepted when the worker wrote no more than its slice and each commit came in time, and a valid
history stays valid at a later time as long as its recoveries began in time. -/
theorem cleanup_recordable_iff (plan : FrozenExecution) (p : SoftwareProgress) (words : Words p) (valid : p.validFor plan = true) :
    (∀ (grant : Nat × Nat × Nat × Nat) (begun ended committed bytes : Nat) (w : Worker) (process : ProcessEvidence),
      p.cleanupAllowance plan = some grant → w.cap = cleanupCap plan p grant → begun ≤ ended → ended ≤ committed →
      Invoked plan p.attemptId p.runner w bytes process →
      ((cleanupBegun p grant begun).validFor plan = true ∧ (cleanupEnded p grant ended committed process).validFor plan = true ↔
        saturatingAdd p.elapsedMs (millis begun) < plan.spec.budget.totalTimeoutMs ∧ bytes ≤ grant.2.2.2 ∧
          durations p.checkpoints + millis ended ≤ saturatingAdd p.elapsedMs (millis committed) ∧
          saturatingAdd p.elapsedMs (millis committed) - millis ended < plan.spec.budget.totalTimeoutMs)) ∧
    ∀ elapsed, p.elapsedMs ≤ elapsed → elapsed ≤ maxWord →
      ((atElapsed p elapsed).validFor plan = true ↔ BegunInTime plan p.checkpoints elapsed) := by
  obtain ⟨program, found, same, -⟩ := valid_program valid
  refine ⟨fun grant begun ended committed bytes w process granted _ _ _ invoked => ?_,
    fun elapsed later fits => elapsed_valid_iff found words valid later fits⟩
  have elapsed := words.elapsed
  have fits : ∀ nanos, saturatingAdd p.elapsedMs (millis nanos) ≤ maxWord := fun _ => Nat.min_le_right _ _
  have later : p.elapsedMs ≤ saturatingAdd p.elapsedMs (millis begun) := Nat.le_min.mpr ⟨Nat.le_add_right _ _, elapsed⟩
  have begin_ : (cleanupBegun p grant begun).validFor plan = true ↔ _ := begun_valid_iff found words valid granted later (fits begun)
  have end_ : (cleanupEnded p grant ended committed process).validFor plan = true ↔ _ :=
    ended_valid_iff found words valid granted (invoked_own same invoked) (fits committed)
  rw [begin_, end_, slice_counts found granted (invoked_captured invoked).1.total]

end Recording

section Samples
open ProgressCompletion

/-- A first recovery that left one byte of its slice. -/
def nearlySpent : SoftwareProgress :=
  { sampleProgress ([.started 0 .before, .ended 0 0 .before none (some (.present sampleText)) true] ++
      sampleOperation .prepare 0 ++ sampleOperation .mutation 0 ++
      [.cleanupBegin 0 1 1000 1000, .cleanupEnd 0 1 400
        { sampleEvidence 0 with exitCode := none, processEnd := .unknown, totalOutputBytes := 999 } false]) with
    elapsedMs := 900
    outputBytes := 999 }

def sampleWorker : Worker where
  cap := 1
  deadline := 600000000
  activeUser := false
  preview := false
  macos := true
  exitCodes := ⟨{0}, ∅⟩
  decodeResult := fun _ => none
  quality := fun _ _ => .complete

def sampleTurn (clock : Nat) (arrival : Arrival) : Turn where
  clock := clock
  cancelled := false
  lost := false
  waited := .exited (some 0)
  quiescent := true
  arrival := arrival
  later := clock

def sampleTurns (output : List UInt8) : List Turn :=
  [sampleTurn 1 (.read true (some output)), sampleTurn 2 (.written true), sampleTurn 3 (.read true (some [])),
    sampleTurn 4 (.read false (some []))]

def sampleStart (plan : FrozenExecution) : Supervision :=
  .started plan ⟨"attempt", .refl true⟩ ⟨"runner", .refl true⟩ (.processGroup 1 1)

theorem sample_run {output : List UInt8} {last : Supervision}
    (made : (sampleTurns output).foldlM (advance sampleWorker) (sampleStart removalPlan) = some last) :
    Runs (Turns sampleWorker) (sampleStart removalPlan) (sampleTurns output) last := by
  have run := Runs.of_foldlM (advance sampleWorker) id (fun _ _ _ h => advance_turns h) (sampleTurns output) made
  rwa [List.map_id] at run

theorem sample_invoked {output : List UInt8} {s last : Supervision}
    (made : (sampleTurns output).foldlM (advance sampleWorker) (sampleStart removalPlan) = some s)
    (left : s.turn sampleWorker (sampleTurn 5 .slept) = .inl last) :
    Invoked removalPlan nearlySpent.attemptId nearlySpent.runner sampleWorker output.length (last.finish sampleWorker none true) := by
  have invoked := @Invoked.supervised removalPlan _ _ _ _ _ _ _ _ none true (sample_run made) left
  have bytes : readBytes (sampleTurns output) + sampleWorker.nativeBytes last.facts = output.length := by
    simp [readBytes, sampleTurns, sampleTurn, Worker.nativeBytes, sampleWorker]
  rwa [bytes] at invoked

theorem nearlySpent_words : Words nearlySpent := ⟨by decide, by decide⟩

theorem nearlySpent_valid : nearlySpent.validFor removalPlan = true := by decide +kernel

theorem nearlySpent_granted : nearlySpent.cleanupAllowance removalPlan = some (0, 2, 600, 1) := by decide +kernel

/-- A worker with one byte left writes two, both are counted, and the record of what it did is refused; so is the history at a later time. -/
theorem overshot_refused :
    (Words nearlySpent ∧ nearlySpent.validFor removalPlan = true ∧ nearlySpent.cleanupAllowance removalPlan = some (0, 2, 600, 1) ∧
      sampleWorker.cap = cleanupCap removalPlan nearlySpent (0, 2, 600, 1)) ∧
    (∃ process, Invoked removalPlan nearlySpent.attemptId nearlySpent.runner sampleWorker 2 process ∧
      ¬ (cleanupEnded nearlySpent (0, 2, 600, 1) 10000000 20000000 process).validFor removalPlan = true) ∧
    nearlySpent.elapsedMs ≤ 20000 ∧ (atElapsed nearlySpent 20000).validFor removalPlan = false := by
  refine ⟨⟨nearlySpent_words, nearlySpent_valid, nearlySpent_granted, by decide⟩, ?_, by decide, by decide +kernel⟩
  have invoked := @sample_invoked [0, 0] _ _ rfl rfl
  refine ⟨_, invoked, fun ended => ?_⟩
  have found : removalPlan.program = some (ProgressClosure.sampleProgram removalPlan) := rfl
  have within := ((ended_valid_iff found nearlySpent_words nearlySpent_valid nearlySpent_granted (invoked_own rfl invoked)
    (Nat.min_le_right _ _)).mp ended).1
  exact absurd within (by decide)

theorem cleanup_recordable_sample :
    ∃ process, Invoked removalPlan nearlySpent.attemptId nearlySpent.runner sampleWorker 1 process ∧
      (cleanupBegun nearlySpent (0, 2, 600, 1) 1000000).validFor removalPlan = true ∧
      (cleanupEnded nearlySpent (0, 2, 600, 1) 10000000 20000000 process).validFor removalPlan = true := by
  have invoked := @sample_invoked [0] _ _ rfl rfl
  exact ⟨_, invoked, ((cleanup_recordable_iff removalPlan nearlySpent nearlySpent_words nearlySpent_valid).1 _ _ _ _ _ _ _
    nearlySpent_granted (by decide) (by decide) (by decide) invoked).mpr (by decide)⟩

end Samples

end RssMdmAgent.RecoveryCleanup
