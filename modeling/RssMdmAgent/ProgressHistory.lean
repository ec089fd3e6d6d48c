import RssMdmAgent.BoundedArithmetic
import RssMdmAgent.ContractPlan

set_option autoImplicit false

/-! # Append-only checkpoints of one ordered software attempt -/

namespace RssMdmAgent.ProgressHistory
open BoundedArithmetic ContractIdentity ContractProcess ProgramInstructions ContractPlan

/-- Durable phase boundaries. A begun invocation without an end stays unknown after a crash. -/
inductive SoftwareCheckpoint where
  | started (step : Nat) (phase : SoftwarePhase)
  | ended (durationMs step : Nat) (phase : SoftwarePhase) (process : Option ProcessEvidence)
      (detected : Option SoftwareState) (quiescent : Bool)
  | cleanupBegin (step sequence timeoutMs outputBytes : Nat)
  | cleanupEnd (step sequence durationMs : Nat) (process : ProcessEvidence)
      (resourcesClosed : Bool)
  | complete (step : Nat)
  deriving DecidableEq, Repr

def SoftwareCheckpoint.isRecovery : SoftwareCheckpoint → Bool
  | .cleanupBegin .. | .cleanupEnd .. => true
  | _ => false

def SoftwareCheckpoint.isComplete : SoftwareCheckpoint → Bool
  | .complete _ => true
  | _ => false

structure SoftwareProgress where
  attemptId : AttemptId
  contentDigest : Digest
  runner : Identifier
  checkpoints : List SoftwareCheckpoint
  elapsedMs : Nat
  outputBytes : Nat
  deriving DecidableEq, Repr

/-- The loop variables of the history validator. -/
structure Replay where
  index : Nat
  pending : Option SoftwarePhase
  phases : List SoftwarePhase
  position : Nat
  canComplete : Bool
  quiet : Bool
  succeeded : Bool
  output : Nat
  duration : Nat
  deriving DecidableEq, Repr

def Replay.initial : Replay :=
  ⟨0, none, [.before], 0, false, true, true, 0, 0⟩

inductive ReplayOutcome where
  | reject
  | last (output : Nat)
  | next (state : Replay)
  deriving DecidableEq, Repr

def skippable (phase : SoftwarePhase) : Bool := !phase.isObservation && phase ≠ .cleanup

def skipFailed (s : Replay) (phase : SoftwarePhase) : Nat :=
  if !s.succeeded && (phase == .cleanup || phase == .after) then
    s.position + ((s.phases.drop s.position).takeWhile skippable).length
  else s.position

def replayBegin (s : Replay) (step : Nat) (phase : SoftwarePhase) : ReplayOutcome :=
  let position := skipFailed s phase
  if step ≠ s.index || s.pending.isSome || s.canComplete || s.phases[position]? ≠ some phase then
    .reject
  else .next { s with position := position, pending := some phase }

def processBound (p : SoftwareProgress) (command : SoftwareInvocation)
    (process : ProcessEvidence) : Bool :=
  process.attemptId == p.attemptId && process.contentDigest == p.contentDigest &&
    process.runner == p.runner && process.finished &&
    saturatingAdd process.stdout.length process.stderr.length ≤ command.outputBytes &&
    saturatingAdd process.stdout.length process.stderr.length ≤ process.totalOutputBytes

/-- The loop variables after a retained observation; the first one fixes the later phases. -/
def observed (program : SoftwareProgram) (step : SoftwareProgramStep) (s : Replay)
    (phase : SoftwarePhase) (state : SoftwareState) : Replay :=
  let canComplete :=
    phase ≠ .removalAfter && s.quiet && s.succeeded && program.satisfied step state
  { s with
    canComplete := canComplete
    phases :=
      if phase = .before ∧ canComplete = false then
        s.phases ++ program.mutationPhases step state ++
          (if program.intent = .detect then [] else [.after])
      else s.phases }

/-- The observation part of an end record. -/
def replayObservation (program : SoftwareProgram) (step : SoftwareProgramStep) (s : Replay)
    (phase : SoftwarePhase) (detected : Option SoftwareState) : ReplayOutcome :=
  match detected with
  | none => .reject
  | some state =>
    if (phase = .removalAfter ∧ state ≠ .absent) ∨ state.isUnknown = true then .last s.output
    else .next (observed program step s phase state)

/-- The operation part of an end record. -/
def replayOperation (step : SoftwareProgramStep) (s : Replay) (command : Option SoftwareInvocation)
    (process : Option ProcessEvidence) (detected : Option SoftwareState) (quiescent : Bool) :
    ReplayOutcome :=
  match command, process with
  | some command, some facts =>
    if detected.isSome then .reject
    else
      let s := { s with succeeded := s.succeeded && command.succeeded facts step.allowReboot }
      if quiescent then .next s else .last s.output
  | _, _ => .reject

/-- The accounting part of an end record. -/
def replayAccount (p : SoftwareProgress) (s : Replay) (durationMs : Nat)
    (command : Option SoftwareInvocation) (process : Option ProcessEvidence) (quiescent : Bool) :
    Option Replay := do
  let duration ← checkedAdd s.duration durationMs
  if p.elapsedMs < duration then none
  else
    let s := { s with
      duration := duration
      pending := none
      position := s.position + 1
      quiet := s.quiet && quiescent }
    match command, process with
    | none, none => some s
    | some command, some facts =>
      if facts.quiescent ≠ quiescent || !processBound p command facts then none
      else do
        let output ← checkedAdd s.output facts.totalOutputBytes
        some { s with output := output }
    | _, _ => none

def replayEnd (program : SoftwareProgram) (p : SoftwareProgress) (current : SoftwareProgramStep)
    (s : Replay) (durationMs step : Nat) (phase : SoftwarePhase) (process : Option ProcessEvidence)
    (detected : Option SoftwareState) (quiescent : Bool) : ReplayOutcome :=
  if step ≠ s.index || s.pending ≠ some phase then .reject
  else
    let command := program.invocation s.index phase
    match replayAccount p s durationMs command process quiescent with
    | none => .reject
    | some s =>
      if phase.isObservation then replayObservation program current s phase detected
      else replayOperation current s command process detected quiescent

def replayComplete (s : Replay) (step : Nat) : ReplayOutcome :=
  if step ≠ s.index || s.pending.isSome || !s.canComplete then .reject
  else .next { Replay.initial with index := s.index + 1, output := s.output, duration := s.duration }

def replayStep (program : SoftwareProgram) (p : SoftwareProgress) (s : Replay)
    (checkpoint : SoftwareCheckpoint) : ReplayOutcome :=
  match program.steps[s.index]? with
  | none => .reject
  | some current =>
    match checkpoint with
    | .started step phase => replayBegin s step phase
    | .ended durationMs step phase process detected quiescent =>
      replayEnd program p current s durationMs step phase process detected quiescent
    | .cleanupBegin .. | .cleanupEnd .. => .reject
    | .complete step => replayComplete s step

/-- The validator loop over a history without recovery records. -/
def replay (program : SoftwareProgram) (p : SoftwareProgress) :
    Replay → List SoftwareCheckpoint → Bool
  | s, [] => s.output == p.outputBytes
  | s, checkpoint :: rest =>
    match replayStep program p s checkpoint with
    | .reject => false
    | .last output => rest.isEmpty && output == p.outputBytes
    | .next s' => replay program p s' rest

def completeCount (p : SoftwareProgress) : Nat :=
  p.checkpoints.countP SoftwareCheckpoint.isComplete

def completeWith (valid : SoftwareProgress → Bool) (plan : FrozenExecution)
    (p : SoftwareProgress) : Bool :=
  valid p &&
    match plan.program with
    | none => false
    | some program => completeCount p == program.steps.length

structure ReleaseScan where
  pending : Bool
  resources : Finset Nat
  deriving DecidableEq

/-- The loop variables of the scan for ended business operations. -/
def originalActivityScan : Option SoftwarePhase → List SoftwareCheckpoint → Bool
  | pending, [] => pending == none || pending == some .cleanup
  | _, .started _ phase :: rest => originalActivityScan (some phase) rest
  | _, .ended _ _ phase _ _ quiescent :: rest =>
    if !quiescent && phase ≠ .cleanup then false else originalActivityScan none rest
  | pending, .cleanupBegin .. :: _ | pending, .cleanupEnd .. :: _ =>
    pending == none || pending == some .cleanup
  | pending, .complete _ :: rest => originalActivityScan pending rest

def originalActivityEnded (p : SoftwareProgress) : Bool := originalActivityScan none p.checkpoints

def releaseStep (program : Option SoftwareProgram) (p : SoftwareProgress) (s : ReleaseScan) :
    SoftwareCheckpoint → ReleaseScan
  | .started step phase =>
    { pending := true
      resources :=
        if (match program with
          | none => false
          | some program => program.acquiresResources step phase) then insert step s.resources
        else s.resources }
  | .ended _ step phase process _ quiescent =>
    { pending := !quiescent
      resources :=
        if phase = .cleanup ∧ process.any ProcessEvidence.exitedZero then s.resources.erase step
        else s.resources }
  | .cleanupBegin .. => { s with pending := true }
  | .cleanupEnd step _ _ _ resourcesClosed =>
    if resourcesClosed then
      { pending := !originalActivityEnded p, resources := s.resources.erase step }
    else s
  | .complete _ => s

def releaseScan (program : Option SoftwareProgram) (p : SoftwareProgress) : ReleaseScan :=
  p.checkpoints.foldl (releaseStep program p) ⟨false, ∅⟩

def closedWith (valid : SoftwareProgress → Bool) (plan : FrozenExecution)
    (p : SoftwareProgress) : Bool :=
  valid p &&
    let scan := releaseScan plan.program p
    !scan.pending && decide (scan.resources = ∅)

/-- The loop variables of the cleanup accounting. -/
structure CleanupAccount where
  elapsed : Nat
  output : Nat
  pending : Option (Nat × Nat)
  sequence : Nat
  deriving DecidableEq, Repr

def CleanupAccount.debit (a : CleanupAccount) : CleanupAccount :=
  match a.pending with
  | none => a
  | some (time, bytes) =>
    { a with
      elapsed := saturatingAdd a.elapsed time
      output := saturatingAdd a.output bytes
      pending := none }

def cleanupAccountStep (step : Nat) (command : SoftwareInvocation) (a : CleanupAccount) :
    SoftwareCheckpoint → CleanupAccount
  | .started i .cleanup =>
    if i = step then { a with pending := some (command.timeoutMs, command.outputBytes) } else a
  | .ended durationMs i .cleanup process _ _ =>
    if i = step then
      { a with
        pending := none
        elapsed := saturatingAdd a.elapsed durationMs
        output := saturatingAdd a.output ((process.map (·.totalOutputBytes)).getD 0) }
    else a
  | .cleanupBegin _ sequence timeoutMs outputBytes =>
    { a.debit with pending := some (timeoutMs, outputBytes), sequence := sequence }
  | .cleanupEnd _ _ durationMs process _ =>
    { a with
      pending := none
      elapsed := saturatingAdd a.elapsed durationMs
      output := saturatingAdd a.output process.totalOutputBytes }
  | _ => a

def cleanupAccount (step : Nat) (command : SoftwareInvocation)
    (checkpoints : List SoftwareCheckpoint) : CleanupAccount :=
  checkpoints.foldl (cleanupAccountStep step command) ⟨0, 0, none, 0⟩

def acquiringStep (program : SoftwareProgram) : SoftwareCheckpoint → Option Nat
  | .started step phase => if program.acquiresResources step phase then some step else none
  | _ => none

def lastAcquiring (program : SoftwareProgram) (checkpoints : List SoftwareCheckpoint) :
    Option Nat :=
  checkpoints.reverse.findSome? (acquiringStep program)

/-- Remaining reserved cleanup grant; a pending call debits its full granted slice. -/
def cleanupAllowanceWith (valid : SoftwareProgress → Bool) (plan : FrozenExecution)
    (p : SoftwareProgress) : Option (Nat × Nat × Nat × Nat) := do
  let program ← plan.program
  let step ← lastAcquiring program p.checkpoints
  let command ← program.invocation step .cleanup
  let account := (cleanupAccount step command p.checkpoints).debit
  if 3 ≤ account.sequence || closedWith valid plan p || completeWith valid plan p then none
  else if plan.spec.budget.totalTimeoutMs ≤ p.elapsedMs ||
      plan.spec.budget.totalOutputBytes ≤ p.outputBytes then none
  else
    let time := command.timeoutMs - account.elapsed
    let bytes := command.outputBytes - account.output
    if 0 < time ∧ 0 < bytes then some (step, account.sequence + 1, time, bytes) else none

def recoveryOutput : SoftwareCheckpoint → Option Nat
  | .cleanupEnd _ _ _ process _ => some process.totalOutputBytes
  | _ => none

def recoveryDuration : SoftwareCheckpoint → Option Nat
  | .cleanupEnd _ _ durationMs _ _ => some durationMs
  | _ => none

/-- The evidence of one recovery matches the grant under which it was begun. -/
def recoveryBound (p : SoftwareProgress) (grant : Nat × Nat × Nat × Nat)
    (step sequence durationMs : Nat) (process : ProcessEvidence) (resourcesClosed : Bool) : Bool :=
  step == grant.1 && sequence == grant.2.1 && process.attemptId == p.attemptId &&
    process.contentDigest == p.contentDigest && process.runner == p.runner &&
    process.finished && process.totalOutputBytes ≤ grant.2.2.2 &&
    saturatingAdd process.stdout.length process.stderr.length ≤ process.totalOutputBytes &&
    durationMs ≤ p.elapsedMs &&
    (!resourcesClosed || (process.quiescent && process.exitedZero))

/-- The recovery loop; `before` grows by one record at a time. -/
def recoveryReplay (valid : SoftwareProgress → Bool) (plan : FrozenExecution)
    (p : SoftwareProgress) : SoftwareProgress → Option (Nat × Nat × Nat × Nat) →
    List SoftwareCheckpoint → Bool
  | _, _, [] => true
  | before, pending, checkpoint :: rest =>
    match checkpoint with
    | .cleanupBegin step sequence timeoutMs outputBytes =>
      cleanupAllowanceWith valid plan before == some (step, sequence, timeoutMs, outputBytes) &&
        recoveryReplay valid plan p
          { before with checkpoints := before.checkpoints ++ [checkpoint] }
          (some (step, sequence, timeoutMs, outputBytes)) rest
    | .cleanupEnd step sequence durationMs process resourcesClosed =>
      match pending with
      | none => false
      | some grant =>
        recoveryBound p grant step sequence durationMs process resourcesClosed &&
          recoveryReplay valid plan p
            { before with
              checkpoints := before.checkpoints ++ [checkpoint]
              outputBytes := saturatingAdd before.outputBytes process.totalOutputBytes
              elapsedMs := saturatingAdd before.elapsedMs durationMs } none rest
    | _ => false

/-- A recovery tail extends a valid, incomplete history by granted cleanup calls only. -/
def validCleanupTail (valid : SoftwareProgress → Bool) (plan : FrozenExecution)
    (p : SoftwareProgress) (start : Nat) : Bool :=
  let tail := p.checkpoints.drop start
  match checkedSum (tail.filterMap recoveryOutput) with
  | none => false
  | some addedOutput =>
    match checkedSub p.outputBytes addedOutput with
    | none => false
    | some prefixOutput =>
      let before := { p with
        checkpoints := p.checkpoints.take start
        outputBytes := prefixOutput }
      if !valid before || completeWith valid plan before then false
      else
        match checkedSum (tail.filterMap recoveryDuration) with
        | none => false
        | some addedDuration =>
          match checkedSub p.elapsedMs addedDuration with
          | none => false
          | some prefixElapsed =>
            let before := { before with elapsedMs := prefixElapsed }
            valid before && recoveryReplay valid plan p before none tail

/-- Sequencing, identity, per-invocation accounting and cumulative bounds. The validity of
shorter histories, which a recovery tail refers to, is supplied by `valid`. -/
def validBody (valid : SoftwareProgress → Bool) (plan : FrozenExecution)
    (p : SoftwareProgress) : Bool :=
  match plan.program with
  | none => false
  | some program =>
    if p.contentDigest ≠ plan.digest || program.steps.length * 17 + 6 < p.checkpoints.length then
      false
    else
      match p.checkpoints.findIdx? SoftwareCheckpoint.isRecovery with
      | some start => validCleanupTail valid plan p start
      | none => replay program p Replay.initial p.checkpoints

def validAt (plan : FrozenExecution) : Nat → SoftwareProgress → Bool
  | 0, _ => false
  | fuel + 1, p => validBody (validAt plan fuel) plan p

def SoftwareProgress.validFor (p : SoftwareProgress) (plan : FrozenExecution) : Bool :=
  validAt plan (p.checkpoints.length + 1) p

def SoftwareProgress.complete (p : SoftwareProgress) (plan : FrozenExecution) : Bool :=
  completeWith (fun q => SoftwareProgress.validFor q plan) plan p

def SoftwareProgress.closed (p : SoftwareProgress) (plan : FrozenExecution) : Bool :=
  closedWith (fun q => SoftwareProgress.validFor q plan) plan p

def SoftwareProgress.cleanupAllowance (p : SoftwareProgress) (plan : FrozenExecution) :
    Option (Nat × Nat × Nat × Nat) :=
  cleanupAllowanceWith (fun q => SoftwareProgress.validFor q plan) plan p

def SoftwareCheckpoint.resumableRecord : SoftwareCheckpoint → Bool
  | .ended _ _ _ _ detected quiescent =>
    quiescent && !(match detected with
      | some state => state.isUnknown
      | none => false)
  | .cleanupBegin .. | .cleanupEnd .. => false
  | _ => true

def SoftwareProgress.resumable (p : SoftwareProgress) (plan : FrozenExecution) : Bool :=
  p.validFor plan && !p.complete plan &&
    p.checkpoints.all SoftwareCheckpoint.resumableRecord &&
    match p.checkpoints.getLast? with
    | some (.complete _) | some (.ended ..) => true
    | _ => false

def SoftwareProgress.extends (p previous : SoftwareProgress) : Bool :=
  p.attemptId == previous.attemptId && p.contentDigest == previous.contentDigest &&
    p.runner == previous.runner && previous.checkpoints.isPrefixOf p.checkpoints &&
    decide (previous.elapsedMs ≤ p.elapsedMs) && decide (previous.outputBytes ≤ p.outputBytes)

end RssMdmAgent.ProgressHistory
