import RssMdmAgent.ApplicationModel
import RssMdmAgent.ProgressHistory

set_option autoImplicit false

/-! # The runner thread of one software program

The thread is a machine whose moves carry what its environment answers: clocks, the cancellation
flag, receipts of checkpoints, the evidence of invocations and native observations. -/

namespace RssMdmAgent.RunnerProgram
open BoundedArithmetic ContractIdentity ContractProcess ProgramInstructions ContractPlan
open ProgressHistory ApplicationModel

structure RunnerHost where
  decodeState : List UInt8 → Option SoftwareState
  decodeResult : List UInt8 → Option (Option SoftwareState)
  notDowngrade : SoftwareProgramStep → SoftwareState → Bool

/-- What one execution or resumption of a program starts from. -/
structure ProgramRun where
  plan : FrozenExecution
  program : SoftwareProgram
  software : plan.program = some program
  attempt : AttemptId
  runner : Identifier
  outputLimit : Nat
  firstStart : Option Nat
  previous : Option SoftwareProgress

def ProgramRun.prior (run : ProgramRun) : List SoftwareCheckpoint :=
  (run.previous.map (·.checkpoints)).getD []

def ProgramRun.priorElapsed (run : ProgramRun) : Nat := (run.previous.map (·.elapsedMs)).getD 0

def ProgramRun.journal (run : ProgramRun) : SoftwareProgress :=
  run.previous.getD
    { attemptId := run.attempt
      contentDigest := run.plan.digest
      runner := run.runner
      checkpoints := []
      elapsedMs := 0
      outputBytes := 0 }

def ProgramRun.completed (run : ProgramRun) : Nat := run.prior.countP SoftwareCheckpoint.isComplete

def rejected (plan : FrozenExecution) (attempt : AttemptId) (runner : Identifier)
    (processEnd : ProcessEnd) : ProcessEvidence where
  contentDigest := plan.digest
  attemptId := attempt
  runner := runner
  scope := .notStarted
  finished := true
  exitCode := none
  processEnd := processEnd
  failureKind := .none
  quiescent := true
  stdout := []
  stderr := []
  totalOutputBytes := 0
  quality := .failed

def classify : AppError → ProcessFailureKind
  | .denied => .denied
  | .unbound => .unbound
  | .capability => .capability
  | .unsupported => .unsupported
  | .invalidInput | .configuration => .invalidInput
  | .capacity => .capacity
  | .conflict => .conflict
  | .notFound | .clock | .unavailable | .storage | .unsupportedSchema _ _ | .outcomeUnknown
  | .confirmationUnknown => .unavailable

def fault (facts : ProcessEvidence) (kind : ProcessFailureKind) : ProcessEvidence :=
  if facts.failureKind = .none then { facts with failureKind := kind } else facts

inductive BudgetGroup where
  | mutation
  | removal
  | observation
  | cleanup
  deriving DecidableEq, Repr

def budgetGroup (step : SoftwareProgramStep) (phase : SoftwarePhase) : BudgetGroup :=
  if phase = .cleanup then .cleanup
  else if phase = .removal then .removal
  else if phase.isObservation then
    match step.detection with
    | .script invocation =>
      if invocation.launch.profile.value = "native-software-worker" then .mutation else .observation
    | _ => .mutation
  else .mutation

structure PhaseFacts where
  process : Option ProcessEvidence
  detected : Option SoftwareState
  quiescent : Bool
  deriving DecidableEq

structure PhaseRecord extends PhaseFacts where
  durationMs : Nat

def phaseRecord (index : Nat) (phase : SoftwarePhase) : SoftwareCheckpoint → Option PhaseRecord
  | .ended durationMs step p process detected quiescent =>
    if step = index ∧ p = phase then some ⟨⟨process, detected, quiescent⟩, durationMs⟩ else none
  | _ => none

def recordOf (checkpoints : List SoftwareCheckpoint) (index : Nat) (phase : SoftwarePhase) :
    Option PhaseRecord :=
  checkpoints.findSome? (phaseRecord index phase)

def completeOutput (facts : ProcessEvidence) : Bool :=
  facts.processEnd == .exited && facts.exitCode == some 0 && facts.quality == .complete

def scriptDetection (host : RunnerHost) (facts : ProcessEvidence) : SoftwareState :=
  ((if completeOutput facts then host.decodeState facts.stdout else none)).getD
    (.unknown .unavailable)

def invocationDetection (host : RunnerHost) (command : SoftwareInvocation)
    (facts : ProcessEvidence) : SoftwareState :=
  if command.launch.profile.value = "native-software-worker" then
    ((if completeOutput facts then host.decodeResult facts.stdout else none).join).getD
      (.unknown .unavailable)
  else scriptDetection host facts

/-- Where the thread is inside its loops. -/
inductive Control where
  | opening
  | choosing
  | beginning (phase : SoftwarePhase)
  | starting (phase : SoftwarePhase)
  | running (phase : SoftwarePhase) (cap : Nat)
  | ending (phase : SoftwarePhase) (facts : PhaseFacts)
  | completing
  | finished (result : Except AppError Unit)

/-- The variables of the thread. Times are nanoseconds since it started. -/
structure RunState where
  journal : SoftwareProgress
  index : Nat
  control : Control
  phaseStarted : Nat
  before : Option SoftwareState
  stepQuiescent : Bool
  mutationSucceeded : Bool
  phases : List SoftwarePhase
  failedMutation : Bool
  invocationElapsed : BudgetGroup → Nat
  invocationOutput : BudgetGroup → Nat
  first : Option Nat
  latest : ProcessEvidence
  physicalObserved : Bool
  physicalFailed : Bool
  clock : Nat

def ProgramRun.start (run : ProgramRun) : RunState where
  journal := run.journal
  index := run.completed
  control := .opening
  phaseStarted := 0
  before := none
  stepQuiescent := true
  mutationSucceeded := true
  phases := [.before]
  failedMutation := false
  invocationElapsed _ := 0
  invocationOutput _ := 0
  first := run.firstStart
  latest := { rejected run.plan run.attempt run.runner .unknown with quiescent := false }
  physicalObserved := false
  physicalFailed := false
  clock := 0

/-- The variables of a step are created anew. -/
def RunState.enterStep (st : RunState) (index : Nat) : RunState :=
  { st with
    index := index
    control := .opening
    before := none
    stepQuiescent := true
    mutationSucceeded := true
    phases := [.before]
    failedMutation := false
    invocationElapsed := fun _ => 0
    invocationOutput := fun _ => 0 }

def RunState.finish (st : RunState) (result : Except AppError Unit) : RunState :=
  { st with control := .finished result }

def millis (nanos : Nat) : Nat := min (nanos / 1000000) maxWord

/-- A record is appended and the new facts are handed to the checkpoint port. -/
def RunState.commit (st : RunState) (run : ProgramRun) (record : SoftwareCheckpoint)
    (control : Control) (time : Nat) : RunState :=
  { st with
    journal :=
      { st.journal with
        checkpoints := st.journal.checkpoints ++ [record]
        elapsedMs := saturatingAdd run.priorElapsed (millis time) }
    control := control
    clock := time }

def wrappingAdd (a b : Nat) : Nat := (a + b) % (maxWord + 1)

def charge (amounts : BudgetGroup → Nat) (group : BudgetGroup) (amount : Nat) : BudgetGroup → Nat :=
  fun g => if g = group then wrappingAdd (amounts g) amount else amounts g

def RunState.charged (st : RunState) (step : SoftwareProgramStep) (phase : SoftwarePhase)
    (durationMs : Nat) (process : Option ProcessEvidence) : RunState :=
  { st with
    invocationElapsed := charge st.invocationElapsed (budgetGroup step phase) durationMs
    invocationOutput := charge st.invocationOutput (budgetGroup step phase)
      ((process.map (·.totalOutputBytes)).getD 0) }

/-- The capture keeps the first failure of an operation, else the last physical exit. -/
def RunState.captured (st : RunState) (step : SoftwareProgramStep)
    (command : Option SoftwareInvocation) (phase : SoftwarePhase) (facts : PhaseFacts) : RunState :=
  match facts.process with
  | none => st
  | some process =>
    let st := { st with first := if process.scope = ProcessScope.notStarted then st.first else none }
    if phase.isObservation then
      { st with latest := if st.physicalObserved then st.latest else process }
    else
      let failed := !facts.quiescent || !command.any (·.succeeded process step.allowReboot)
      { st with
        latest :=
          if !st.physicalFailed && (failed || phase ≠ SoftwarePhase.cleanup || !st.physicalObserved) then process
          else st.latest
        physicalFailed := st.physicalFailed || failed
        physicalObserved := true }

/-- The decisions after the facts of a phase are known. -/
def RunState.conclude (st : RunState) (host : RunnerHost) (run : ProgramRun)
    (step : SoftwareProgramStep) (phase : SoftwarePhase) (facts : PhaseFacts) (time : Nat) :
    RunState :=
  have st : RunState := { st with stepQuiescent := st.stepQuiescent && facts.quiescent }
  if facts.quiescent = false then st.finish (.error .outcomeUnknown)
  else
    match facts.detected with
    | some state =>
      if state.isUnknown then st.finish (.error .outcomeUnknown)
      else if phase = .removalAfter ∧ state ≠ .absent then st.finish (.error .outcomeUnknown)
      else if phase ≠ .removalAfter ∧ run.program.satisfied step state = true ∧
          st.stepQuiescent = true ∧ st.mutationSucceeded = true then
        st.commit run (.complete st.index) .completing time
      else if phase = .after then st.finish (.error .outcomeUnknown)
      else if phase = .before ∧ state.isPresent = true ∧ run.program.intent = .install ∧
          step.allowDowngrade = false ∧ host.notDowngrade step state = false then
        st.finish (.error .denied)
      else if phase = .before then
        let mutations := run.program.mutationPhases step state
        if mutations = [] then st.finish (.error .denied)
        else
          { st with
            phases := st.phases ++ mutations ++ [.after], before := some state, control := .choosing }
      else { st with before := some state, control := .choosing }
    | none =>
      if phase.isObservation then { st with control := .choosing }
      else
        match facts.process, run.program.invocation st.index phase with
        | none, _ => st.finish (.error .outcomeUnknown)
        | some _, none => st.finish (.error .invalidInput)
        | some process, some command =>
          let succeeded := st.mutationSucceeded && command.succeeded process step.allowReboot
          let st :=
            { st with
              mutationSucceeded := succeeded, failedMutation := st.failedMutation || !succeeded }
          if st.before.isNone then st.finish (.error .outcomeUnknown)
          else { st with control := .choosing }

/-- What the gate before an activity reads: the cancellation flag, the deadline and the clocks. -/
structure Gate where
  cancelled : Bool
  expired : Bool
  now : Nat
  monotonic : Option Nat
  committed : Nat

def clockPassed (first : Option Nat) (monotonic : Option Nat) : Bool :=
  first.any fun before => monotonic.all (before ≤ ·)

def RunState.choose (st : RunState) (host : RunnerHost) (run : ProgramRun)
    (step : SoftwareProgramStep) (gate : Gate) : RunState :=
  match st.phases with
  | [] => st.enterStep (st.index + 1)
  | phase :: rest =>
    let st := { st with phases := rest }
    if st.failedMutation && !phase.isObservation && phase ≠ .cleanup then st
    else
      match recordOf run.prior st.index phase with
      | some record =>
        let st := (st.charged step phase record.durationMs record.process).captured step
          (run.program.invocation st.index phase) phase record.toPhaseFacts
        st.conclude host run step phase record.toPhaseFacts gate.committed
      | none =>
        let st := { st with phaseStarted := gate.now }
        if gate.cancelled || gate.expired || run.outputLimit ≤ st.journal.outputBytes then
          st.finish (.error .outcomeUnknown)
        else if clockPassed st.first gate.monotonic then st.finish (.error .clock)
        else st.commit run (.started st.index phase) (.beginning phase) gate.committed

def primaryPhase (st : RunState) : SoftwarePhase :=
  let begun := st.journal.checkpoints.reverse.findSome? fun checkpoint =>
    match checkpoint with
    | .started i p => if i = st.index ∧ (p = .mutation ∨ p = .upgrade) then some p else none
    | _ => none
  begun.getD (if .upgrade ∈ st.phases then .upgrade else .mutation)

/-- The remaining time and output of an invocation, inside the budget of its group. -/
def RunState.invocationBudget (st : RunState) (run : ProgramRun) (step : SoftwareProgramStep)
    (phase : SoftwarePhase) (command : SoftwareInvocation) : Nat × Nat :=
  let group := budgetGroup step phase
  let reserve := if group = .mutation then step.invocations .cleanup else none
  let source :=
    if group = .mutation then (run.program.invocation st.index (primaryPhase st)).getD command
    else command
  let timeout :=
    if group = .cleanup then command.timeoutMs else min source.timeoutMs command.timeoutMs
  let output :=
    if group = .cleanup then command.outputBytes else min source.outputBytes command.outputBytes
  (timeout - (reserve.map (·.timeoutMs)).getD 0 - st.invocationElapsed group,
    min (output - (reserve.map (·.outputBytes)).getD 0 - st.invocationOutput group)
      (run.outputLimit - st.journal.outputBytes))

def RunState.startInvocation (st : RunState) (run : ProgramRun) (step : SoftwareProgramStep)
    (phase : SoftwarePhase) (command : SoftwareInvocation) (bound : Bool) : RunState :=
  if bound = false then st.finish (.error .unbound)
  else
    let budget := st.invocationBudget run step phase command
    if budget.1 = 0 ∨ budget.2 = 0 then st.finish (.error .capacity)
    else { st with control := .running phase budget.2 }

/-- The facts of a phase made now are charged and handed out as its end record. -/
def RunState.endPhase (st : RunState) (run : ProgramRun) (step : SoftwareProgramStep)
    (phase : SoftwarePhase) (facts : PhaseFacts) (ended committed : Nat) : RunState :=
  let bytes := (facts.process.map (·.totalOutputBytes)).getD 0
  let durationMs := millis (ended - st.phaseStarted)
  let st := { st with
    journal := { st.journal with outputBytes := saturatingAdd st.journal.outputBytes bytes } }
  let st := (st.captured step (run.program.invocation st.index phase) phase facts).charged step
    phase durationMs facts.process
  st.commit run (.ended durationMs st.index phase facts.process facts.detected facts.quiescent)
    (.ending phase facts) committed

/-- What happens next to the thread, with the answers it gets. -/
inductive Move where
  | verified (result : Except AppError Unit)
  | chosen (gate : Gate)
  | acknowledged (time : Nat)
  | abandoned (error : AppError)
  | started (bound : Bool)
  | observed (context : Except AppError Unit) (gate : Gate) (state : SoftwareState) (ended : Nat)
  | invoked (result : Except AppError ProcessEvidence) (ended committed : Nat)

def RunState.observe (st : RunState) (run : ProgramRun) (step : SoftwareProgramStep)
    (phase : SoftwarePhase) (context : Except AppError Unit) (gate : Gate) (state : SoftwareState)
    (ended : Nat) : RunState :=
  match context with
  | .error error => st.finish (.error error)
  | .ok () =>
    if gate.cancelled || gate.expired || clockPassed st.first gate.monotonic then
      st.finish (.error .clock)
    else st.endPhase run step phase ⟨none, some state, true⟩ ended gate.committed

def RunState.invoke (st : RunState) (host : RunnerHost) (run : ProgramRun)
    (step : SoftwareProgramStep) (phase : SoftwarePhase) (command : SoftwareInvocation)
    (result : Except AppError ProcessEvidence) (ended committed : Nat) : RunState :=
  match result with
  | .error error => st.finish (.error error)
  | .ok process =>
    let detected :=
      if phase.isObservation then some (invocationDetection host command process) else none
    st.endPhase run step phase ⟨some process, detected, process.quiescent⟩ ended committed

/-- One move of the thread; a move that does not fit the control is none. -/
def RunState.advance (st : RunState) (host : RunnerHost) (run : ProgramRun) (move : Move) :
    Option RunState :=
  match run.program.steps[st.index]? with
  | none =>
    match st.control with
    | .opening => some (st.finish (.ok ()))
    | _ => none
  | some step =>
    match st.control, move with
    | .opening, .verified (.error error) => some (st.finish (.error error))
    | .opening, .verified (.ok ()) => some { st with control := .choosing }
    | .choosing, .chosen gate => some (st.choose host run step gate)
    | .beginning phase, .acknowledged time =>
      some { st with control := .starting phase, clock := time }
    | .ending phase facts, .acknowledged time => some (st.conclude host run step phase facts time)
    | .completing, .acknowledged time => some { st.enterStep (st.index + 1) with clock := time }
    | .beginning _, .abandoned error | .ending _ _, .abandoned error
    | .completing, .abandoned error => some (st.finish (.error error))
    | .starting phase, .started bound =>
      (run.program.invocation st.index phase).map fun command =>
        st.startInvocation run step phase command bound
    | .starting phase, .observed context gate state ended =>
      match run.program.invocation st.index phase with
      | some _ => none
      | none =>
        if phase.isObservation then some (st.observe run step phase context gate state ended)
        else some (st.finish (.error .invalidInput))
    | .running phase _, .invoked result ended committed =>
      (run.program.invocation st.index phase).map fun command =>
        st.invoke host run step phase command result ended committed
    | _, _ => none

def Control.handsOut : Control → Bool
  | .beginning _ | .ending _ _ | .completing => true
  | _ => false

def startedScope (checkpoints : List SoftwareCheckpoint) : Option ProcessScope :=
  checkpoints.reverse.findSome? fun checkpoint =>
    match checkpoint with
    | .ended _ _ _ (some process) _ _ =>
      if process.scope = .notStarted then none else some process.scope
    | _ => none

/-- The capture that the thread publishes when it ends. -/
def RunState.publish (st : RunState) (run : ProgramRun) (result : Except AppError Unit) :
    ProcessEvidence :=
  let latest := { st.latest with
    scope :=
      if st.latest.scope = .notStarted then
        (startedScope st.journal.checkpoints).getD st.latest.scope
      else st.latest.scope
    finished := true
    totalOutputBytes := st.journal.outputBytes }
  match result with
  | .ok () =>
    if latest.exitCode = none then { latest with quality := .complete, failureKind := .none }
    else latest
  | .error error =>
    fault { latest with
      quiescent := st.journal.closed run.plan, quality := .partialCapture } (classify error)

end RssMdmAgent.RunnerProgram
