import RssMdmAgent.TransitionRuns

set_option autoImplicit false

/-! # The execution of an operation that its controllers share -/

namespace RssMdmAgent.OperationExecution
open TransitionRuns

inductive EventKind where
  | submit | cancel | refresh | answer
  deriving DecidableEq

inductive Phase where
  | ready | submitting | waiting | running | executionEnded | failed | unknown | succeeded | pendingEffect | cancelled | denied
  deriving DecidableEq

structure OperationScope where
  authority : String
  tenant : String
  principal : String
  session : String
  target : String
  operation : String
  deriving DecidableEq

structure OperationInteraction where
  id : String
  options : List String
  expiresAtMs : Int
  deriving DecidableEq

/-- A service projection; `form` is what only the draft reads of it. -/
structure OperationSnapshot where
  scope : OperationScope
  revision : Nat
  baseline : String
  phase : Phase
  allowed : List EventKind
  interaction : Option OperationInteraction
  expiresAtMs : Option Int
  form : String
  deriving DecidableEq

structure Execution where
  snapshot : OperationSnapshot
  busy : Bool
  unknown : Bool
  unknownRevision : Int
  deriving DecidableEq

/-- What the draft and the timers of a controller tell when an event is to be sent. -/
structure Form where
  capturing : Bool
  preparationExpired : Bool
  interactionExpired : Bool
  baseline : String
  /-- The values and the selection of the draft are in order. -/
  valid : Bool

inductive Outcome where
  | snapshot (next : Option OperationSnapshot)
  | rejected
  | failed
  deriving DecidableEq

def Execution.setUnknown (e : Execution) (value : Bool) : Execution :=
  { e with unknown := value, unknownRevision := if value then e.snapshot.revision else e.unknownRevision }

def Execution.clears (e : Execution) (next : OperationSnapshot) (queried : Bool) : Bool :=
  queried && decide (e.unknownRevision < next.revision) && !e.busy && e.unknown && decide (next.phase ≠ .unknown)

/-- The snapshot of a later revision replaces the shared one; none is an exception. -/
def Execution.merge (scope : OperationScope) (e : Execution) (snapshot : Option OperationSnapshot) (queried : Bool) :
    Option (Execution × Bool) :=
  match snapshot with
  | none => none
  | some next =>
    if next.scope ≠ scope then none
    else if next.revision < e.snapshot.revision then some (e, false)
    else some ({ e with snapshot := next, unknown := e.unknown && !e.clears next queried }, true)

def can (e : Execution) (disposed : Bool) (form : Form) (now : Int) (kind : EventKind) : Bool :=
  !disposed && !e.busy &&
    (decide (kind ≠ .submit) || (!form.capturing && !form.preparationExpired &&
      e.snapshot.expiresAtMs.all fun expires => decide (now < expires))) &&
    e.snapshot.allowed.contains kind &&
    (decide (kind ≠ .answer) || (!form.interactionExpired &&
      e.snapshot.interaction.any fun interaction => decide (now ≤ interaction.expiresAtMs))) &&
    (decide (kind = .refresh) || (!e.unknown &&
      (decide (kind ≠ .submit) || decide (form.baseline = e.snapshot.baseline)) &&
      decide (e.snapshot.phase ≠ .submitting) && decide (e.snapshot.phase ≠ .unknown)))

def sends (e : Execution) (disposed : Bool) (form : Form) (now : Int) (kind : EventKind) (answer : Option String) : Bool :=
  can e disposed form now kind && (decide (kind ≠ .submit) || form.valid) &&
    (decide (kind ≠ .answer) ||
      e.snapshot.interaction.any fun interaction => answer.any fun given => interaction.options.contains given)

def Execution.fail (e : Execution) (kind : EventKind) : Execution := e.setUnknown (decide (kind ≠ .refresh) || e.unknown)

def Execution.reject (e : Execution) : Execution :=
  { e.setUnknown false with
    snapshot := { e.snapshot with
      phase := .denied
      allowed := e.snapshot.allowed.filter fun action => decide (action = .refresh) || decide (action = .cancel) } }

/-- The end of an event. -/
def Execution.settle (scope : OperationScope) (e : Execution) (kind : EventKind) (outcome : Outcome) : Execution :=
  let settled := match outcome with
    | .snapshot next => match e.merge scope next false with
      | some (merged, true) => merged.setUnknown (decide (merged.snapshot.phase = Phase.unknown))
      | _ => e.fail kind
    | .rejected => e.reject
    | .failed => e.fail kind
  { settled with busy := false }

structure Controller where
  generation : Nat
  disposed : Bool
  deriving DecidableEq

structure Pending where
  generation : Nat
  kind : EventKind
  deriving DecidableEq

/-- The drafts of the application and the controllers of one scope. -/
structure System where
  generation : Nat
  execution : Option Execution
  controllers : List Controller
  pending : List Pending
  deriving DecidableEq

def System.empty : System := ⟨0, none, [], []⟩

inductive Label where
  | create (initial : OperationSnapshot)
  | act (controller : Nat) (kind : EventKind) (answer : Option String) (form : Form) (now : Int)
  | reply (act : Pending) (outcome : Outcome)
  | observe (controller : Nat) (snapshot : Option OperationSnapshot) (queried : Bool)
  | update (controller : Nat) (snapshot : Option OperationSnapshot)
  | invalidate (controller : Nat)
  | dispose (controller : Nat)
  | clear

section Steps
variable (scope : OperationScope) (s : System)

/-- A new controller shares the execution of its scope. -/
def System.create (initial : OperationSnapshot) : Option System :=
  if initial.scope ≠ scope then none
  else
    let e := s.execution.getD ⟨initial, false, false, -1⟩
    let first := if initial.revision < e.snapshot.revision then e.snapshot else initial
    (e.merge scope (some first) false).map fun merged =>
      { s with execution := some merged.1, controllers := s.controllers ++ [⟨s.generation, false⟩] }

def System.shared (controller : Controller) : Option Execution :=
  if controller.generation = s.generation then s.execution else none

def System.act (c : Controller) (kind : EventKind) (answer : Option String) (form : Form) (now : Int) : Option System :=
  (s.shared c).bind fun e =>
    if sends e c.disposed form now kind answer then
      some { s with execution := some { e with busy := true }, pending := s.pending ++ [⟨c.generation, kind⟩] }
    else none

/-- A reply that comes after the drafts were cleared changes nothing. -/
def System.reply (act : Pending) (outcome : Outcome) : Option System :=
  if act ∈ s.pending then
    let t := { s with pending := s.pending.erase act }
    some (if act.generation = s.generation then
        { t with execution := s.execution.map fun e => e.settle scope act.kind outcome }
      else t)
  else none

/-- A snapshot that cannot be merged leaves the outcome unknown. -/
def System.observe (c : Controller) (snapshot : Option OperationSnapshot) (queried : Bool) : System :=
  if c.disposed then s
  else if c.generation ≠ s.generation then s
  else { s with execution := s.execution.map fun e =>
    match e.merge scope snapshot queried with
    | some (merged, _) => merged
    | none => e.setUnknown true }

def System.update (c : Controller) (snapshot : Option OperationSnapshot) : System :=
  if c.disposed then s
  else if c.generation ≠ s.generation then s
  else { s with execution := s.execution.map fun e => ((e.merge scope snapshot false).map Prod.fst).getD e }

def System.invalidate (c : Controller) : System :=
  if c.disposed then s
  else if c.generation ≠ s.generation then s
  else { s with execution := s.execution.map fun e => e.setUnknown true }

def dispose (c : Controller) : Controller := { c with disposed := true }

def System.clear : System :=
  { s with generation := s.generation + 1, execution := none, controllers := s.controllers.map dispose }

def System.perform : Label → Option System
  | .create initial => s.create scope initial
  | .act i kind answer form now => s.controllers[i]?.bind fun c => s.act c kind answer form now
  | .reply act outcome => s.reply scope act outcome
  | .observe i snapshot queried => s.controllers[i]?.map fun c => s.observe scope c snapshot queried
  | .update i snapshot => s.controllers[i]?.map fun c => s.update scope c snapshot
  | .invalidate i => s.controllers[i]?.map fun c => s.invalidate c
  | .dispose i => s.controllers[i]?.map fun c => { s with controllers := s.controllers.set i (dispose c) }
  | .clear => some s.clear

def Step (s : System) (label : Label) (t : System) : Prop := s.perform scope label = some t

end Steps

end RssMdmAgent.OperationExecution
