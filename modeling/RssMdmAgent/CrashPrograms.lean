import RssMdmAgent.TransitionRuns
import Mathlib.Logic.Relation

set_option autoImplicit false

/-! # Programs of calls that can stop between any two of them -/

namespace RssMdmAgent.CrashPrograms
open TransitionRuns Relation

section Programs
variable {Call : Type} (Reply : Call → Type)

inductive Program (α : Type) where
  | done (value : α)
  | call (c : Call) (next : Reply c → Program α)

variable {Reply}

def Program.bind {α β : Type} : Program Reply α → (α → Program Reply β) → Program Reply β
  | .done value, f => f value
  | .call c next, f => .call c fun reply => (next reply).bind f

abbrev Fallible (Error : Type) (Out : Call → Type) (c : Call) : Type := Except Error (Out c)

def Work {Call : Type} (Error : Type) (Out : Call → Type) (α : Type) : Type := Program (Fallible Error Out) (Except Error α)

variable {Error : Type} {Out : Call → Type} {α β : Type}

def Work.ok (value : α) : Work Error Out α := Program.done (.ok value)

def Work.fail (error : Error) : Work Error Out α := Program.done (.error error)

def Work.andThen (w : Work Error Out α) (f : α → Work Error Out β) : Work Error Out β :=
  Program.bind w fun
    | .ok value => f value
    | .error error => Work.fail error

instance : Monad (Work Error Out) where
  pure := Work.ok
  bind := Work.andThen

def ask (c : Call) : Work Error Out (Out c) := Program.call c Program.done

def Work.settle (w : Work Error Out α) (f : Except Error α → Work Error Out β) : Work Error Out β := Program.bind w f

end Programs

structure Machine {Call : Type} (Reply : Call → Type) (State : Type) where
  perform : State → (c : Call) → Reply c → State → Prop
  interferes : State → State → Prop

section Safety
variable {Call State : Type} {Reply : Call → Type} (M : Machine Reply State)

def Machine.Stable (P : State → Prop) : Prop := ∀ s t, P s → M.interferes s t → P t

def Machine.Safe {α : Type} (I : State → Prop) : Program Reply α → (α → State → Prop) → State → Prop
  | .done value, Q, s => Q value s
  | .call c next, Q, s => ∀ t, ReflTransGen M.interferes s t → ∀ reply u, M.perform t c reply u →
    I u ∧ Machine.Safe I (next reply) Q u

variable {M} {I P : State → Prop} {α β : Type} {Q R : α → State → Prop} {s t : State}

theorem Machine.Stable.and {P' : State → Prop} (stable : M.Stable P) (stable' : M.Stable P') : M.Stable fun s => P s ∧ P' s :=
  fun s t h step => ⟨stable s t h.1 step, stable' s t h.2 step⟩

theorem Machine.Stable.steps (stable : M.Stable P) (h : P s) (steps : ReflTransGen M.interferes s t) : P t := by
  induction steps with
  | refl => exact h
  | tail _ step ih => exact stable _ _ ih step

theorem Machine.Safe.mono {p : Program Reply α} (safe : M.Safe I p Q s) (weaker : ∀ value t, Q value t → R value t) :
    M.Safe I p R s := by
  induction p generalizing s with
  | done value => exact weaker value s safe
  | call c next ih =>
    intro t steps reply u step
    obtain ⟨kept, later⟩ := safe t steps reply u step
    exact ⟨kept, ih reply later⟩

theorem Machine.Safe.bind {p : Program Reply α} {f : α → Program Reply β} {R : β → State → Prop} (safe : M.Safe I p Q s)
    (next : ∀ value t, Q value t → M.Safe I (f value) R t) : M.Safe I (p.bind f) R s := by
  induction p generalizing s with
  | done value => exact next value s safe
  | call c rest ih =>
    intro t steps reply u step
    obtain ⟨kept, later⟩ := safe t steps reply u step
    exact ⟨kept, ih reply later⟩

theorem Machine.Safe.of_call {c : Call} {next : Reply c → Program Reply α} (stable : M.Stable P) (h : P s)
    (step : ∀ t reply u, P t → M.perform t c reply u → I u ∧ M.Safe I (next reply) Q u) : M.Safe I (.call c next) Q s :=
  fun t steps reply u performed => step t reply u (stable.steps h steps) performed

theorem Machine.Safe.interferes {p : Program Reply α} (safe : M.Safe I p (fun _ _ => True) s) (step : M.interferes s t) :
    M.Safe I p (fun _ _ => True) t := by
  cases p with
  | done value => trivial
  | call c next => exact fun u steps => safe u (.head step steps)

end Safety

section Works
variable {Call State Error : Type} {Out : Call → Type} (M : Machine (Fallible Error Out) State) {α β : Type}

def Ends (I : State → Prop) (Q : α → State → Prop) : Except Error α → State → Prop
  | .ok value, s => Q value s
  | .error _, s => I s

def Machine.Works (I : State → Prop) (w : Work Error Out α) (Q : α → State → Prop) (s : State) : Prop := M.Safe I w (Ends I Q) s

variable {M} {I P : State → Prop} {Q : α → State → Prop} {R : β → State → Prop} {s : State}

theorem Machine.Works.ok {value : α} (h : Q value s) : M.Works I (Work.ok value) Q s := h

theorem Machine.Works.fail {error : Error} (h : I s) : M.Works I (Work.fail error) Q s := h

theorem Machine.Works.mono {w : Work Error Out α} {Q' : α → State → Prop} (works : M.Works I w Q s)
    (weaker : ∀ value t, Q value t → Q' value t) : M.Works I w Q' s := by
  refine Machine.Safe.mono works fun outcome t h => ?_
  cases outcome with
  | ok value => exact weaker value t h
  | error error => exact h

theorem Machine.Works.andThen {w : Work Error Out α} {f : α → Work Error Out β} (works : M.Works I w Q s)
    (next : ∀ value t, Q value t → M.Works I (f value) R t) : M.Works I (w.andThen f) R s := by
  refine Machine.Safe.bind works fun outcome t h => ?_
  cases outcome with
  | ok value => exact next value t h
  | error error => exact h

theorem Machine.Works.settle {w : Work Error Out α} {f : Except Error α → Work Error Out β} (works : M.Works I w Q s)
    (next : ∀ value t, Q value t → M.Works I (f (.ok value)) R t) (fails : ∀ error t, I t → M.Works I (f (.error error)) R t) :
    M.Works I (w.settle f) R s := by
  refine Machine.Safe.bind works fun outcome t h => ?_
  cases outcome with
  | ok value => exact next value t h
  | error error => exact fails error t h

theorem Machine.Works.ite {c : Prop} [Decidable c] {v w : Work Error Out α} (pos : c → M.Works I v Q s) (neg : ¬c → M.Works I w Q s) :
    M.Works I (if c then v else w) Q s := by
  split
  · exact pos ‹c›
  · exact neg ‹¬c›

theorem Machine.Works.ask {c : Call} {Q : Out c → State → Prop} (stable : M.Stable P) (h : P s)
    (step : ∀ t reply u, P t → M.perform t c reply u → I u ∧ ∀ value, reply = .ok value → Q value u) :
    M.Works I (CrashPrograms.ask c) Q s := by
  refine Machine.Safe.of_call stable h fun t reply u before performed => ?_
  obtain ⟨kept, value⟩ := step t reply u before performed
  refine ⟨kept, ?_⟩
  cases reply with
  | ok read => exact value read rfl
  | error error => exact kept

structure Machine.Ground {Reply : Call → Type} (M : Machine Reply State) (I P : State → Prop) : Prop where
  stable : M.Stable P
  inv : ∀ s, P s → I s

theorem Machine.Ground.and {Reply : Call → Type} {M : Machine Reply State} {I P P' : State → Prop} (g : M.Ground I P)
    (stable : M.Stable P') : M.Ground I fun s => P s ∧ P' s :=
  ⟨g.stable.and stable, fun s h => g.inv s h.1⟩

theorem Machine.Works.still (c : Call) (fact : State → Out c → Prop)
    (still : ∀ s reply t, M.perform s c reply t → t = s ∧ ∀ value, reply = .ok value → fact s value)
    (g : M.Ground I P) (h : P s) : M.Works I (CrashPrograms.ask c) (fun value t => P t ∧ fact t value) s := by
  refine Machine.Works.ask g.stable h fun t reply u before performed => ?_
  obtain ⟨rfl, tells⟩ := still t reply u performed
  exact ⟨g.inv _ before, fun value ok => ⟨before, tells value ok⟩⟩

theorem Machine.Works.write (c : Call) (after : State → State) {R : State → Prop}
    (writing : ∀ s reply t, M.perform s c reply t → t = after s ∨ (t = s ∧ ∀ value, reply ≠ .ok value))
    (g : M.Ground I P) (inv : ∀ t, R t → I t) (done : ∀ t, P t → R (after t)) (h : P s) :
    M.Works I (CrashPrograms.ask c) (fun _ t => R t) s := by
  refine Machine.Works.ask g.stable h fun t reply u before performed => ?_
  rcases writing t reply u performed with rfl | ⟨rfl, failed⟩
  · exact ⟨inv _ (done t before), fun _ _ => done t before⟩
  · exact ⟨g.inv _ before, fun value same => absurd same (failed value)⟩

end Works

/-! ## What a program can reach -/

section Completion
variable {Call State Error : Type} {Reply : Call → Type} {Out : Call → Type} {α β : Type}

/-- Some replies and some interference let a program end with a value in a state. -/
inductive Machine.Completes (M : Machine Reply State) : Program Reply α → State → α → State → Prop where
  | done {value : α} {s : State} : Completes M (.done value) s value s
  | call {c : Call} {next : Reply c → Program Reply α} {reply : Reply c} {s t u : State} {value : α} (h : M.perform s c reply t)
      (rest : Completes M (next reply) t value u) : Completes M (.call c next) s value u
  | interfere {p : Program Reply α} {s t u : State} {value : α} (h : M.interferes s t) (rest : Completes M p t value u) :
      Completes M p s value u

theorem Machine.Completes.bind {M : Machine Reply State} {p : Program Reply α} {f : α → Program Reply β} {s t u : State} {a : α} {b : β}
    (first : M.Completes p s a t) (later : M.Completes (f a) t b u) : M.Completes (p.bind f) s b u := by
  induction first with
  | done => exact later
  | call h _ ih => exact .call h (ih later)
  | interfere h _ ih => exact .interfere h (ih later)

variable {M : Machine (Fallible Error Out) State} {s t u : State}

theorem Machine.Completes.andThen {w : Work Error Out α} {f : α → Work Error Out β} {a : α} {outcome : Except Error β}
    (first : M.Completes w s (.ok a) t) (later : M.Completes (f a) t outcome u) : M.Completes (w.andThen f) s outcome u :=
  Machine.Completes.bind first later

theorem Machine.Completes.pos {c : Prop} [Decidable c] {v w : Work Error Out α} {outcome : Except Error α} (holds : c)
    (completes : M.Completes v s outcome t) : M.Completes (if c then v else w) s outcome t :=
  (congrArg (fun w : Work Error Out α => M.Completes w s outcome t) (if_pos holds)).mpr completes

theorem Machine.Completes.neg {c : Prop} [Decidable c] {v w : Work Error Out α} {outcome : Except Error α} (fails : ¬c)
    (completes : M.Completes w s outcome t) : M.Completes (if c then v else w) s outcome t :=
  (congrArg (fun w : Work Error Out α => M.Completes w s outcome t) (if_neg fails)).mpr completes

theorem Machine.Completes.ask {c : Call} {value : Out c} (h : M.perform s c (.ok value) t) :
    M.Completes (CrashPrograms.ask c) s (.ok value) t := .call h .done

end Completion

/-! ## What a program brings about -/

section Totality
variable {Call State Error : Type} {Reply : Call → Type} {Out : Call → Type} {α β : Type}

def Machine.Ensures (M : Machine Reply State) : Program Reply α → (α → State → Prop) → State → Prop
  | .done value, Q, s => Q value s
  | .call c next, Q, s => (∃ reply t, M.perform s c reply t) ∧ ∀ reply t, M.perform s c reply t → M.Ensures (next reply) Q t

theorem Machine.Ensures.mono {M : Machine Reply State} {p : Program Reply α} {Q R : α → State → Prop} {s : State}
    (ensures : M.Ensures p Q s) (weaker : ∀ value t, Q value t → R value t) : M.Ensures p R s := by
  induction p generalizing s with
  | done value => exact weaker value s ensures
  | call c next ih => exact ⟨ensures.1, fun reply t step => ih reply (ensures.2 reply t step)⟩

theorem Machine.Ensures.bind {M : Machine Reply State} {p : Program Reply α} {f : α → Program Reply β} {Q : α → State → Prop}
    {R : β → State → Prop} {s : State} (ensures : M.Ensures p Q s) (next : ∀ value t, Q value t → M.Ensures (f value) R t) :
    M.Ensures (p.bind f) R s := by
  induction p generalizing s with
  | done value => exact next value s ensures
  | call c rest ih => exact ⟨ensures.1, fun reply t step => ih reply (ensures.2 reply t step)⟩

def Outcome (Q : α → State → Prop) (F : Error → State → Prop) : Except Error α → State → Prop
  | .ok value, s => Q value s
  | .error error, s => F error s

def Machine.Settles (M : Machine (Fallible Error Out) State) (w : Work Error Out α) (Q : α → State → Prop)
    (F : Error → State → Prop) (s : State) : Prop := M.Ensures w (Outcome Q F) s

variable {M : Machine (Fallible Error Out) State} {Q Q' : α → State → Prop} {R : β → State → Prop} {F F' : Error → State → Prop} {s : State}

theorem Machine.Settles.ok {value : α} (h : Q value s) : M.Settles (Work.ok value) Q F s := h

theorem Machine.Settles.fail {error : Error} (h : F error s) : M.Settles (Work.fail error) Q F s := h

theorem Machine.Settles.mono {w : Work Error Out α} (settles : M.Settles w Q F s) (value : ∀ v t, Q v t → Q' v t)
    (failure : ∀ f t, F f t → F' f t) : M.Settles w Q' F' s := by
  refine Machine.Ensures.mono settles fun outcome t h => ?_
  cases outcome with
  | ok v => exact value v t h
  | error f => exact failure f t h

theorem Machine.Settles.andThen {w : Work Error Out α} {f : α → Work Error Out β} (settles : M.Settles w Q F s)
    (next : ∀ value t, Q value t → M.Settles (f value) R F t) : M.Settles (w.andThen f) R F s := by
  refine Machine.Ensures.bind settles fun outcome t h => ?_
  cases outcome with
  | ok value => exact next value t h
  | error error => exact h

theorem Machine.Settles.settle {w : Work Error Out α} {f : Except Error α → Work Error Out β} (settles : M.Settles w Q F s)
    (next : ∀ value t, Q value t → M.Settles (f (.ok value)) R F' t) (fails : ∀ error t, F error t → M.Settles (f (.error error)) R F' t) :
    M.Settles (w.settle f) R F' s := by
  refine Machine.Ensures.bind settles fun outcome t h => ?_
  cases outcome with
  | ok value => exact next value t h
  | error error => exact fails error t h

theorem Machine.Settles.ite {c : Prop} [Decidable c] {v w : Work Error Out α} (pos : c → M.Settles v Q F s) (neg : ¬c → M.Settles w Q F s) :
    M.Settles (if c then v else w) Q F s := by
  split
  · exact pos ‹c›
  · exact neg ‹¬c›

theorem Machine.Settles.ask {c : Call} {Q : Out c → State → Prop} (answered : ∃ reply t, M.perform s c reply t)
    (step : ∀ reply t, M.perform s c reply t → ∃ value, reply = .ok value ∧ Q value t) : M.Settles (CrashPrograms.ask c) Q F s := by
  refine ⟨answered, fun reply t performed => ?_⟩
  obtain ⟨value, rfl, h⟩ := step reply t performed
  exact h

end Totality

/-! ## Runs -/

structure Host {Call : Type} (Reply : Call → Type) (State : Type) where
  state : State
  running : Option (Program Reply Unit)

/-- What can happen: a program starts, performs its next call, ends, or stops, or something interferes. -/
inductive Move (Job : Type) (Call : Type) where
  | start (job : Job)
  | act (c : Call)
  | finish
  | crash
  | interfere

section Hosts
variable {Call State Job : Type} {Reply : Call → Type} (M : Machine Reply State)
  (starts : State → Job → State → Program Reply Unit → Prop)

inductive HostStep : Host Reply State → Move Job Call → Host Reply State → Prop where
  | start {s t : State} {job : Job} {p : Program Reply Unit} (h : starts s job t p) : HostStep ⟨s, none⟩ (.start job) ⟨t, some p⟩
  | act {s t : State} {c : Call} {next : Reply c → Program Reply Unit} {reply : Reply c} (h : M.perform s c reply t) :
      HostStep ⟨s, some (.call c next)⟩ (.act c) ⟨t, some (next reply)⟩
  | finish {s : State} {value : Unit} : HostStep ⟨s, some (.done value)⟩ .finish ⟨s, none⟩
  | crash {s : State} {p : Program Reply Unit} : HostStep ⟨s, some p⟩ .crash ⟨s, none⟩
  | interfere {s t : State} {running : Option (Program Reply Unit)} (h : M.interferes s t) :
      HostStep ⟨s, running⟩ .interfere ⟨t, running⟩

variable {M starts} {I : State → Prop} {s t : Host Reply State} {moves : List (Move Job Call)}

theorem Machine.Completes.runs (starts : State → Job → State → Program Reply Unit → Prop) {p : Program Reply Unit} {value : Unit}
    {s t : State} (completes : M.Completes p s value t) : ∃ moves, Runs (HostStep M starts) ⟨s, some p⟩ moves ⟨t, none⟩ := by
  induction completes with
  | done => exact ⟨_, .one .finish⟩
  | call h _ ih =>
    obtain ⟨moves, run⟩ := ih
    exact ⟨_, (Runs.one (.act h)).trans run⟩
  | interfere h _ ih =>
    obtain ⟨moves, run⟩ := ih
    exact ⟨_, (Runs.one (.interfere h)).trans run⟩

structure Guarded (M : Machine Reply State) (I : State → Prop) (s : Host Reply State) : Prop where
  holds : I s.state
  safe : ∀ p, s.running = some p → M.Safe I p (fun _ _ => True) s.state

theorem step_guarded {move : Move Job Call} (stable : M.Stable I)
    (begins : ∀ s job t p, I s → starts s job t p → I t ∧ M.Safe I p (fun _ _ => True) t)
    (g : Guarded M I s) (h : HostStep M starts s move t) : Guarded M I t := by
  obtain ⟨holds, safe⟩ := g
  cases h with
  | start h =>
    obtain ⟨kept, runs⟩ := begins _ _ _ _ holds h
    exact ⟨kept, fun p same => Option.some.inj same ▸ runs⟩
  | act h =>
    obtain ⟨kept, runs⟩ := safe _ rfl _ .refl _ _ h
    exact ⟨kept, fun p same => Option.some.inj same ▸ runs⟩
  | finish | crash => exact ⟨holds, fun p same => by cases same⟩
  | interfere h => exact ⟨stable _ _ holds h, fun p same => (safe p same).interferes h⟩

theorem run_guarded (stable : M.Stable I)
    (begins : ∀ s job t p, I s → starts s job t p → I t ∧ M.Safe I p (fun _ _ => True) t) {start : State} (init : I start)
    (run : Runs (HostStep M starts) ⟨start, none⟩ moves t) : Guarded M I t :=
  run.invariant (Guarded M I) ⟨init, fun p same => by cases same⟩ fun _ _ _ g h => step_guarded stable begins g h

end Hosts

end RssMdmAgent.CrashPrograms
