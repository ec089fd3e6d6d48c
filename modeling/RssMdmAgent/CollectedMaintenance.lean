import RssMdmAgent.CollectedSnapshots

set_option autoImplicit false

/-! # The maintenance of the projections -/

namespace RssMdmAgent.CollectedMaintenance
open OrderedRows CollectedValues ProjectionStore CollectedSnapshots

section Keeping
variable {σ ε α β : Type}

abbrev Program (σ ε α : Type) := ExceptT ε (StateM σ) α

def Keeps (R : σ → σ → Prop) (m : Program σ ε α) : Prop := ∀ s, R s (m.run.run s).2

variable {R : σ → σ → Prop}

theorem Keeps.pure (refl : ∀ s, R s s) (a : α) : Keeps R (Pure.pure a : Program σ ε α) := refl

theorem Keeps.throw (refl : ∀ s, R s s) (f : ε) : Keeps R (MonadExcept.throw f : Program σ ε α) := refl

theorem Keeps.get (refl : ∀ s, R s s) : Keeps R (MonadState.get : Program σ ε σ) := refl

theorem Keeps.bind (transitive : ∀ s t u, R s t → R t u → R s u) {m : Program σ ε α} {f : α → Program σ ε β}
    (first : Keeps R m) (then_ : ∀ a, Keeps R (f a)) : Keeps R (m >>= f) := by
  intro s
  have here := first s
  show R s ((ExceptT.bindCont f =<< m.run).run s).2
  rcases ran : (m.run.run s) with ⟨outcome, t⟩
  rw [ran] at here
  have split : ((ExceptT.bindCont f =<< m.run).run s) = (ExceptT.bindCont f outcome).run t := by
    show (m.run >>= ExceptT.bindCont f).run s = _
    rw [StateT.run_bind]
    show (ExceptT.bindCont f (m.run.run s).1).run (m.run.run s).2 = _
    rw [ran]
  rw [split]
  cases outcome with
  | ok a => exact transitive _ _ _ here (then_ a t)
  | error f => exact here

def attempt (x : Except ε α) : Program σ ε α := ExceptT.mk (Pure.pure x)

theorem Keeps.attempt (refl : ∀ s, R s s) (x : Except ε α) : Keeps R (attempt x : Program σ ε α) := refl

theorem Keeps.forM (refl : ∀ s, R s s) (transitive : ∀ s t u, R s t → R t u → R s u) {f : α → Program σ ε PUnit}
    (each : ∀ a, Keeps R (f a)) : ∀ list : List α, Keeps R (list.forM f)
  | [] => Keeps.pure refl _
  | a :: rest => Keeps.bind transitive (each a) fun _ => Keeps.forM refl transitive each rest

end Keeping

section Maintenance
variable {V R : Type} (e : Encoding V)

structure Data (V R : Type) where
  store : CollectedStore (Record V R)
  pinned : List String
  localReads : List String

abbrev Maintenance (V R : Type) := Program (Data V R) Error

/-- The state of the world that maintenance asks about. -/
structure World (R : Type) where
  /-- The identity of a subject's settings in a session. -/
  settingsId : String → String → Except Error String
  /-- The plan belongs to an account that no longer answers to it. -/
  hidden : R → Bool
  contexts : List (String × String × String)
  activeInputs : List String
  activePolicies : List String

def remove (key : String) : Maintenance V R Unit := do
  let d ← get
  let store ← attempt (d.store.remove key)
  set { d with store }

/-- All rows under a prefix in key order, their keys without the namespace; the pages of 128 that the code reads make up
this list, since nothing is written between them. -/
def scan (part : String) : Maintenance V R (List (String × Record V R)) := do
  let d ← get
  let full ← attempt (d.store.key part)
  let rows := (d.store.table.select fun row => hasPrefix full row.1 && decide (full < row.1)).insertionSort
    fun a b => a.1 ≤ b.1
  if rows.any fun row => decide (d.store.bytes < row.2.size e) then throw .storage
  pure (rows.map fun row => (String.ofList (row.1.toList.drop d.store.space.toList.length), row.2))

def maintainSettings (w : World R) : Maintenance V R Unit := do
  let current ← attempt (w.contexts.mapM fun context => do
    let id ← w.settingsId context.1 context.2.1
    pure ("settings/" ++ id ++ "/"))
  let rows ← scan e "settings/"
  rows.forM fun row => if current.any (hasPrefix · row.1) then pure () else remove row.1

def protectedQueries : Maintenance V R (List String) := do
  let rows ← scan e "request/"
  attempt (rows.mapM fun row => match row.2 with
    | .association query _ => pure query.id
    | _ => throw .protocol)

/-- The published policies of contexts that no longer exist go. -/
def currentPublished (w : World R) : List (String × Record V R) → Maintenance V R (List (String × Nat))
  | [] => pure []
  | (key, .published subject session context seenAt _) :: rest =>
    if w.contexts.contains (subject, session, context) then do
      let others ← currentPublished w rest
      pure ((key, seenAt) :: others)
    else do
      remove key
      currentPublished w rest
  | _ :: _ => throw .protocol

def dropPublished (kept : List String) : Nat → List (String × Nat) → Maintenance V R Unit
  | 0, _ => pure ()
  | _, [] => pure ()
  | excess + 1, (key, _) :: rest =>
    if kept.any fun id => decide (key = "published/" ++ id) then dropPublished kept (excess + 1) rest
    else do
      remove key
      dropPublished kept excess rest

def byAge {α : Type} (age : α → Nat) (list : List α) : List α := list.insertionSort fun a b => age a ≤ age b

def removeQuery (key id : String) : Maintenance V R Unit := do
  remove key
  remove (latestKey id)

/-- Hidden definitions lose their grants, and go unless a request names them; the rest that nothing protects is listed. -/
def visibleDefinitions (w : World R) (kept : List String) :
    List (String × Record V R) → Maintenance V R (List (String × Nat × String))
  | [] => pure []
  | (key, .definition reference read seenAt _) :: rest =>
    if w.hidden read then do
      modify fun d => { d with
        pinned := d.pinned.filter fun id => decide (id ≠ reference.id)
        localReads := d.localReads.filter fun id => decide (id ≠ reference.id) }
      if kept.contains reference.id then pure () else removeQuery key reference.id
      visibleDefinitions w kept rest
    else do
      let d ← get
      let others ← visibleDefinitions w kept rest
      if d.pinned.contains reference.id || kept.contains reference.id || w.activePolicies.contains reference.id
      then pure others
      else pure ((key, seenAt, reference.id) :: others)
  | _ :: _ => throw .protocol

def observedTimes (w : World R) : List (String × Record V R) → Maintenance V R (List (String × Nat × String))
  | [] => pure []
  | (key, .observed reference _) :: rest => do
    if w.activePolicies.contains reference.id then observedTimes w rest
    else do
      let d ← get
      let value ← attempt (latest e d.store (latestKey reference.id))
      let others ← observedTimes w rest
      pure ((key, ((value.bind (·.collectedAt)).getD 0), reference.id) :: others)
  | _ :: _ => throw .protocol

def seenAt : Record V R → Nat
  | .published _ _ _ seenAt _ | .definition _ _ seenAt _ | .policyRead seenAt _ => seenAt
  | _ => 0

structure Candidate where
  key : String
  at_ : Nat
  bytes : Nat
  id : String

def prefixes : List String := ["definition/", "published/", "observed/", "policy-read/"]

/-- The bytes of the metadata and what of it nothing protects. -/
def reclaimable (w : World R) (kept : List String) : List String → Maintenance V R (Nat × List Candidate)
  | [] => pure (0, [])
  | part :: rest => do
    let d ← get
    let rows ← scan e part
    let (total, others) ← reclaimable w kept rest
    let own := rows.filterMap fun row =>
      let id := String.ofList (row.1.toList.drop part.toList.length)
      if kept.contains id || d.pinned.contains id || w.activePolicies.contains id then none
      else some ⟨row.1, seenAt row.2, row.2.size e, id⟩
    pure ((rows.map fun row => row.2.size e).sum + total, own ++ others)

def records : Maintenance V R Nat := do
  let d ← get
  pure (d.store.own d.store.table).length

/-- Candidates go until the metadata takes half of the bytes and leaves room for records. -/
def reclaim (target : Nat) : Nat → Nat → List Candidate → Maintenance V R Unit
  | _, _, [] => pure ()
  | total, count, c :: rest => do
    let d ← get
    if total ≤ d.store.bytes / 2 ∧ count ≤ target then pure ()
    else do
      removeQuery c.key c.id
      let count ← records
      reclaim target (total - c.bytes) count rest

def inputRequests : Maintenance V R (List String) := do
  let rows ← scan e "input/"
  pure (rows.map fun row => String.ofList (row.1.toList.drop "input/".toList.length))

def maintain (w : World R) : Maintenance V R Unit := do
  maintainSettings e w
  let kept ← protectedQueries e
  let rows ← scan e "published/"
  let published ← currentPublished w rows
  dropPublished kept (published.length - 128) (byAge Prod.snd published)
  let rows ← scan e "definition/"
  let definitions ← visibleDefinitions w kept rows
  ((byAge (·.2.1) definitions).take (definitions.length - 64)).forM fun d => removeQuery d.1 d.2.2
  let rows ← scan e "observed/"
  let observed ← observedTimes e w rows
  ((byAge (·.2.1) observed).take (observed.length - 32)).forM fun d => removeQuery d.1 d.2.2
  let requests ← inputRequests e
  requests.forM fun request => if w.activeInputs.contains request then pure () else remove (inputKey request)
  let (total, candidates) ← reclaimable e w kept prefixes
  let d ← get
  let count ← records
  reclaim (d.store.records - max (d.store.records / 4) 8) total count (byAge Candidate.at_ candidates)

end Maintenance

section Facts
variable {V R : Type} {e : Encoding V} {w : World R}

structure Shrinks (d d' : Data V R) : Prop where
  space : d'.store.space = d.store.space
  limits : d'.store.bytes = d.store.bytes ∧ d'.store.records = d.store.records
  rows : ∀ row ∈ d'.store.table.entries, row ∈ d.store.table.entries

theorem Shrinks.refl (d : Data V R) : Shrinks d d := ⟨rfl, ⟨rfl, rfl⟩, fun _ mem => mem⟩

theorem Shrinks.trans (d₁ d₂ d₃ : Data V R) (first : Shrinks d₁ d₂) (second : Shrinks d₂ d₃) : Shrinks d₁ d₃ :=
  ⟨second.space.trans first.space, ⟨second.limits.1.trans first.limits.1, second.limits.2.trans first.limits.2⟩,
    fun row mem => first.rows row (second.rows row mem)⟩

theorem remove_shrinks (key : String) : Keeps Shrinks (remove key : Maintenance V R Unit) := by
  intro d
  have run : ((remove key : Maintenance V R Unit).run.run d) =
      ((attempt (d.store.remove key) >>= fun store => set { d with store } : Maintenance V R Unit).run.run d) := rfl
  rw [run]
  cases removed : d.store.remove key with
  | error f => exact Shrinks.refl d
  | ok store =>
    show Shrinks d { d with store }
    unfold CollectedStore.remove at removed
    cases named : d.store.key key with
    | error f =>
      rw [named] at removed
      cases removed
    | ok k =>
      rw [named] at removed
      cases removed
      exact ⟨rfl, ⟨rfl, rfl⟩, fun row mem => (mem_delete.mp mem).1⟩

theorem scan_shrinks (part : String) : Keeps Shrinks (scan e part : Maintenance V R _) := by
  unfold scan
  refine .bind Shrinks.trans (.get Shrinks.refl) fun d => ?_
  refine .bind Shrinks.trans (.attempt Shrinks.refl _) fun full => ?_
  simp only
  split
  · exact .bind Shrinks.trans (.throw Shrinks.refl _) fun _ => .pure Shrinks.refl _
  · exact .pure Shrinks.refl _

theorem removeQuery_shrinks (key id : String) : Keeps Shrinks (removeQuery key id : Maintenance V R Unit) :=
  .bind Shrinks.trans (remove_shrinks key) fun _ => remove_shrinks _

theorem removals_shrink {α : Type} {f : α → Maintenance V R Unit} (each : ∀ a, Keeps Shrinks (f a)) (list : List α) :
    Keeps Shrinks (list.forM f) := .forM Shrinks.refl Shrinks.trans each list

theorem currentPublished_shrinks : ∀ rows : List (String × Record V R), Keeps Shrinks (currentPublished w rows)
  | [] => .pure Shrinks.refl _
  | (key, record) :: rest => by
    cases record with
    | published subject session context seenAt bytes =>
      unfold currentPublished
      split
      · exact .bind Shrinks.trans (currentPublished_shrinks rest) fun _ => .pure Shrinks.refl _
      · exact .bind Shrinks.trans (remove_shrinks key) fun _ => currentPublished_shrinks rest
    | _ => exact .throw Shrinks.refl _

theorem dropPublished_shrinks (kept : List String) : ∀ (excess : Nat) (list : List (String × Nat)),
    Keeps Shrinks (dropPublished kept excess list : Maintenance V R Unit)
  | 0, _ => by
    unfold dropPublished
    exact .pure Shrinks.refl _
  | excess + 1, [] => .pure Shrinks.refl _
  | excess + 1, (key, _) :: rest => by
    unfold dropPublished
    split
    · exact dropPublished_shrinks kept (excess + 1) rest
    · exact .bind Shrinks.trans (remove_shrinks key) fun _ => dropPublished_shrinks kept excess rest

theorem visibleDefinitions_shrinks (kept : List String) : ∀ rows : List (String × Record V R),
    Keeps Shrinks (visibleDefinitions w kept rows)
  | [] => .pure Shrinks.refl _
  | (key, record) :: rest => by
    cases record with
    | definition reference read seenAt bytes =>
      unfold visibleDefinitions
      split
      · refine .bind Shrinks.trans (fun d => ⟨rfl, ⟨rfl, rfl⟩, fun _ mem => mem⟩) fun _ => ?_
        simp only
        split
        · exact visibleDefinitions_shrinks kept rest
        · exact .bind Shrinks.trans (removeQuery_shrinks _ _) fun _ => visibleDefinitions_shrinks kept rest
      · refine .bind Shrinks.trans (.get Shrinks.refl) fun d => ?_
        refine .bind Shrinks.trans (visibleDefinitions_shrinks kept rest) fun others => ?_
        split <;> exact .pure Shrinks.refl _
    | _ => exact .throw Shrinks.refl _

theorem observedTimes_shrinks : ∀ rows : List (String × Record V R), Keeps Shrinks (observedTimes e w rows)
  | [] => .pure Shrinks.refl _
  | (key, record) :: rest => by
    cases record with
    | observed reference bytes =>
      unfold observedTimes
      split
      · exact observedTimes_shrinks rest
      · refine .bind Shrinks.trans (.get Shrinks.refl) fun d => ?_
        refine .bind Shrinks.trans (.attempt Shrinks.refl _) fun value => ?_
        exact .bind Shrinks.trans (observedTimes_shrinks rest) fun _ => .pure Shrinks.refl _
    | _ => exact .throw Shrinks.refl _

theorem reclaimable_shrinks (kept : List String) : ∀ parts : List String,
    Keeps Shrinks (reclaimable e w kept parts : Maintenance V R _)
  | [] => .pure Shrinks.refl _
  | part :: rest => by
    unfold reclaimable
    refine .bind Shrinks.trans (.get Shrinks.refl) fun d => ?_
    refine .bind Shrinks.trans (scan_shrinks part) fun rows => ?_
    exact .bind Shrinks.trans (reclaimable_shrinks kept rest) fun _ => .pure Shrinks.refl _

theorem records_shrinks : Keeps Shrinks (records : Maintenance V R Nat) :=
  .bind Shrinks.trans (.get Shrinks.refl) fun _ => .pure Shrinks.refl _

theorem reclaim_shrinks (target : Nat) : ∀ (list : List Candidate) (total count : Nat),
    Keeps Shrinks (reclaim target total count list : Maintenance V R Unit)
  | [], _, _ => .pure Shrinks.refl _
  | c :: rest, total, count => by
    unfold reclaim
    refine .bind Shrinks.trans (.get Shrinks.refl) fun d => ?_
    split
    · exact .pure Shrinks.refl _
    · refine .bind Shrinks.trans (removeQuery_shrinks _ _) fun _ => ?_
      exact .bind Shrinks.trans records_shrinks fun _ => reclaim_shrinks target rest _ _

theorem maintain_shrinks : Keeps Shrinks (maintain e w : Maintenance V R Unit) := by
  unfold maintain
  refine .bind Shrinks.trans ?settings fun _ => ?_
  case settings =>
    unfold maintainSettings
    refine .bind Shrinks.trans (.attempt Shrinks.refl _) fun current => ?_
    refine .bind Shrinks.trans (scan_shrinks _) fun rows => removals_shrink (fun row => ?_) _
    split
    · exact .pure Shrinks.refl _
    · exact remove_shrinks _
  refine .bind Shrinks.trans (.bind Shrinks.trans (scan_shrinks _) fun _ => .attempt Shrinks.refl _) fun kept => ?_
  refine .bind Shrinks.trans (scan_shrinks _) fun rows => ?_
  refine .bind Shrinks.trans (currentPublished_shrinks rows) fun published => ?_
  refine .bind Shrinks.trans (dropPublished_shrinks _ _ _) fun _ => ?_
  refine .bind Shrinks.trans (scan_shrinks _) fun rows => ?_
  refine .bind Shrinks.trans (visibleDefinitions_shrinks _ rows) fun definitions => ?_
  refine .bind Shrinks.trans (removals_shrink (fun d => removeQuery_shrinks _ _) _) fun _ => ?_
  refine .bind Shrinks.trans (scan_shrinks _) fun rows => ?_
  refine .bind Shrinks.trans (observedTimes_shrinks rows) fun observed => ?_
  refine .bind Shrinks.trans (removals_shrink (fun d => removeQuery_shrinks _ _) _) fun _ => ?_
  refine .bind Shrinks.trans (.bind Shrinks.trans (scan_shrinks _) fun _ => .pure Shrinks.refl _) fun requests => ?_
  refine .bind Shrinks.trans (removals_shrink (fun request => ?_) _) fun _ => ?_
  · split
    · exact .pure Shrinks.refl _
    · exact remove_shrinks _
  refine .bind Shrinks.trans (reclaimable_shrinks _ _) fun metadata => ?_
  refine .bind Shrinks.trans (.get Shrinks.refl) fun d => ?_
  exact .bind Shrinks.trans records_shrinks fun _ => reclaim_shrinks _ _ _ _

end Facts

end RssMdmAgent.CollectedMaintenance
