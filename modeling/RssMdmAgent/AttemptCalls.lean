import RssMdmAgent.AttemptRecords
import RssMdmAgent.ClientClaims

set_option autoImplicit false

/-! # What each call does to the records of remote attempts -/

namespace RssMdmAgent.AttemptCalls
open OrderedRows ClientStore RemoteAttempts AttemptRecords
open ContentTransfers (Uuid Error)
open ContractPlan (bind_ok)

/-- The calls of the agent on its client. Checked inputs of other modules are given as they come out. -/
inductive Call where
  | claim (c : ClaimCall)
  | received (offer : SignedTask)
  | requestStart (offer : SignedTask) (materials : Except Error Unit)
  | startUserInitiated (offer : SignedTask) (materials : Except Error Unit)
  | recoverStart (task : Uuid) (materials : Except Error Unit)
  | reserveAssociation (start : Start) (request digest actor : String)
  | bindLocalAttempt (b : Binding) (attempt : Option String)
  | freezeResult (b : Binding) (candidate : String) (events : List String) (event : TaskEvent)
  | frozenResultAck (f : FrozenResult)
  | sendResult (f : FrozenResult)
  | acknowledgedResult (b : Binding)
  | retireResult (ack : ResultAck)
  | releaseResult (ack : ResultAck)
  | freezeAbandonment (task : Uuid)
  | sendAbandonment (f : FrozenAbandonment)
  | releaseAbandonment (ack : AbandonmentAck)

def Fits (ack : ResultAck) : Prop := ∀ f, ack.result = some f → f.association = ack.association

section Calls
variable [ResultWire] (cfg : Config) (s : Store) (x : Exchange)

def orSame {α : Type} (s : Store) : Except Error (Store × α) → Store
  | .ok (t, _) => t
  | .error _ => s

/-- The store after a call, and the acknowledgement of a result that it issues. -/
def run : Call → Store × Option ResultAck
  | .claim c => ((s.claimTask cfg c).1, none)
  | .received offer => ((received cfg s x offer).1, none)
  | .requestStart offer materials => ((requestStart cfg s x offer materials).1, none)
  | .startUserInitiated offer materials => ((startInner cfg s x offer materials).1, none)
  | .recoverStart task materials => ((recoverStart cfg s x task materials).1, none)
  | .reserveAssociation start request digest actor => (orSame s (reserveAssociation cfg s x start request digest actor), none)
  | .bindLocalAttempt b attempt => (orSame s (bindLocalAttempt s x b attempt), none)
  | .freezeResult b candidate events event => ((freezeResult cfg s x b candidate events event).1, none)
  | .frozenResultAck f => (s, (frozenResultAck s x f).toOption.join)
  | .sendResult f => ((sendResult s x f).1, (sendResult s x f).2.toOption)
  | .acknowledgedResult b => (s, (acknowledgedResult s x 0 b).toOption.join)
  | .retireResult ack => (match retireResult s x ack with
    | .ok t => t
    | .error _ => s, none)
  | .releaseResult ack => ((releaseResult cfg s x ack).1, none)
  | .freezeAbandonment task => (orSame s (freezeAbandonment cfg s x task), none)
  | .sendAbandonment f => ((sendAbandonment s x f).1, none)
  | .releaseAbandonment ack => ((releaseAbandonment s x ack).1, none)

def Stored (offer : SignedTask) : Prop := ∃ row, s.tasks.get offer.payload.taskId = some row ∧ row.body = offer

def Handed : Call → Prop
  | .received offer | .requestStart offer _ | .startUserInitiated offer _ => Stored s offer
  | .retireResult ack | .releaseResult ack => Fits ack
  | _ => True

end Calls

section Checks
variable [ResultWire] {cfg : Config} {s t : Store} {x : Exchange} {b : Binding} {u : Unit} {place : Nat} {task attempt : Uuid}
  {signed offer : SignedTask}

omit [ResultWire] in
theorem touch_ok {access : Touch} : x.touch access = .ok u ↔ x.io access = true := by
  unfold Exchange.touch
  cases x.io access <;> simp

omit [ResultWire] in
theorem storedOffer_ok (got : storedOffer s x place task = .ok signed) :
    Stored s signed ∧ signed.payload.taskId = task ∧ (records s).attempt task = some signed.payload.attemptId := by
  unfold storedOffer at got
  simp only [bind_ok, touch_ok, exists_const] at got
  obtain ⟨-, got⟩ := got
  split at got
  · cases got
  · rename_i row found
    split at got
    · cases got
    · rename_i same
      cases got
      rw [ne_eq, not_not] at same
      refine ⟨⟨row, same ▸ found, rfl⟩, same, ?_⟩
      unfold Records.attempt records
      rw [found]
      rfl

omit [ResultWire] in
theorem stored_attempt (stored : Stored s offer) : (records s).attempt offer.payload.taskId = some offer.payload.attemptId := by
  obtain ⟨row, found, rfl⟩ := stored
  unfold Records.attempt records
  rw [found]
  rfl

omit [ResultWire] in
theorem association_ok {found : Option Binding} (got : association s x place task = .ok found) : found = s.bindings.get task := by
  unfold association at got
  simp only [bind_ok, touch_ok, exists_const] at got
  cases got.2
  rfl

omit [ResultWire] in
theorem checkAssociation_ok (checked : checkAssociation s x place b = .ok u) :
    s.bindings.get b.task = some b ∧ (records s).attempt b.task = some b.attempt := by
  unfold checkAssociation at checked
  obtain ⟨current, got, checked⟩ := bind_ok.mp checked
  cases association_ok got
  split at checked
  · cases checked
  · rename_i same
    obtain ⟨offer, got, checked⟩ := bind_ok.mp checked
    split at checked
    · cases checked
    · rename_i attempt
      rw [ne_eq, not_not] at same attempt
      exact ⟨same, attempt ▸ (storedOffer_ok got).2.2⟩

omit [ResultWire] in
theorem sourceRow_none (none : sourceRow s task = none) : (records s).Delivered task := by
  intro row mem same
  have absent := List.find?_eq_none.mp none row mem
  simpa [same] using absent

omit [ResultWire] in
theorem pendingResult_none (got : pendingResult s x place b = .ok none) : (records s).Delivered b.task := by
  unfold pendingResult at got
  simp only [bind_ok, touch_ok, exists_const] at got
  obtain ⟨-, -, got⟩ := got
  split at got
  · exact sourceRow_none ‹_›
  · split at got <;> cases got.2

omit [ResultWire] in
theorem acknowledgedResult_none (got : acknowledgedResult s x place b = .ok none) : s.projections.get b.task = none := by
  unfold acknowledgedResult at got
  simp only [bind_ok, touch_ok, exists_const] at got
  obtain ⟨-, -, got⟩ := got
  cases found : s.projections.get b.task with
  | none => rfl
  | some row =>
    rw [found] at got
    dsimp only at got
    split at got <;> cases got.2

omit [ResultWire] in
theorem checkResult_ok {f : FrozenResult} {accepted : Bool} (checked : checkResult s x place f = .ok accepted) :
    ∃ row, s.requests.get f.key = some row ∧ row.task = f.association.task ∧ row.source = some f.events ∧
      row.body = f.request ∧ row.accepted = accepted ∧ (records s).attempt row.task = some f.association.attempt := by
  unfold checkResult at checked
  by_cases foreign : f.owner ≠ x.owner
  · rw [if_pos foreign] at checked
    cases checked
  rw [if_neg foreign] at checked
  simp only [bind_ok, touch_ok, exists_const] at checked
  obtain ⟨⟨⟩, associated, -, checked⟩ := checked
  split at checked
  · cases checked
  rename_i row found
  split at checked
  · cases checked
  rename_i same
  split at checked
  · cases checked
  rename_i events source
  split at checked
  · cases checked
  rename_i agree
  rw [not_or, ne_eq, not_not, ne_eq, not_not] at agree
  rw [ne_eq, not_not] at same
  cases checked
  exact ⟨row, found, same, agree.2 ▸ source, agree.1, rfl, same ▸ (checkAssociation_ok associated).2⟩

omit [ResultWire] in
theorem validateResultAck_ok {ack : ResultAck} (checked : validateResultAck s x place ack = .ok u) :
    (∃ p, s.projections.get ack.association.task = some p ∧ p.hash = ack.projection) ∧
      (records s).attempt ack.association.task = some ack.association.attempt ∧
      ∀ f, ack.result = some f → checkResult s x (place + 1) f = .ok true := by
  unfold validateResultAck at checked
  by_cases foreign : ack.owner ≠ x.owner
  · rw [if_pos foreign] at checked
    cases checked
  rw [if_neg foreign] at checked
  simp only [bind_ok, touch_ok, exists_const] at checked
  obtain ⟨⟨⟩, associated, -, checked⟩ := checked
  by_cases other : (s.projections.get ack.association.task).map (·.hash) ≠ some ack.projection
  · rw [if_pos other] at checked
    cases checked
  rw [if_neg other] at checked
  rw [ne_eq, not_not] at other
  refine ⟨Option.map_eq_some_iff.mp other, (checkAssociation_ok associated).2, ?_⟩
  intro f result
  rw [result] at checked
  obtain ⟨accepted, stored, checked⟩ := bind_ok.mp checked
  cases accepted with
  | true => exact stored
  | false => cases checked

end Checks

section Growth
variable [ResultWire] {cfg : Config} {s t : Store} {x : Exchange} {b : Binding} {task attempt : Uuid} {key : RequestKey}
  {event : TaskEvent} {request : TaskEventRequest} {offer : SignedTask}

theorem acceptRow_grown (s : Store) (key : RequestKey) : Grown (records s) (records (acceptRow s key)) := by
  unfold acceptRow
  split
  · exact .refl
  · rename_i row found
    have key : row.key = key := Rows.get_key found
    exact .single (.accept row (key ▸ found))

omit [ResultWire] in
theorem eventRequest_cases {source : Option (List String)}
    (made : eventRequest cfg s x key task attempt event source = .ok (t, request)) :
    t = s ∨ (s.requests.get key = none ∧ request.attemptId = attempt ∧
      t = { s with requests := s.requests.set ⟨key, task, source, request, false⟩ }) := by
  unfold eventRequest at made
  simp only [bind_ok, touch_ok, exists_const] at made
  obtain ⟨-, made⟩ := made
  split at made
  · split at made
    · cases made
    · cases made
      exact .inl rfl
  · rename_i absent
    simp only [bind_ok, touch_ok, exists_const] at made
    obtain ⟨-, made⟩ := made
    split at made
    · cases made
    · simp only [bind_ok, touch_ok, exists_const] at made
      obtain ⟨context, -, -, same⟩ := made
      cases same
      exact .inr ⟨absent, rfl, rfl⟩

theorem eventRequest_grown (made : eventRequest cfg s x key task attempt event none = .ok (t, request))
    (keyed : keyTask key = some task) (owned : (records s).attempt task = some attempt) :
    Grown (records s) (records t) := by
  rcases eventRequest_cases made with rfl | ⟨absent, same, rfl⟩
  · exact .refl
  · exact .single (.insert _ absent rfl keyed (same ▸ owned) nofun)

structure Chunked (s t : Store) : Prop where
  grown : Grown (records s) (records t)
  bindings : t.bindings = s.bindings
  projections : t.projections = s.projections
  delivered : ∀ {task}, (records s).Delivered task → (records t).Delivered task

theorem freezeChunks_chunked (chunks : List (Except Error OutputChunk)) : ∀ s, (records s).attempt task = some attempt →
    Chunked s (freezeChunks cfg x task attempt chunks s).1 := by
  induction chunks with
  | nil => exact fun s _ => ⟨.refl, rfl, rfl, id⟩
  | cons cut rest ih =>
    intro s owned
    cases cut with
    | error e => exact ⟨.refl, rfl, rfl, id⟩
    | ok chunk =>
      unfold freezeChunks
      split
      · exact ⟨.refl, rfl, rfl, id⟩
      · rename_i t request made
        have first : Chunked s t := by
          have grown := eventRequest_grown made rfl owned
          rcases eventRequest_cases made with rfl | ⟨-, -, rfl⟩
          · exact ⟨grown, rfl, rfl, id⟩
          · refine ⟨grown, rfl, rfl, ?_⟩
            intro other delivered row mem same
            rcases Rows.mem_set.mp mem with rfl | ⟨early, -⟩
            · rfl
            · exact delivered row early same
        have later := ih t (first.grown.attempt.trans owned)
        exact ⟨first.grown.trans later.grown, later.bindings.trans first.bindings, later.projections.trans first.projections,
          later.delivered ∘ first.delivered⟩

theorem freezable_ok {candidate : String} {events : List String} {u : Unit}
    (free : freezable s x b candidate events event = .ok u) :
    s.bindings.get b.task = some b ∧ (records s).attempt b.task = some b.attempt ∧
      s.projections.get b.task = none ∧ (records s).Delivered b.task := by
  unfold freezable at free
  simp only [bind_ok] at free
  obtain ⟨⟨⟩, -, -, -, ⟨⟩, associated, free⟩ := free
  split at free
  · cases free
  obtain ⟨⟨⟩, -, free⟩ := bind_ok.mp free
  obtain ⟨acknowledged, projected, free⟩ := bind_ok.mp free
  cases acknowledged with
  | some ack => cases free
  | none =>
    obtain ⟨pending, waits, free⟩ := bind_ok.mp free
    cases pending with
    | some f => cases free
    | none =>
      obtain ⟨bound, owned⟩ := checkAssociation_ok associated
      exact ⟨bound, owned, acknowledgedResult_none projected, pendingResult_none waits⟩

/-- A result is frozen for its association after its chunks. -/
theorem freezeResult_grown {candidate : String} {events : List String} :
    Grown (records s) (records (freezeResult cfg s x b candidate events event).1) := by
  unfold freezeResult
  split
  · exact .refl
  · rename_i free
    obtain ⟨bound, owned, fresh, delivered⟩ := freezable_ok free
    have sent : Grown (records s) (records (deliveryRequest cfg s x (.result b.task candidate) b.task b.attempt event events).1) := by
      unfold deliveryRequest
      split
      · exact .refl
      · rename_i event' chunks delivery
        have chunked : Chunked s (freezeChunks cfg x b.task b.attempt chunks s).1 := freezeChunks_chunked chunks s owned
        split
        · rename_i u e frozen
          rw [frozen] at chunked
          exact chunked.grown
        · rename_i u frozen
          rw [frozen] at chunked
          split
          · exact chunked.grown
          · rename_i v request made
            refine chunked.grown.trans ?_
            rcases eventRequest_cases made with rfl | ⟨absent, same, rfl⟩
            · exact .refl
            · refine .single (.insert _ absent rfl rfl ?_ ?_)
              · exact chunked.grown.attempt.trans (same ▸ owned)
              · intro _
                refine ⟨⟨candidate, rfl⟩, ?_, ?_, chunked.delivered delivered⟩
                · refine Rows.has_iff.mpr ⟨b, ?_⟩
                  show u.bindings.get b.task = some b
                  rw [chunked.bindings]
                  exact bound
                · show u.projections.has b.task = false
                  rw [chunked.projections, Rows.has, fresh]
                  rfl
    dsimp only
    split
    · rename_i u e made
      rwa [made] at sent
    · rename_i u request made
      rwa [made] at sent

theorem receivedRequest_ok (made : receivedRequest cfg s x offer = .ok (some (t, request))) :
    eventRequest cfg s x (.received offer.payload.taskId offer.payload.attemptId) offer.payload.taskId
      offer.payload.attemptId .received none = .ok (t, request) := by
  unfold receivedRequest at made
  simp only [bind_ok, touch_ok, exists_const] at made
  obtain ⟨-, acknowledged, -, made⟩ := made
  cases acknowledged with
  | true => cases made
  | false =>
    obtain ⟨answer, frozen, same⟩ := bind_ok.mp made
    cases same
    exact frozen

theorem startRequest_ok {materials : Except Error Unit} (made : startRequest cfg s x offer materials = .ok (t, request)) :
    eventRequest cfg s x (.start offer.payload.taskId offer.payload.attemptId) offer.payload.taskId
      offer.payload.attemptId .start none = .ok (t, request) := by
  unfold startRequest at made
  simp only [bind_ok, touch_ok, exists_const] at made
  obtain ⟨-, -, -, -, -, -, -, -, -, made⟩ := made
  split at made
  · exact made
  · cases made

theorem received_grown (stored : Stored s offer) : Grown (records s) (records (received cfg s x offer).1) := by
  unfold received
  dsimp only
  split
  · exact .refl
  · exact .refl
  · rename_i u request made
    have grown := eventRequest_grown (receivedRequest_ok made) rfl (stored_attempt stored)
    split
    · exact grown
    split
    · exact grown
    split
    · exact grown
    split
    · exact grown.trans (acceptRow_grown u _)
    · exact grown

theorem startInner_grown {materials : Except Error Unit} (stored : Stored s offer) :
    Grown (records s) (records (startInner cfg s x offer materials).1) := by
  unfold startInner
  dsimp only
  split
  · exact .refl
  · rename_i u request made
    have grown := eventRequest_grown (startRequest_ok made) rfl (stored_attempt stored)
    split
    · exact grown
    split
    · exact grown
    split
    · exact grown
    split
    · exact grown
    split
    · exact grown
    split
    · exact grown.trans (acceptRow_grown u _)
    · exact grown

theorem requestStart_grown {materials : Except Error Unit} (stored : Stored s offer) :
    Grown (records s) (records (requestStart cfg s x offer materials).1) := by
  unfold requestStart
  dsimp only
  split
  · exact .refl
  · exact startInner_grown stored

theorem recoverStart_grown {materials : Except Error Unit} :
    Grown (records s) (records (recoverStart cfg s x task materials).1) := by
  unfold recoverStart
  split
  · exact .refl
  · rename_i offer recovered
    unfold recoverable at recovered
    simp only [bind_ok, touch_ok, exists_const] at recovered
    obtain ⟨-, -, -, -, stored, got, -, recovered⟩ := recovered
    split at recovered
    · obtain ⟨-, -, same⟩ := bind_ok.mp recovered
      cases same
      exact startInner_grown (storedOffer_ok got).1
    · cases recovered

theorem validateStart_ok {start : Start} {u : Unit} (valid : validateStart cfg s x start = .ok u) :
    (records s).requests.has (.start start.signed.payload.taskId start.signed.payload.attemptId) = true ∧
      (records s).attempt start.signed.payload.taskId = some start.signed.payload.attemptId := by
  unfold validateStart at valid
  simp only [bind_ok, touch_ok, exists_const] at valid
  obtain ⟨⟨⟩, -, -, valid⟩ := valid
  split at valid
  · rename_i accepted
    obtain ⟨offer, got, valid⟩ := bind_ok.mp valid
    refine ⟨Option.isSome_of_any accepted, ?_⟩
    split at valid
    · rename_i same
      obtain ⟨-, task, owned⟩ := storedOffer_ok got
      have input := of_decide_eq_true (Bool.and_eq_true_iff.mp same).2
      rw [owned, input]
    · cases valid
  · cases valid

theorem reserveAssociation_grown {start : Start} {name digest actor : String} :
    Grown (records s) (records (orSame s (reserveAssociation cfg s x start name digest actor))) := by
  cases made : reserveAssociation cfg s x start name digest actor with
  | error e => exact .refl
  | ok answer =>
    unfold reserveAssociation at made
    simp only [bind_ok] at made
    obtain ⟨⟨⟩, valid, old, got, made⟩ := made
    obtain ⟨frozen, owned⟩ := validateStart_ok valid
    split at made
    · split at made
      · cases made
      · cases made
        exact .refl
    · simp only [bind_ok, touch_ok, exists_const] at made
      obtain ⟨-, same⟩ := made
      cases same
      exact .single (.bind _ owned frozen)

theorem bindLocalAttempt_grown {name : Option String} (coherent : (records s).Coherent) :
    Grown (records s) (records (orSame s (bindLocalAttempt s x b name))) := by
  cases made : bindLocalAttempt s x b name with
  | error e => exact .refl
  | ok answer =>
    unfold bindLocalAttempt at made
    obtain ⟨⟨⟩, associated, made⟩ := bind_ok.mp made
    obtain ⟨bound, owned⟩ := checkAssociation_ok associated
    split at made
    · cases made
    · simp only [bind_ok, touch_ok, exists_const] at made
      obtain ⟨-, same⟩ := made
      cases same
      exact .single (.bind _ owned (coherent.started b (Rows.get_mem bound)))

theorem sendChunks_grown {manifest : OutputManifest} (rows : List RequestRow) : ∀ (index : Nat) (s : Store),
    Grown (records s) (records (sendChunks x attempt manifest rows index s).1) := by
  induction rows with
  | nil => exact fun _ _ => .refl
  | cons row rest ih =>
    intro index s
    unfold sendChunks
    split
    · split
      · exact .refl
      split
      · exact ih (index + 1) s
      split
      · exact .refl
      split
      · exact .refl
      split
      · exact (acceptRow_grown s row.key).trans (ih (index + 1) _)
      · exact .refl
    · exact .refl

theorem sendOutputChunks_grown : Grown (records s) (records (sendOutputChunks s x task request).1) := by
  have send : ∀ manifest, Grown (records s) (records (if !x.io .chunks then (s, .error .storage)
      else
        let rows := chunkRows s task request.attemptId
        if rows.length ≠ ResultWire.count manifest then (s, .error .storage)
        else sendChunks x request.attemptId manifest rows 0 s : Store × Except Error Unit).1) := by
    intro manifest
    dsimp only
    split
    · exact .refl
    split
    · exact .refl
    · exact sendChunks_grown _ 0 s
  unfold sendOutputChunks
  dsimp only
  split
  · exact send _
  · exact send _
  · exact .refl

theorem acknowledge_grown {f : FrozenResult} {row : RequestRow} (made : acknowledge s x f = .ok t)
    (found : s.requests.get f.key = some row) (sourced : row.source.isSome = true) (body : row.body = f.request) :
    Grown (records s) (records t) := by
  unfold acknowledge at made
  simp only [bind_ok, touch_ok, exists_const] at made
  obtain ⟨-, -, made⟩ := made
  rw [found] at made
  dsimp only at made
  split at made
  · cases made
  · rename_i task
    rw [ne_eq, not_not] at task
    simp only [bind_ok, touch_ok, exists_const] at made
    obtain ⟨-, -, same⟩ := made
    cases same
    have key : row.key = f.key := Rows.get_key found
    have grows : Grows (records s) _ := .project row (key ▸ found) sourced
    refine .single ?_
    unfold acceptRow records
    rw [found, ← body, ← task]
    exact grows

theorem sendUnaccepted_grown {f : FrozenResult} {accepted : Bool} (checked : checkResult s x 0 f = .ok accepted) :
    Grown (records s) (records (sendUnaccepted s x f).1) := by
  obtain ⟨row, found, -, source, body, -⟩ := checkResult_ok checked
  have chunks : Grown (records s) (records (sendOutputChunks s x f.association.task f.request).1) := sendOutputChunks_grown
  unfold sendUnaccepted
  split
  · exact .refl
  split
  · rename_i u e sent
    rwa [sent] at chunks
  · rename_i u sent
    rw [sent] at chunks
    split
    · exact chunks
    split
    · exact chunks
    split
    · exact chunks
    · rename_i v made
      -- The row is still that of the result, its acceptance apart.
      obtain ⟨now, mem, alike⟩ := chunks.keeps (Rows.get_mem found)
      obtain ⟨key, -, origin, same⟩ := alike.fields
      refine chunks.trans (acknowledge_grown made ?_ ?_ (same.trans body))
      · rw [← Rows.get_key found, ← key]
        exact Rows.get_of_mem mem
      · rw [origin, source]
        rfl

theorem finishResult_ok {f : FrozenResult} {ack : ResultAck} (finished : finishResult s x f = .ok ack) :
    ack = acknowledgement x f f ∧ validateResultAck s x 1 ack = .ok () := by
  unfold finishResult at finished
  obtain ⟨⟨⟩, valid, same⟩ := bind_ok.mp finished
  cases same
  exact ⟨rfl, valid⟩

theorem sendResult_cases (s : Store) (x : Exchange) (f : FrozenResult) :
    ((sendResult s x f).1 = s ∨
      (checkResult s x 0 f = .ok false ∧ (sendResult s x f).1 = (sendUnaccepted s x f).1)) ∧
      ∀ ack, (sendResult s x f).2 = .ok ack →
        ack = acknowledgement x f f ∧ validateResultAck (sendResult s x f).1 x 1 ack = .ok () := by
  unfold sendResult
  split
  · exact ⟨.inl rfl, nofun⟩
  · exact ⟨.inl rfl, fun ack => finishResult_ok⟩
  · rename_i checked
    split
    · rename_i t e sent
      exact ⟨.inr ⟨checked, by rw [sent]⟩, nofun⟩
    · rename_i t sent
      exact ⟨.inr ⟨checked, by rw [sent]⟩, fun ack => finishResult_ok⟩

theorem sendResult_grown {f : FrozenResult} : Grown (records s) (records (sendResult s x f).1) := by
  rcases (sendResult_cases s x f).1 with same | ⟨checked, same⟩
  · rw [same]
  · rw [same]
    exact sendUnaccepted_grown checked

theorem freezeAbandonment_grown : Grown (records s) (records (orSame s (freezeAbandonment cfg s x task))) := by
  cases made : freezeAbandonment cfg s x task with
  | error e => exact .refl
  | ok answer =>
    unfold freezeAbandonment at made
    obtain ⟨offer, got, made⟩ := bind_ok.mp made
    obtain ⟨⟨u, request⟩, frozen, same⟩ := bind_ok.mp made
    cases same
    exact eventRequest_grown frozen rfl (storedOffer_ok got).2.2

theorem sendAbandonment_grown {f : FrozenAbandonment} : Grown (records s) (records (sendAbandonment s x f).1) := by
  unfold sendAbandonment
  split
  · exact .refl
  · exact .refl
  split
  · exact .refl
  split
  · exact .refl
  split
  · exact acceptRow_grown s _
  · exact .refl

omit [ResultWire] in
theorem retireResult_ok {ack : ResultAck} (fits : Fits ack) (retired : retireResult s x ack = .ok t) :
    ∃ f row, ack.result = some f ∧ s.requests.get f.key = some row ∧ row.task = f.association.task ∧ row.source.isSome = true ∧
      row.accepted = true ∧ s.projections.has row.task = true ∧ records t = (records s).retired f := by
  unfold retireResult at retired
  obtain ⟨⟨⟩, valid, retired⟩ := bind_ok.mp retired
  obtain ⟨⟨p, projected, -⟩, -, stored⟩ := validateResultAck_ok valid
  split at retired
  · cases retired
  · rename_i f result
    simp only [bind_ok, touch_ok, exists_const] at retired
    obtain ⟨-, -, -, -, same⟩ := retired
    cases same
    obtain ⟨row, found, task, source, -, accepted, -⟩ := checkResult_ok (stored f result)
    refine ⟨f, row, result, found, task, ?_, accepted, ?_, rfl⟩
    · rw [source]
      rfl
    · rw [task, fits f result]
      exact Rows.has_iff.mpr ⟨p, projected⟩

omit [ResultWire] in
theorem release_cases (s : Store) (x : Exchange) (task : Uuid) :
    records (release s x task).1 = records s ∨ records (release s x task).1 = (records s).released task := by
  unfold release
  split
  · exact .inr rfl
  · exact .inl rfl

omit [ResultWire] in
theorem releaseResult_cases (cfg : Config) (s : Store) (x : Exchange) (ack : ResultAck) :
    records (releaseResult cfg s x ack).1 = records s ∨
      records (releaseResult cfg s x ack).1 = (records s).released ack.association.task := by
  unfold releaseResult
  dsimp only
  split
  · exact .inl rfl
  split
  · exact release_cases _ x ack.association.task
  · exact .inl rfl

omit [ResultWire] in
theorem releaseAbandonment_cases (s : Store) (x : Exchange) (ack : AbandonmentAck) :
    records (releaseAbandonment s x ack).1 = records s ∨
      records (releaseAbandonment s x ack).1 = (records s).released ack.pending.task := by
  unfold releaseAbandonment
  split
  · exact .inl rfl
  · exact .inl rfl
  · exact release_cases s x ack.pending.task

structure Replaced (r : Records) (c : ClaimCall) (signed : SignedTask) : Prop where
  other : ∃ attempt, r.attempt signed.payload.taskId = some attempt ∧ attempt ≠ signed.payload.attemptId
  expired : ∃ row now, r.tasks.get signed.payload.taskId = some row ∧ c.now = .ok now ∧ row.body.payload.expiresAt ≤ now
  settled : r.Settled signed.payload.taskId

/-- A claim leaves the records alone, stores an offer, or replaces that of an expired attempt. -/
inductive Claimed (r : Records) (c : ClaimCall) : Records → Prop where
  | same : Claimed r c r
  | adopt (signed : SignedTask) (fits : ∀ row, r.tasks.get signed.payload.taskId = some row → row.body = signed) :
      Claimed r c (r.adopted signed)
  | replace (signed : SignedTask) (replaced : Replaced r c signed) :
      Claimed r c ((r.unreceived signed.payload.taskId).adopted signed)

theorem prepareClaim_ok {c : ClaimCall} {now : Int} (prepared : s.prepareClaim cfg c = (t, .ok now)) :
    c.now = .ok now := by
  unfold Store.prepareClaim at prepared
  split at prepared
  · cases prepared
  rename_i time read
  simp only [bind_ok] at read
  obtain ⟨-, -, retiring, -, read⟩ := read
  have clock : c.now = .ok time := by
    cases retiring with
    | true => cases read
    | false => exact read
  split at prepared
  · cases prepared
  split at prepared
  · cases prepared
    exact clock
  split at prepared
  · cases prepared
  · cases prepared
    exact clock

omit [ResultWire] in
theorem dropExpired_records {c : ClaimCall} {now : Int} (dropped : s.dropExpired c now = .ok t) : records t = records s := by
  unfold Store.dropExpired at dropped
  simp only [bind_ok, reach_ok, exists_const] at dropped
  obtain ⟨-, dropped⟩ := dropped
  split at dropped
  · simp only [bind_ok, reach_ok, exists_const] at dropped
    obtain ⟨-, same⟩ := dropped
    cases same
    rfl
  · cases dropped
    rfl

theorem prepareClaim_records (cfg : Config) (s : Store) (c : ClaimCall) : records (s.prepareClaim cfg c).1 = records s := by
  unfold Store.prepareClaim
  split
  · rfl
  split
  · rfl
  rename_i u dropped
  have same := dropExpired_records dropped
  split
  · exact same
  split <;> exact same

omit [ResultWire] in
/-- An offer is stored for a free task or the same attempt, or in the place of an expired attempt. -/
theorem storeOffer_claimed {c : ClaimCall} {now : Int} {signed : SignedTask} (clock : c.now = .ok now)
    (stored : s.storeOffer c.io now signed (s.tasks.get signed.payload.taskId) = .ok t) :
    Claimed (records s) c (records t) := by
  unfold Store.storeOffer at stored
  simp only [bind_ok, reach_ok, exists_const] at stored
  obtain ⟨-, -, -, u, gave, -, -, -, same⟩ := stored
  cases same
  unfold Store.giveWay at gave
  split at gave
  · rename_i free
    cases gave
    apply Claimed.adopt signed
    intro row found
    rw [records, free] at found
    cases found
  · rename_i row found
    have same : row.id = signed.payload.taskId := Rows.get_key found
    split at gave
    · rename_i other
      simp only [bind_ok, reach_ok, exists_const] at gave
      obtain ⟨-, gave⟩ := gave
      split at gave
      · cases gave
      · rename_i waits
        simp only [Bool.or_eq_true, decide_eq_true_eq, not_or, Bool.not_eq_true, not_lt] at waits
        simp only [bind_ok, reach_ok, exists_const] at gave
        obtain ⟨-, -, -, gave⟩ := gave
        cases gave
        have replaced : Replaced (records s) c signed := by
          refine ⟨⟨_, ?_, other⟩, ⟨row, now, found, clock, waits.2⟩, ?_⟩
          · unfold Records.attempt records
            rw [found]
            rfl
          · intro request mem task
            have settled := List.any_eq_false.mp waits.1 request mem
            rw [same] at settled
            simpa [task] using settled
        have claimed := Claimed.replace signed replaced
        rwa [← same] at claimed
    · split at gave
      · cases gave
      · rename_i kept
        rw [ne_eq, not_not] at kept
        cases gave
        apply Claimed.adopt signed
        intro other also
        cases found.symm.trans also
        exact kept

theorem takeResponse_claimed {c : ClaimCall} {now : Int} {response : TaskClaimResponse} {claim : Claim}
    (clock : c.now = .ok now) (taken : s.takeResponse cfg c now response = .ok (t, claim)) :
    Claimed (records s) c (records t) := by
  unfold Store.takeResponse at taken
  split at taken
  · simp only [bind_ok, reach_ok, exists_const] at taken
    obtain ⟨-, same⟩ := taken
    cases same
    exact .same
  · rename_i signed offered
    simp only [bind_ok, reach_ok, exists_const] at taken
    obtain ⟨-, -, -, -, taken⟩ := taken
    split at taken
    · cases taken
      exact .same
    · simp only [bind_ok, reach_ok, exists_const] at taken
      obtain ⟨-, u, stored, same⟩ := taken
      cases same
      exact storeOffer_claimed clock stored

theorem claimTask_claimed (s : Store) (c : ClaimCall) : Claimed (records s) c (records (s.claimTask cfg c).1) := by
  have rows := prepareClaim_records cfg s c
  unfold Store.claimTask
  split
  · rename_i u e prepared
    rw [prepared] at rows
    rw [← rows]
    exact .same
  · rename_i u now prepared
    rw [prepared] at rows
    rw [← rows]
    split
    · exact .same
    split
    · exact .same
    · rename_i v claim taken
      exact takeResponse_claimed (prepareClaim_ok prepared) taken

end Growth

end RssMdmAgent.AttemptCalls
