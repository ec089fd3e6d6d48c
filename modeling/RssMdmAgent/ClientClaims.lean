import RssMdmAgent.ClientStore
import RssMdmAgent.ContractPlan

set_option autoImplicit false

/-! # When a claim returns the cancellations of its answer -/

namespace RssMdmAgent.ClientStore
open OrderedRows
open ContentTransfers (Uuid Error Transfers)
open ContractPlan (bind_ok)

section Claims
variable [TaskWire] {cfg : Config} {s t : Store} {c : ClaimCall} {now : Int} {response : TaskClaimResponse} {claim : Claim}
  {io : Access → Bool} {signed : SignedTask}

omit [TaskWire] in
theorem reach_ok {access : Access} {u : Unit} : reach io access = .ok u ↔ io access = true := by
  unfold reach
  cases io access <;> simp

def Store.replaces (s : Store) (signed : SignedTask) : Bool :=
  (s.tasks.get signed.payload.taskId).any fun row => decide (row.body.payload.attemptId ≠ signed.payload.attemptId)

def Store.Admissible (s : Store) (now : Int) (signed : SignedTask) : Prop :=
  match s.tasks.get signed.payload.taskId with
  | none => True
  | some row =>
    (row.body.payload.attemptId = signed.payload.attemptId ∧ row.body = signed) ∨
      (row.body.payload.attemptId ≠ signed.payload.attemptId ∧ s.unsettled row.id = false ∧ row.body.payload.expiresAt ≤ now)

def Store.offerAccesses (s : Store) (cfg : Config) (signed : SignedTask) : List Access :=
  [.countTasks, .readTask] ++
    if s.full cfg signed.payload.taskId then []
    else [.decodeTask, .begin, .upsertTask, .clearClaim, .commit] ++
      if s.replaces signed then [.lockTransfers, .readUnsettled, .deleteReceived, .deleteCacheRefs, .persistRetirement]
      else []

/-- The answer has no offer, or its offer verifies and either finds no room or can take the row of its task. -/
def Store.Delivers (s : Store) (cfg : Config) (c : ClaimCall) (now : Int) (response : TaskClaimResponse) : Prop :=
  match response.task with
  | none => c.io .clearClaim = true
  | some signed =>
    s.verify cfg c.io c.session signed .offer = .ok () ∧
      (s.full cfg signed.payload.taskId = true ∨ s.Admissible now signed) ∧
      ∀ access ∈ s.offerAccesses cfg signed, c.io access = true

omit [TaskWire] in
theorem lockConsumers_ok {u : Unit} : lockConsumers io signed (s.tasks.get signed.payload.taskId) = .ok u ↔
    (s.replaces signed = true → io .lockTransfers = true) := by
  unfold lockConsumers Store.replaces reach
  generalize ((s.tasks.get signed.payload.taskId).any _) = other
  cases other <;> cases io .lockTransfers <;> simp

omit [TaskWire] in
theorem giveWay_iff : (∃ t, s.giveWay io now signed (s.tasks.get signed.payload.taskId) = .ok t) ↔
    s.Admissible now signed ∧ (s.replaces signed = true →
      ∀ access ∈ [Access.readUnsettled, .deleteReceived, .deleteCacheRefs, .persistRetirement], io access = true) := by
  unfold Store.giveWay Store.Admissible Store.replaces
  cases found : s.tasks.get signed.payload.taskId with
  | none => simp
  | some row =>
    by_cases other : row.body.payload.attemptId = signed.payload.attemptId
    · by_cases same : row.body = signed <;> simp [other, same]
    · simp only [ne_eq, other, not_false_eq_true, if_true, bind_ok, reach_ok, exists_const, Option.any_some, decide_true, false_and, true_and, false_or]
      by_cases waits : (s.unsettled row.id || decide (now < row.body.payload.expiresAt)) = true
      · rw [if_pos waits]
        simp only [Bool.or_eq_true, decide_eq_true_eq] at waits
        simp only [reduceCtorEq, and_false, exists_false, false_iff, not_and]
        rintro ⟨settled, expired⟩
        rw [settled] at waits
        rcases waits with waits | waits
        · cases waits
        · omega
      · rw [if_neg waits]
        simp only [Bool.or_eq_true, decide_eq_true_eq, not_or, Bool.not_eq_true, not_lt] at waits
        simp only [bind_ok, reach_ok, exists_const]
        constructor
        · rintro ⟨t, unsettled, received, refs, persisted, -⟩
          exact ⟨waits, by simp [unsettled, received, refs, persisted]⟩
        · rintro ⟨-, works⟩
          simp only [List.forall_mem_cons, forall_const] at works
          exact ⟨_, works.1, works.2.1, works.2.2.1, works.2.2.2.1, rfl⟩

omit [TaskWire] in
theorem storeOffer_iff : (∃ t, s.storeOffer io now signed (s.tasks.get signed.payload.taskId) = .ok t) ↔
    s.Admissible now signed ∧ (∀ access ∈ [Access.begin, .upsertTask, .clearClaim, .commit], io access = true) ∧
      (s.replaces signed = true →
        ∀ access ∈ [Access.lockTransfers, .readUnsettled, .deleteReceived, .deleteCacheRefs, .persistRetirement],
          io access = true) := by
  have middle := @giveWay_iff s now io signed
  unfold Store.storeOffer
  simp only [bind_ok, reach_ok, lockConsumers_ok, exists_const]
  constructor
  · rintro ⟨t, locked, begun, u, gave, upserted, cleared, committed, -⟩
    obtain ⟨admissible, works⟩ := middle.mp ⟨u, gave⟩
    exact ⟨admissible, by simp [begun, upserted, cleared, committed],
      fun replaces => List.forall_mem_cons.mpr ⟨locked replaces, works replaces⟩⟩
  · rintro ⟨admissible, works, replacing⟩
    simp only [List.forall_mem_cons] at works
    obtain ⟨u, gave⟩ := middle.mpr ⟨admissible, fun replaces => (List.forall_mem_cons.mp (replacing replaces)).2⟩
    exact ⟨_, fun replaces => (List.forall_mem_cons.mp (replacing replaces)).1, works.1, u, gave, works.2.1, works.2.2.1,
      works.2.2.2.1, rfl⟩

theorem takeResponse_cancellations (taken : s.takeResponse cfg c now response = .ok (t, claim)) :
    claim.cancellations = response.cancellations := by
  unfold Store.takeResponse at taken
  split at taken
  · simp only [bind_ok, reach_ok, exists_const] at taken
    obtain ⟨-, same⟩ := taken
    cases same
    rfl
  · simp only [bind_ok, reach_ok, exists_const] at taken
    obtain ⟨-, -, -, -, taken⟩ := taken
    split at taken
    · cases taken
      rfl
    · simp only [bind_ok, reach_ok, exists_const] at taken
      obtain ⟨-, u, -, same⟩ := taken
      cases same
      rfl

theorem takeResponse_iff : (∃ t claim, s.takeResponse cfg c now response = .ok (t, claim)) ↔ s.Delivers cfg c now response := by
  unfold Store.takeResponse Store.Delivers
  cases response.task with
  | none =>
    simp only [bind_ok, reach_ok, exists_const]
    constructor
    · rintro ⟨t, claim, cleared, -⟩
      exact cleared
    · exact fun cleared => ⟨_, _, cleared, rfl⟩
  | some signed =>
    have stores := @storeOffer_iff s now c.io signed
    unfold Store.offerAccesses
    by_cases full : s.full cfg signed.payload.taskId = true
    · simp only [bind_ok, reach_ok, exists_const, full, if_true, List.append_nil, true_or, true_and]
      constructor
      · rintro ⟨t, claim, ⟨⟩, verified, counted, read, -⟩
        exact ⟨verified, by simp [counted, read]⟩
      · rintro ⟨verified, works⟩
        simp only [List.forall_mem_cons] at works
        exact ⟨_, _, (), verified, works.1, works.2.1, rfl⟩
    · simp only [bind_ok, reach_ok, exists_const, full, Bool.false_eq_true, if_false, false_or, List.forall_mem_append]
      constructor
      · rintro ⟨t, claim, ⟨⟩, verified, counted, read, decoded, u, stored, -⟩
        obtain ⟨admissible, works, replacing⟩ := stores.mp ⟨u, stored⟩
        refine ⟨verified, admissible, by simp [counted, read], List.forall_mem_cons.mpr ⟨decoded, works⟩, ?_⟩
        split
        · exact replacing ‹_›
        · exact fun access mem => absurd mem List.not_mem_nil
      · rintro ⟨verified, admissible, first, works, replacing⟩
        simp only [List.forall_mem_cons] at first
        obtain ⟨decoded, works⟩ := List.forall_mem_cons.mp works
        obtain ⟨u, stored⟩ := stores.mpr ⟨admissible, works, fun replaces => by rwa [if_pos replaces] at replacing⟩
        exact ⟨_, _, (), verified, first.1, first.2.1, decoded, u, stored, rfl⟩

def Store.SameRows (s t : Store) : Prop :=
  t.tasks = s.tasks ∧ t.requests = s.requests ∧ t.cacheRefs = s.cacheRefs ∧ t.transfers = s.transfers

omit [TaskWire] in
theorem dropExpired_rows (dropped : s.dropExpired c now = .ok t) : s.SameRows t := by
  unfold Store.dropExpired at dropped
  simp only [bind_ok, reach_ok, exists_const] at dropped
  obtain ⟨-, dropped⟩ := dropped
  split at dropped
  · simp only [bind_ok, reach_ok, exists_const] at dropped
    obtain ⟨-, same⟩ := dropped
    cases same
    exact ⟨rfl, rfl, rfl, rfl⟩
  · cases dropped
    exact ⟨rfl, rfl, rfl, rfl⟩

theorem prepareClaim_rows : s.SameRows (s.prepareClaim cfg c).1 := by
  unfold Store.prepareClaim
  split
  · exact ⟨rfl, rfl, rfl, rfl⟩
  split
  · exact ⟨rfl, rfl, rfl, rfl⟩
  rename_i t dropped
  have rows := dropExpired_rows dropped
  split
  · exact rows
  split <;> exact rows

/-- The cancellations of a decoded answer reach the caller exactly under the delivery condition, and a claim that
ends with an error leaves the tasks, requests, cache references and consumers alone. -/
theorem cancellations_returned (cfg : Config) (s : Store) (c : ClaimCall) :
    (∀ t now response, s.prepareClaim cfg c = (t, .ok now) → c.reply = .ok response →
      ((∃ claim, (s.claimTask cfg c).2 = .ok claim ∧ claim.cancellations = response.cancellations) ↔
        t.Delivers cfg c now response)) ∧
      ∀ e, (s.claimTask cfg c).2 = .error e → s.SameRows (s.claimTask cfg c).1 := by
  constructor
  · intro t now response prepared reply
    rw [← takeResponse_iff]
    unfold Store.claimTask
    rw [prepared, reply]
    cases taken : t.takeResponse cfg c now response with
    | error e => simp [taken]
    | ok answer =>
      obtain ⟨u, claim⟩ := answer
      simp [taken, takeResponse_cancellations taken]
  · intro e failed
    have rows : s.SameRows (s.prepareClaim cfg c).1 := prepareClaim_rows
    unfold Store.claimTask at failed ⊢
    cases prepared : s.prepareClaim cfg c with
    | mk t result =>
      rw [prepared] at failed rows
      cases result with
      | error e => exact rows
      | ok now =>
        cases reply : c.reply with
        | error e => exact rows
        | ok response =>
          rw [reply] at failed
          dsimp only at failed ⊢
          cases taken : t.takeResponse cfg c now response with
          | error e => exact rows
          | ok answer =>
            rw [taken] at failed
            cases failed

end Claims

section Sample

@[reducible] def sampleWire : TaskWire :=
  ⟨fun _ _ => true, fun _ => true, fun _ _ => true, fun _ _ => true, fun state => state.request.length⟩

attribute [local instance] sampleWire

def sampleConfig : Config := ⟨1, .macos, .aarch64, 4, 30, 4096⟩

def sampleTask (attempt : Uuid) (expiresAt : Int) : SignedTask :=
  ⟨"key", String.ofList (List.replicate 86 'A'),
    ⟨.script, .offer, 1, "device", 2, 1, .macos, .aarch64, 7, attempt, expiresAt, 500, .policy, "script"⟩⟩

/-- Attempt 1 of task 7 runs: its start is frozen. -/
def sampleStore : Store :=
  { tasks := Rows.empty.set ⟨7, sampleTask 1 100⟩
    requests := Rows.empty.set ⟨.start 7 1, 7, none, ⟨21, 1, .start, "context"⟩, true⟩
    cacheRefs := []
    claim := some ⟨"claim", 400⟩
    bindings := .empty
    projections := .empty
    terminals := .empty
    transfers := ⟨.empty, .empty, .empty, 64⟩ }

/-- The server answers with an offer of attempt 2 and the cancellation of attempt 1. -/
def sampleCall (offer : SignedTask) : ClaimCall :=
  { trustReady := .ok ()
    retiring := .ok false
    now := .ok 200
    fresh := .ok "claim"
    reply := .ok ⟨some offer, [⟨7, 1⟩]⟩
    session := ⟨.ok (), .ok 200, .ok ⟨"device", 2, 1⟩, fun _ => .ok "public", .ok "context", []⟩
    io := fun _ => true }

/-- The claim stays and so does the answer: the cancellation of the running attempt never reaches the caller. -/
theorem conflicting_offer_hides :
    (sampleStore.claimTask sampleConfig (sampleCall (sampleTask 2 300))).1 = sampleStore ∧
      (sampleStore.claimTask sampleConfig (sampleCall (sampleTask 2 300))).2 = .error .conflict ∧
      ∃ t now response, sampleStore.prepareClaim sampleConfig (sampleCall (sampleTask 2 300)) = (t, .ok now) ∧
        (sampleCall (sampleTask 2 300)).reply = .ok response ∧ response.cancellations ≠ [] :=
  ⟨by rfl, by rfl, _, _, _, rfl, rfl, by simp⟩

theorem cancellations_returned_sample :
    (∃ claim, (sampleStore.claimTask sampleConfig (sampleCall (sampleTask 1 100))).2 = .ok claim ∧
        claim.cancellations = [⟨7, 1⟩]) ↔
      sampleStore.Delivers sampleConfig (sampleCall (sampleTask 1 100)) 200 ⟨some (sampleTask 1 100), [⟨7, 1⟩]⟩ :=
  (cancellations_returned sampleConfig sampleStore (sampleCall (sampleTask 1 100))).1 sampleStore 200 _ (by rfl) rfl

end Sample

end RssMdmAgent.ClientStore
