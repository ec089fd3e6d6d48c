import RssMdmAgent.AccessSteps

set_option autoImplicit false

/-! # Offline guessing of factors is throttled over whole runs -/

namespace RssMdmAgent.FactorThrottle
open OrderedRows AccessRecords AccessStore AccessSteps TransitionRuns
open ContractPlan (bind_ok)

/-! ## Reboots -/

structure Host where
  store : Store
  boot : Uuid
  past : List Uuid

inductive HostEvent where
  | call (entry : Entry)
  | reboot (boot : Uuid)

def HostEvent.traced : HostEvent → Option Entry
  | .call entry => some entry
  | .reboot _ => none

def calls (events : List HostEvent) : List Entry := events.filterMap HostEvent.traced

section Machine
variable [Wire] [Digests] [Protector] [TableScan]

inductive HostStep (h : Host) : HostEvent → Host → Prop where
  | call {e : Entry} {t : Store} (sampled : ∀ clock, e.call.clock = some clock → clock.boot = h.boot)
      (step : Step h.store e t) : HostStep h (.call e) { h with store := t }
  | reboot {boot : Uuid} (fresh : boot ∉ h.boot :: h.past) : HostStep h (.reboot boot)
      { h with
        boot := boot
        past := h.boot :: h.past }

omit [Digests] [Protector] [TableScan] in
/-- The body of the account is one that a query selects. -/
def Readable (sid : String) (s : Store) : Prop :=
  ∀ record, s.bindings.get sid = some record → record.size ≤ 32768

def ReadableStep (sid : String) (h : Host) (event : HostEvent) (h' : Host) : Prop :=
  Readable sid h.store ∧ HostStep h event h'

def sampled (condition : Store → Bool) (boot : Uuid) : Store → List Call → Bool
  | _, [] => true
  | s, call :: rest => condition s && (call.clock.all fun clock => clock.boot = boot) &&
      sampled condition boot (perform s call).2 rest

theorem sampled_runs (condition : Store → Bool) {boot : Uuid} {past : List Uuid} : ∀ (calls : List Call) (s : Store),
    sampled condition boot s calls = true → Runs (fun h event h' => condition h.store = true ∧ HostStep h event h')
      ⟨s, boot, past⟩ ((runCalls s calls).1.map .call) ⟨(runCalls s calls).2, boot, past⟩
  | [], _, _ => .refl
  | call :: rest, s, all => by
    simp only [sampled, Bool.and_eq_true, Option.all_eq_true, decide_eq_true_eq] at all
    obtain ⟨⟨good, here⟩, later⟩ := all
    refine (Runs.one ⟨good, HostStep.call ?_ (entryOf_step s call)⟩).trans (sampled_runs condition rest _ later)
    exact here

end Machine

/-! ## Checks of factors in a trace -/

def outcome (sid : String) (e : Entry) : Option Bool :=
  match e.call, e.reply with
  | .verify expected _ _ _, .decided .accepted => if expected.sid = sid then some true else none
  | .verify expected _ _ _, .decided .denied => if expected.sid = sid then some false else none
  | .verify expected _ _ _, .decided .clockRollback => if expected.sid = sid then some false else none
  | _, _ => none

structure Trail where
  failures : Nat
  last : Option Clock

def advance (sid : String) (trail : Trail) (e : Entry) : Trail :=
  match outcome sid e with
  | some true => ⟨0, none⟩
  | some false => ⟨trail.failures + 1, e.call.clock⟩
  | none => trail

def trailOf (sid : String) (entries : List Entry) : Trail := entries.foldl (advance sid) ⟨0, none⟩

def reached (sid : String) (entries : List Entry) : List Clock :=
  entries.filterMap fun e => if reaches sid e then e.call.clock else none

def firstOf (sid : String) (boot : Uuid) (entries : List Entry) : Option Clock :=
  (reached sid entries).find? (·.boot = boot)

/-- After five failed checks the next one waits, in the same boot from the last failure on, in a later boot from
the first call of that boot on. A code is never accepted below the highest UTC of the account. -/
structure Throttled (sid : String) (entries : List Entry) : Prop where
  waits : ∀ before last between check rest a c,
    entries = before ++ last :: (between ++ check :: rest) → outcome sid last = some false →
    (∀ e ∈ between, outcome sid e = none) → (outcome sid check).isSome = true →
    last.call.clock = some a → check.call.clock = some c →
    5 ≤ (trailOf sid (before ++ [last])).failures →
    (a.boot = c.boot ∧ a.monotonic + lockLength (trailOf sid (before ++ [last])).failures ≤ c.monotonic) ∨
      (a.boot ≠ c.boot ∧ ∃ f, firstOf sid c.boot (before ++ last :: between) = some f ∧
        f.monotonic + lockLength (trailOf sid (before ++ [last])).failures ≤ c.monotonic)
  forward : ∀ before check rest expected code clock useId,
    entries = before ++ check :: rest → check.call = .verify expected (.totp code) clock useId →
    outcome sid check = some true → ∀ earlier ∈ reached sid before, earlier.utc ≤ clock.utc

section Trails
variable {sid : String} {entries between : List Entry} {e : Entry}

theorem trailOf_append : trailOf sid (entries ++ [e]) = advance sid (trailOf sid entries) e := by
  unfold trailOf
  rw [List.foldl_append]
  rfl

theorem trailOf_idle (idle : ∀ e ∈ between, outcome sid e = none) :
    trailOf sid (entries ++ between) = trailOf sid entries := by
  induction between using List.reverseRecOn with
  | nil => rw [List.append_nil]
  | append_singleton rest e ih =>
    rw [← List.append_assoc, trailOf_append, ih fun other mem => idle other (List.mem_append_left _ mem), advance,
      idle e (List.mem_append_right _ (List.mem_singleton_self e))]

theorem reached_append : reached sid (entries ++ [e]) =
    reached sid entries ++ (if reaches sid e then e.call.clock else none).toList := by
  unfold reached
  rw [List.filterMap_append]
  congr 1

theorem outcome_none (idle : reaches sid e = false) : outcome sid e = none := by
  obtain ⟨call, reply, used⟩ := e
  cases call with
  | verify expected factor clock useId =>
    cases reply with
    | decided decision =>
      unfold reaches at idle
      cases decision <;> simp_all [outcome]
    | _ => rfl
  | _ => rfl

end Trails

/-! ## What one check does -/

section Judge
variable [Digests] [Protector] {record judged : Record} {factor : Factor} {clock : Clock} {decision : Decision}

theorem judge_cases (h : judge record factor clock = .ok (decision, judged)) :
    (decision = .locked ∧ judged = { record with lockUntil := deadline record clock }) ∨
      (monotonicOk record clock = true ∧ deadline record clock ≤ clock.monotonic ∧
        ∃ accepted consumed, checkFactor record factor clock = .ok (accepted, consumed) ∧
          ((accepted = true ∧ decision = .accepted ∧ judged = { record with
              lockSeconds := 0
              consumedStep := consumed
              failures := 0
              lockUntil := 0 }) ∨
            (accepted = false ∧ decision = (if rollback record clock then .clockRollback else .denied) ∧
              judged = punished { record with
                lockUntil := deadline record clock
                lockSeconds := 0
                consumedStep := consumed } clock))) := by
  unfold judge at h
  dsimp only at h
  split at h
  · cases h
    exact .inl ⟨rfl, rfl⟩
  · rename_i evaluated
    rw [not_or, Bool.not_eq_false, Nat.not_lt] at evaluated
    obtain ⟨⟨accepted, consumed⟩, checked, h⟩ := bind_ok.mp h
    refine .inr ⟨evaluated.1, evaluated.2, accepted, consumed, checked, ?_⟩
    cases accepted with
    | true =>
      cases h
      exact .inl ⟨rfl, rfl, rfl⟩
    | false =>
      cases h
      exact .inr ⟨rfl, rfl, rfl⟩

theorem checkFactor_totp {code : String} {consumed : Int}
    (h : checkFactor record (.totp code) clock = .ok (true, consumed)) : rollback record clock = false ∧
      ∃ secret, Protector.openBytes record.secret = .ok secret ∧
        matchingStep secret code clock.utc record.consumedStep = some consumed := by
  unfold checkFactor at h
  dsimp only at h
  split at h
  · cases h
  · rename_i forward
    obtain ⟨secret, opened, h⟩ := bind_ok.mp h
    obtain ⟨_, -, h⟩ := bind_ok.mp h
    rw [Bool.not_eq_true] at forward
    split at h
    · rename_i found
      cases h
      exact ⟨forward, secret, opened, found⟩
    · cases h

omit [Digests] [Protector] in
theorem lockLength_le (failures : Nat) : lockLength failures ≤ 300 := Nat.min_le_right _ _

omit [Digests] [Protector] in
theorem lockLength_pos (failures : Nat) : 30 ≤ lockLength failures := by
  have positive : 0 < 2 ^ min (failures - 5) 4 := Nat.pow_pos (by decide)
  unfold lockLength
  omega

omit [Digests] [Protector] in
theorem lockLength_min (failures : Nat) : lockLength (min failures (2 ^ 32 - 1)) = lockLength failures := by
  unfold lockLength
  have same : min (min failures (2 ^ 32 - 1) - 5) 4 = min (failures - 5) 4 := by omega
  rw [same]

end Judge

/-! ## The budget of an account -/

section Budget
variable {sid : String}

/-- The deadline of a record counts from the last failure, or from the first call of a later boot. -/
structure Pending (h : Host) (entries : List Entry) (sid : String) (record : Record) (failures : Nat) (a : Clock) :
    Prop where
  seconds : record.lockSeconds = lockLength failures
  until' : (record.boot = a.boot ∧ record.lockUntil = a.monotonic + lockLength failures) ∨
    (a.boot ∈ h.past ∧ record.boot ≠ a.boot ∧ ∃ f, firstOf sid record.boot entries = some f ∧
      record.lockUntil = f.monotonic + lockLength failures)

/-- What a stored record knows about the trace of its account. -/
structure RowBudget (h : Host) (entries : List Entry) (sid : String) (record : Record) : Prop where
  boot : record.boot ∈ h.boot :: h.past
  failures : record.failures = min (trailOf sid entries).failures (2 ^ 32 - 1)
  utc : ∀ c ∈ reached sid entries, c.utc ≤ record.utc
  latest : ∀ c ∈ reached sid entries, c.boot = h.boot → record.boot = h.boot
  pending : 5 ≤ (trailOf sid entries).failures →
    ∃ a, (trailOf sid entries).last = some a ∧ Pending h entries sid record (trailOf sid entries).failures a

structure Budget (h : Host) (entries : List Entry) (sid : String) : Prop where
  fresh : h.boot ∉ h.past
  known : ∀ c ∈ reached sid entries, c.boot ∈ h.boot :: h.past
  absent : h.store.bindings.get sid = none → reached sid entries = [] ∧ (trailOf sid entries).failures = 0
  row : ∀ record, h.store.bindings.get sid = some record → RowBudget h entries sid record

theorem Budget.reboot {h : Host} {entries : List Entry} {boot : Uuid} (budget : Budget h entries sid)
    (fresh : boot ∉ h.boot :: h.past) : Budget
      { h with
        boot := boot
        past := h.boot :: h.past } entries sid where
  fresh := fresh
  known c mem := List.mem_cons_of_mem _ (budget.known c mem)
  absent := budget.absent
  row record found := by
    have row := budget.row record found
    refine ⟨List.mem_cons_of_mem _ row.boot, row.failures, row.utc, fun c mem here => ?_, fun many => ?_⟩
    · have known := budget.known c mem
      rw [show c.boot = boot from here] at known
      exact absurd known fresh
    · obtain ⟨a, last, seconds, until'⟩ := row.pending many
      refine ⟨a, last, seconds, ?_⟩
      rcases until' with same | ⟨past, later⟩
      · exact .inl same
      · exact .inr ⟨List.mem_cons_of_mem _ past, later⟩

theorem idle_trace {entries : List Entry} {e : Entry} (idle : reaches sid e = false) :
    reached sid (entries ++ [e]) = reached sid entries ∧ trailOf sid (entries ++ [e]) = trailOf sid entries := by
  refine ⟨?_, ?_⟩
  · rw [reached_append, idle]
    exact List.append_nil _
  · rw [trailOf_append, advance, outcome_none idle]

theorem firstOf_eq {entries later : List Entry} {boot : Uuid} (same : reached sid later = reached sid entries) :
    firstOf sid boot later = firstOf sid boot entries := by
  unfold firstOf
  rw [same]

theorem Budget.idle {h : Host} {entries : List Entry} {e : Entry} {t : Store} (budget : Budget h entries sid)
    (idle : reaches sid e = false)
    (row : ∀ record, t.bindings.get sid = some record → ∃ old, h.store.bindings.get sid = some old ∧
      record.boot = old.boot ∧ record.failures = old.failures ∧ record.utc = old.utc ∧
      record.lockSeconds = old.lockSeconds ∧ record.lockUntil = old.lockUntil)
    (kept : t.bindings.get sid = none → h.store.bindings.get sid = none) :
    Budget { h with store := t } (entries ++ [e]) sid := by
  obtain ⟨clocks, trail⟩ : reached sid (entries ++ [e]) = reached sid entries ∧
    trailOf sid (entries ++ [e]) = trailOf sid entries := idle_trace idle
  refine ⟨budget.fresh, ?_, fun none => ?_, fun record found => ?_⟩
  · rw [clocks]
    exact budget.known
  · rw [clocks, trail]
    exact budget.absent (kept none)
  · obtain ⟨old, before, boot, failures, utc, seconds, until'⟩ := row record found
    have now := budget.row old before
    refine ⟨?_, ?_, ?_, ?_, ?_⟩
    · rw [boot]
      exact now.boot
    · rw [failures, trail]
      exact now.failures
    · rw [clocks, utc]
      exact now.utc
    · rw [clocks, boot]
      exact now.latest
    · rw [trail]
      intro many
      obtain ⟨a, last, pending⟩ := now.pending many
      refine ⟨a, last, seconds.trans pending.seconds, ?_⟩
      rw [boot, until', firstOf_eq clocks]
      exact pending.until'

/-! ## Calls that reach the record -/

variable {h : Host} {entries : List Entry} {e : Entry} {record next : Record} {c : Clock} {t : Store}

theorem reached_call (hit : reaches sid e = true) (call : e.call.clock = some c) :
    reached sid (entries ++ [e]) = reached sid entries ++ [c] := by
  rw [reached_append, hit, call]
  rfl

theorem firstOf_kept {boot : Uuid} {f : Clock} (hit : reaches sid e = true) (call : e.call.clock = some c)
    (found : firstOf sid boot entries = some f) : firstOf sid boot (entries ++ [e]) = some f := by
  unfold firstOf at found ⊢
  rw [reached_call hit call, List.find?_append, found]
  rfl

theorem firstOf_new (hit : reaches sid e = true) (call : e.call.clock = some c)
    (absent : ∀ f ∈ reached sid entries, f.boot ≠ c.boot) : firstOf sid c.boot (entries ++ [e]) = some c := by
  unfold firstOf
  have none : (reached sid entries).find? (·.boot = c.boot) = none := by
    rw [List.find?_eq_none]
    intro f mem same
    exact absent f mem (of_decide_eq_true same)
  rw [reached_call hit call, List.find?_append, none]
  simp

theorem deadline_restarts (valid : c.valid = true) (seconds : record.lockSeconds ≤ 300)
    (differ : record.boot ≠ c.boot) : deadline record c = c.monotonic + record.lockSeconds := by
  unfold Clock.valid at valid
  unfold deadline
  rw [if_neg differ]
  simp only [Bool.not_eq_true', Bool.or_eq_false_iff, decide_eq_false_iff_not] at valid
  omega

theorem Pending.moved {failures : Nat} {a : Clock} (budget : Budget h entries sid)
    (row : RowBudget h entries sid record) (pending : Pending h entries sid record failures a)
    (valid : c.valid = true) (hit : reaches sid e = true) (call : e.call.clock = some c) (here : c.boot = h.boot)
    (boot : next.boot = c.boot) (seconds : next.lockSeconds = record.lockSeconds)
    (until' : next.lockUntil = deadline record c) :
    Pending { h with store := t } (entries ++ [e]) sid next failures a := by
  refine ⟨seconds.trans pending.seconds, ?_⟩
  rw [until', boot]
  by_cases same : record.boot = c.boot
  · have kept : deadline record c = record.lockUntil := by
      unfold deadline
      rw [if_pos same]
    rw [kept]
    rcases pending.until' with ⟨start, counted⟩ | ⟨past, differ, f, first, counted⟩
    · exact .inl ⟨same.symm.trans start, counted⟩
    · exact .inr ⟨past, same ▸ differ, f, firstOf_kept hit call (same ▸ first), counted⟩
  · have restarted := deadline_restarts valid (by rw [pending.seconds]; exact lockLength_le failures) same
    rw [restarted, pending.seconds]
    have new : ∀ f ∈ reached sid entries, f.boot ≠ c.boot := by
      intro f mem equal
      exact same ((row.latest f mem (equal.trans here)).trans here.symm)
    have past : a.boot ∈ h.past := by
      rcases pending.until' with ⟨start, -⟩ | ⟨past, -⟩
      · rcases List.mem_cons.mp row.boot with now | past
        · exact absurd (now.trans here.symm) same
        · exact start ▸ past
      · exact past
    refine .inr ⟨past, fun equal => ?_, c, firstOf_new hit call new, rfl⟩
    rw [here] at equal
    exact budget.fresh (equal ▸ past)

theorem RowBudget.stamped (row : RowBudget h entries sid record) (hit : reaches sid e = true)
    (call : e.call.clock = some c) (here : c.boot = h.boot) (boot : next.boot = c.boot)
    (utc : next.utc = max record.utc c.utc)
    (failures : next.failures = min (trailOf sid (entries ++ [e])).failures (2 ^ 32 - 1))
    (pending : 5 ≤ (trailOf sid (entries ++ [e])).failures → ∃ a, (trailOf sid (entries ++ [e])).last = some a ∧
      Pending { h with store := t } (entries ++ [e]) sid next (trailOf sid (entries ++ [e])).failures a) :
    RowBudget { h with store := t } (entries ++ [e]) sid next where
  boot := by
    rw [boot, here]
    exact List.mem_cons_self
  failures := failures
  utc := by
    rw [reached_call hit call, utc]
    intro f mem
    rcases List.mem_append.mp mem with early | now
    · exact Int.le_trans (row.utc f early) (Int.le_max_left _ _)
    · rw [List.mem_singleton.mp now]
      exact Int.le_max_right _ _
  latest _ _ _ := boot.trans here
  pending := pending

theorem Budget.stamped (budget : Budget h entries sid) (hit : reaches sid e = true) (call : e.call.clock = some c)
    (here : c.boot = h.boot) (found : t.bindings.get sid = some next)
    (row : RowBudget { h with store := t } (entries ++ [e]) sid next) :
    Budget { h with store := t } (entries ++ [e]) sid where
  fresh := budget.fresh
  known := by
    rw [reached_call hit call]
    intro f mem
    rcases List.mem_append.mp mem with early | now
    · exact budget.known f early
    · rw [List.mem_singleton.mp now, here]
      exact List.mem_cons_self
  absent missing := by
    rw [show t.bindings.get sid = none from missing] at found
    cases found
  row other stored := by
    cases (show t.bindings.get sid = some other from stored).symm.trans found
    exact row

section Steps
variable [Wire] [Digests] [Protector]

omit [Wire] in
/-- An evaluated or refused check keeps the budget. -/
theorem Budget.check {expected : Authority} {factor : Factor} {useId : Uuid} {decision : Decision} {judged : Record}
    (budget : Budget h entries sid) (found : h.store.bindings.get sid = some record)
    (call : e.call = .verify expected factor c useId) (account : expected.sid = sid)
    (valid : c.valid = true) (here : c.boot = h.boot) (judgement : judge record factor c = .ok (decision, judged))
    (reply : e.reply = .decided decision) (stored : t.bindings.get sid = some (AccessStore.stamped judged c)) :
    Budget { h with store := t } (entries ++ [e]) sid := by
  have row := budget.row record found
  have timed : e.call.clock = some c := by rw [call]; rfl
  have hit : reaches sid e = true := by
    unfold reaches
    rw [call, reply]
    simp [account, judge_decision judgement]
  refine budget.stamped hit timed here stored ?_
  rcases judge_cases judgement with ⟨rfl, rfl⟩ | ⟨-, -, accepted, consumed, -, ⟨rfl, rfl, rfl⟩ | ⟨rfl, rfl, rfl⟩⟩
  · have trail : trailOf sid (entries ++ [e]) = trailOf sid entries := by
      rw [trailOf_append, advance, outcome, call, reply]
    refine row.stamped hit timed here rfl rfl ?_ fun many => ?_
    · rw [trail]
      exact row.failures
    · rw [trail] at many ⊢
      obtain ⟨a, last, pending⟩ := row.pending many
      exact ⟨a, last, pending.moved budget row valid hit timed here rfl rfl rfl⟩
  · have trail : trailOf sid (entries ++ [e]) = ⟨0, none⟩ := by
      rw [trailOf_append, advance, outcome, call, reply]
      dsimp only
      rw [if_pos account]
    refine row.stamped hit timed here rfl rfl ?_ fun many => ?_
    · rw [trail]
      rfl
    · rw [trail] at many
      exact absurd many (by decide)
  · have trail : trailOf sid (entries ++ [e]) = ⟨(trailOf sid entries).failures + 1, some c⟩ := by
      rw [trailOf_append, advance, outcome, call, reply]
      cases rollback record c <;> simp [account, Call.clock]
    have count : min (record.failures + 1) (2 ^ 32 - 1) = min ((trailOf sid entries).failures + 1) (2 ^ 32 - 1) := by
      rw [row.failures]
      omega
    have fields : ∀ r : Record, (punished r c).boot = r.boot ∧ (punished r c).utc = r.utc ∧
        (punished r c).failures = min (r.failures + 1) (2 ^ 32 - 1) := by
      intro r
      unfold punished
      dsimp only
      split <;> exact ⟨rfl, rfl, rfl⟩
    refine row.stamped hit timed here rfl ?_ ?_ fun many => ?_
    · exact congrArg (max · c.utc) (fields _).2.1
    · rw [trail]
      exact (fields _).2.2.trans count
    · rw [trail] at many ⊢
      refine ⟨c, rfl, ?_⟩
      have late : 5 ≤ min (record.failures + 1) (2 ^ 32 - 1) := by
        rw [count]
        dsimp only at many
        omega
      have seconds := lockLength_le ((trailOf sid entries).failures + 1)
      unfold Clock.valid at valid
      simp only [Bool.not_eq_true', Bool.or_eq_false_iff, decide_eq_false_iff_not] at valid
      unfold punished AccessStore.stamped
      dsimp only
      rw [if_pos late, count, lockLength_min]
      exact ⟨rfl, .inl ⟨rfl, by dsimp only; omega⟩⟩

/-- An activation hands the budget of the account on. -/
theorem Budget.activate {authority : Authority} {revision : Int} {enabled : Bool} {operation : Uuid}
    {facts : AccessRssFacts} {nonce : Nat} (budget : Budget h entries sid) (readable : Readable sid h.store)
    (call : e.call = .activate authority revision enabled operation facts c nonce) (account : authority.sid = sid)
    (here : c.boot = h.boot)
    (written : activation h.store authority revision enabled operation facts c nonce = .ok (some next))
    (reply : e.reply = .done ∨ ∃ error, e.reply = .unread error) (stored : t.bindings.get sid = some next) :
    Budget { h with store := t } (entries ++ [e]) sid := by
  have timed : e.call.clock = some c := by rw [call]; rfl
  have hit : reaches sid e = true := by
    unfold reaches
    rw [call]
    rcases reply with done | ⟨error, unread⟩
    · rw [done]
      exact decide_eq_true account
    · rw [unread]
      exact decide_eq_true account
  have trail : trailOf sid (entries ++ [e]) = trailOf sid entries := by
    rw [trailOf_append, advance, outcome, call]
  refine budget.stamped hit timed here stored ?_
  obtain ⟨plain, secret, recoverySecret, old, -, valid, -, -, -, -, -, -, loaded, replaced⟩ := activation_ok written
  rw [account] at loaded
  rcases replaceRecord_some replaced with ⟨rfl, rfl⟩ | ⟨before, rfl, rfl, -, -⟩
  · have missing : h.store.bindings.get sid = none := by
      cases found : h.store.bindings.get sid with
      | none => rfl
      | some row =>
        unfold load at loaded
        rw [found] at loaded
        dsimp only at loaded
        rw [if_neg (Nat.not_lt.mpr (readable row found))] at loaded
        split at loaded <;> cases loaded
    obtain ⟨clocks, fails⟩ := budget.absent missing
    refine ⟨?_, ?_, ?_, fun _ _ _ => here, ?_⟩
    · rw [show (freshRecord authority revision enabled plain secret recoverySecret facts c).boot = h.boot from here]
      exact List.mem_cons_self
    · rw [trail, fails]
      rfl
    · rw [reached_call hit timed, clocks]
      intro f mem
      rw [List.mem_singleton.mp mem]
      exact Int.le_refl _
    · rw [trail, fails]
      intro many
      exact absurd many (by decide)
  · have row := budget.row before (load_some.mp loaded).1
    refine row.stamped hit timed here rfl rfl ?_ fun many => ?_
    · rw [trail]
      exact row.failures
    · rw [trail] at many ⊢
      obtain ⟨a, last, pending⟩ := row.pending many
      exact ⟨a, last, pending.moved budget row valid hit timed here rfl rfl rfl⟩

variable [TableScan]

theorem Budget.step {event : HostEvent} {h' : Host} (budget : Budget h entries sid)
    (step : ReadableStep sid h event h') : Budget h' (entries ++ event.traced.toList) sid := by
  obtain ⟨readable, step⟩ := step
  cases step with
  | reboot fresh =>
    rw [show (HostEvent.reboot _).traced.toList = [] from rfl, List.append_nil]
    exact budget.reboot fresh
  | @call e t sampled step =>
    change Budget _ (entries ++ [e]) sid
    have same : ∀ {old new : Record}, h.store.bindings.get sid = some old → t.bindings.get sid = some new →
        new.boot = old.boot ∧ new.failures = old.failures ∧ new.utc = old.utc ∧
          new.lockSeconds = old.lockSeconds ∧ new.lockUntil = old.lockUntil → reaches sid e = false →
        Budget { h with store := t } (entries ++ [e]) sid := by
      intro old new found stored fields idle
      refine budget.idle idle (fun other here => ?_) fun missing => ?_
      · cases stored.symm.trans here
        exact ⟨old, found, fields⟩
      · rw [missing] at stored
        cases stored
    cases step_touch step sid with
    | kept same idle =>
      refine budget.idle idle (fun other here => ?_) fun missing => ?_
      · exact ⟨other, same ▸ here, rfl, rfl, rfl, rfl, rfl⟩
      · rwa [← same]
    | checked call account timed loaded _ _ judgement reply row =>
      exact budget.check (load_some.mp loaded).1 call account timed (sampled _ (by rw [call]; rfl)) judgement reply row
    | activated call account written reply row =>
      exact budget.activate readable call account (sampled _ (by rw [call]; rfl)) written reply row
    | configured loaded _ row idle | rotated loaded _ row idle =>
      exact same (load_some.mp loaded).1 row ⟨rfl, rfl, rfl, rfl, rfl⟩ idle
    | closed found row idle => exact same found row ⟨rfl, rfl, rfl, rfl, rfl⟩ idle

end Steps

/-! ## The throttle of whole runs -/

section Runs
variable [Wire] [Digests] [Protector]

omit [Wire] in
theorem Pending.waited {failures : Nat} {a : Clock} {factor : Factor} {decision : Decision} {judged : Record}
    (budget : Budget h entries sid) (pending : Pending h entries sid record failures a) (valid : c.valid = true)
    (here : c.boot = h.boot) (judgement : judge record factor c = .ok (decision, judged))
    (evaluated : decision ≠ .locked) :
    (a.boot = c.boot ∧ a.monotonic + lockLength failures ≤ c.monotonic) ∨
      (a.boot ≠ c.boot ∧ ∃ f, firstOf sid c.boot entries = some f ∧
        f.monotonic + lockLength failures ≤ c.monotonic) := by
  rcases judge_cases judgement with ⟨locked, -⟩ | ⟨-, waited, -⟩
  · exact absurd locked evaluated
  · by_cases same : record.boot = c.boot
    · have kept : deadline record c = record.lockUntil := by
        unfold deadline
        rw [if_pos same]
      rw [kept] at waited
      rcases pending.until' with ⟨start, counted⟩ | ⟨past, differ, f, first, counted⟩
      · exact .inl ⟨start.symm.trans same, counted ▸ waited⟩
      · refine .inr ⟨fun equal => ?_, f, same ▸ first, counted ▸ waited⟩
        rw [equal, here] at past
        exact budget.fresh past
    · have seconds := lockLength_le failures
      have positive := lockLength_pos failures
      rw [deadline_restarts valid (by rw [pending.seconds]; exact seconds) same, pending.seconds] at waited
      omega

omit [Wire] [Digests] [Protector] in
theorem Throttled.extend (before : Throttled sid entries)
    (waits : ∀ a c, (outcome sid e).isSome = true → (trailOf sid entries).last = some a → e.call.clock = some c →
      5 ≤ (trailOf sid entries).failures →
      (a.boot = c.boot ∧ a.monotonic + lockLength (trailOf sid entries).failures ≤ c.monotonic) ∨
        (a.boot ≠ c.boot ∧ ∃ f, firstOf sid c.boot entries = some f ∧
          f.monotonic + lockLength (trailOf sid entries).failures ≤ c.monotonic))
    (forward : ∀ expected code clock useId, e.call = .verify expected (.totp code) clock useId →
      outcome sid e = some true → ∀ earlier ∈ reached sid entries, earlier.utc ≤ clock.utc) :
    Throttled sid (entries ++ [e]) where
  waits := by
    intro first last between check rest a c split failed idle evaluated sampled now many
    rcases List.eq_nil_or_concat rest with rfl | ⟨rest', final, rfl⟩
    · have cut : entries ++ [e] = (first ++ last :: between) ++ [check] := by simpa using split
      obtain ⟨rfl, equal⟩ := List.append_inj' cut rfl
      cases equal
      have trail : trailOf sid (first ++ last :: between) = trailOf sid (first ++ [last]) := by
        rw [List.append_cons]
        exact trailOf_idle idle
      have start : (trailOf sid (first ++ [last])).last = last.call.clock := by
        rw [trailOf_append, advance, failed]
      rw [trail] at waits
      exact waits a c evaluated (start.trans sampled) now many
    · have cut : entries ++ [e] = (first ++ last :: (between ++ check :: rest')) ++ [final] := by simpa using split
      obtain ⟨rfl, -⟩ := List.append_inj' cut rfl
      exact before.waits first last between check rest' a c rfl failed idle evaluated sampled now many
  forward := by
    intro first check rest expected code clock useId split call accepted
    rcases List.eq_nil_or_concat rest with rfl | ⟨rest', final, rfl⟩
    · obtain ⟨rfl, equal⟩ := List.append_inj' split rfl
      cases equal
      exact forward expected code clock useId call accepted
    · have cut : entries ++ [e] = (first ++ check :: rest') ++ [final] := by simpa using split
      obtain ⟨rfl, -⟩ := List.append_inj' cut rfl
      exact before.forward first check rest' expected code clock useId rfl call accepted

variable [TableScan]

/-- One step of a readable run keeps the throttle. -/
theorem Throttled.step {event : HostEvent} {h' : Host} (before : Throttled sid entries) (budget : Budget h entries sid)
    (step : ReadableStep sid h event h') : Throttled sid (entries ++ event.traced.toList) := by
  obtain ⟨-, step⟩ := step
  cases step with
  | reboot fresh =>
    rw [show (HostEvent.reboot _).traced.toList = [] from rfl, List.append_nil]
    exact before
  | @call e t sampled step =>
    change Throttled sid (entries ++ [e])
    have unchecked : outcome sid e = none → Throttled sid (entries ++ [e]) := by
      intro none
      apply before.extend
      · intro a c evaluated
        rw [none] at evaluated
        cases evaluated
      · intro expected code clock useId _ accepted
        rw [none] at accepted
        cases accepted
    cases step_touch step sid with
    | kept _ idle | configured _ _ _ idle | rotated _ _ _ idle | closed _ _ idle => exact unchecked (outcome_none idle)
    | activated call =>
      apply unchecked
      rw [outcome, call]
    | @checked expected factor clock useId record judged decision call account timed loaded _ _ judgement reply row =>
      have here : clock.boot = h.boot := sampled _ (by rw [call]; rfl)
      have row := budget.row record (load_some.mp loaded).1
      apply before.extend
      · intro a c evaluated last now many
        rw [call] at now
        cases now
        obtain ⟨a', last', pending⟩ := row.pending many
        cases last.symm.trans last'
        refine pending.waited budget timed here judgement fun locked => ?_
        rw [outcome, call, reply, locked] at evaluated
        cases evaluated
      · intro expected' code clock' useId' call' accepted earlier mem
        rw [call] at call'
        cases call'
        rcases judge_cases judgement with ⟨rfl, -⟩ | ⟨-, -, passed, consumed, verdict, ⟨rfl, -, -⟩ | ⟨-, rfl, -⟩⟩
        · rw [outcome, call, reply] at accepted
          cases accepted
        · have back := (checkFactor_totp verdict).1
          unfold rollback at back
          rw [Bool.or_eq_false_iff, decide_eq_false_iff_not, Int.not_lt] at back
          exact Int.le_trans (row.utc earlier mem) back.1
        · rw [outcome, call, reply] at accepted
          cases back : rollback record clock <;> simp [back, account] at accepted

/-- Guessing is throttled in every run in which the body of the account stays readable, and only an accepted
factor resets the failures. -/
theorem guessing_throttled {boot : Uuid} {past : List Uuid} {events : List HostEvent} {host : Host}
    (fresh : boot ∉ past) (run : Runs (ReadableStep sid) ⟨create, boot, past⟩ events host) :
    Throttled sid (calls events) ∧ ∀ record, host.store.bindings.get sid = some record →
      record.failures = min (trailOf sid (calls events)).failures (2 ^ 32 - 1) := by
  have all : Budget host (calls events) sid ∧ Throttled sid (calls events) := by
    refine run.history (fun events h => Budget h (calls events) sid ∧ Throttled sid (calls events)) ?_ ?_
    · refine ⟨⟨fresh, fun _ mem => absurd mem List.not_mem_nil, fun _ => ⟨rfl, rfl⟩, fun record found => ?_⟩, ?_, ?_⟩
      · cases found
      · intro first last between check rest a c split
        exact absurd split (by simp [calls])
      · intro first check rest expected code clock useId split
        exact absurd split (by simp [calls])
    · rintro done h event h' ⟨budget, throttled⟩ step
      have trace : calls (done ++ [event]) = calls done ++ event.traced.toList := by
        unfold calls
        rw [List.filterMap_append]
        cases event <;> rfl
      rw [trace]
      exact ⟨budget.step step, throttled.step budget step⟩
  exact ⟨all.2, fun record found => (all.1.row record found).failures⟩

end Runs

end Budget

/-! ## A device whose only account is guessed at -/

section Samples

@[reducible] def sampleWire : Wire where
  accountValid _ _ := true
  receiptValid _ := true
  credentialTaskValid _ := true
  accessTaskValid _ := true
  whfbValid _ _ _ := true
  sourceSize _ := 16
  factsSize _ := 200
  whfbSize _ := 200

@[reducible] def sampleDigests : Digests where
  hmacSha1 _ message := List.replicate 19 (message.getLast?.getD 0) ++ [0]
  hmacSha256 key _ := key
  sha256 message := List.replicate 32 (message.getLast?.getD 0)
  sha256_length _ := List.length_replicate
  authorityBytes _ := []

/-- A sealed body names the length of its content and is padded. -/
@[reducible] def sampleProtector : Protector where
  sealBytes nonce plain :=
    if plain.length < 256 then .ok (UInt8.ofNat plain.length :: (plain ++ List.replicate nonce 255))
    else .error .invalid
  openBytes
    | length :: rest => .ok (rest.take length.toNat)
    | [] => .error .invalid
  candidateBytes plain :=
    plain.secret ++ (plain.recovery.toList.map fun c => UInt8.ofNat c.toNat) ++ [UInt8.ofNat plain.confirmedStep.toNat]
  candidateOf bytes := some
    { secret := bytes.take 20
      recovery := String.ofList (((bytes.drop 20).take 43).map fun b => Char.ofNat b.toNat)
      confirmedStep := (bytes.getLast?.getD 0).toNat }

@[reducible] def sampleScan : TableScan := ⟨fun keys => keys, fun _ => .refl _⟩

attribute [local instance] sampleWire sampleDigests sampleProtector sampleScan

def sampleRegistration : Registration := ⟨3, "d", 4, 1⟩

def sampleAuthority (sid : String) (binding : Uuid) (bindingGeneration factorGeneration : Int) : Authority :=
  ⟨1, 2, .machine, "u", "j", 3, "d", 4, 1, binding, bindingGeneration, factorGeneration, sid⟩

def sampleReceipt (a : Authority) (version : Int) : CredentialReceipt :=
  ⟨.rssLogin a.binding a.bindingGeneration a.sid, 9, version⟩

def sampleFacts (a : Authority) : AccessRssFacts := ⟨a.factorGeneration, sampleReceipt a 1⟩

def sampleCandidate (secret : UInt8) (recovery : Char) (step : Int) : Candidate :=
  ⟨List.replicate 20 secret, String.ofList (List.replicate 42 'A' ++ [recovery]), some step⟩

def sampleRecovery : String := (sampleCandidate 7 'A' 0).recovery

def sampleClock (utc : Int) (monotonic : Nat) (boot : Uuid) : Clock := ⟨utc, monotonic, boot⟩

def activateCall (a : Authority) (revision : Int) (operation : Uuid) (clock : Clock) : Call :=
  .activate a revision true operation (sampleFacts a) clock 0

def setupCalls : List Call :=
  [.bindRegistration sampleRegistration, .stage 1 (sampleCandidate 7 'A' 100) 0,
    activateCall (sampleAuthority "a" 5 1 1) 1 1 (sampleClock 3000 1000 1)]

def guessCall : Call := .verify (sampleAuthority "a" 5 1 1) (.totp "wrong") (sampleClock 3000 1000 1) 0

def guessCalls : List Call := List.replicate 5 guessCall

def laterCalls : List Call := [
  .verify (sampleAuthority "a" 5 1 1) (.recovery sampleRecovery) (sampleClock 3100 5 2) 11,
  .verify (sampleAuthority "a" 5 1 1) (.recovery sampleRecovery) (sampleClock 3200 35 2) 12]

def readable (sid : String) (s : Store) : Bool := (s.bindings.get sid).all fun record => record.size ≤ 32768

theorem readable_iff {sid : String} {s : Store} : readable sid s = true ↔ Readable sid s := by
  unfold readable Readable
  simp only [Option.all_eq_true, decide_eq_true_eq]

theorem sampled_readable {sid : String} {boot : Uuid} {past : List Uuid} {list : List Call} {s : Store}
    (ok : sampled (readable sid) boot s list = true) : Runs (ReadableStep sid) ⟨s, boot, past⟩
      ((runCalls s list).1.map .call) ⟨(runCalls s list).2, boot, past⟩ :=
  (sampled_runs (readable sid) list s ok).mono fun _ _ _ step => ⟨readable_iff.mp step.1, step.2⟩

def guessed : Store := (runCalls create (setupCalls ++ guessCalls)).2

theorem guessing_throttled_sample :
    Throttled "a" ((runCalls create (setupCalls ++ guessCalls)).1 ++ (runCalls guessed laterCalls).1) ∧
      (runCalls guessed laterCalls).1.map (·.reply) = [.decided .locked, .decided .accepted] := by
  have first : Runs (ReadableStep "a") ⟨create, 1, []⟩ ((runCalls create (setupCalls ++ guessCalls)).1.map .call)
      ⟨guessed, 1, []⟩ := sampled_readable (by decide +kernel)
  have reboot : ∀ s, Readable "a" s → ReadableStep "a" ⟨s, 1, []⟩ (.reboot 2) ⟨s, 2, [1]⟩ :=
    fun s ok => ⟨ok, .reboot (by simp)⟩
  have kept : Readable "a" guessed := readable_iff.mp (by decide +kernel)
  have second : Runs (ReadableStep "a") ⟨guessed, 2, [1]⟩ ((runCalls guessed laterCalls).1.map .call)
      ⟨(runCalls guessed laterCalls).2, 2, [1]⟩ := sampled_readable (by decide +kernel)
  have throttled := (guessing_throttled (by decide) ((first.trans (Runs.one (reboot _ kept))).trans second)).1
  have entries : ∀ list : List Entry, list.filterMap (HostEvent.traced ∘ HostEvent.call) = list := by
    intro list
    exact List.filterMap_some
  simp only [calls, List.filterMap_append, List.filterMap_map, entries] at throttled
  exact ⟨throttled, by decide +kernel⟩

def resetCalls : List Call := [
  .rotateRecovery ⟨3, "d", 4, 1, .start, .rotateRssLogin 5 1 "a"⟩ (.rssLogin 5 1 "a") sampleRecovery
    (sampleReceipt (sampleAuthority "a" 5 1 1) 2) 9000,
  .stage 2 (sampleCandidate 8 'A' 100) 0,
  activateCall (sampleAuthority "a" 5 1 2) 2 2 (sampleClock 3000 1000 1)]

def checkCall : Call := .verify (sampleAuthority "a" 5 1 2) (.recovery sampleRecovery) (sampleClock 3000 1000 1) 13

def resetEntries : List Entry :=
  resetCalls.zipWith (fun call used => ⟨call, .done, used⟩) [none, some (List.replicate 20 8, 100), none]

/-- A record that is stored but not selected loses the failures of its account. -/
theorem guessing_unthrottled :
    Runs HostStep ⟨create, 1, []⟩
      ((runCalls create (setupCalls ++ guessCalls ++ resetCalls ++ [checkCall])).1.map .call)
      ⟨(runCalls create (setupCalls ++ guessCalls ++ resetCalls ++ [checkCall])).2, 1, []⟩ ∧
      ¬Throttled "a" (runCalls create (setupCalls ++ guessCalls ++ resetCalls ++ [checkCall])).1 := by
  refine ⟨(sampled_runs (fun _ => true) _ _ (by decide +kernel)).mono fun _ _ _ step => step.2, ?_⟩
  have trace : (runCalls create (setupCalls ++ guessCalls ++ resetCalls ++ [checkCall])).1 =
      ((runCalls create setupCalls).1 ++ List.replicate 4 ⟨guessCall, .decided .denied, none⟩) ++
        ⟨guessCall, .decided .denied, none⟩ :: (resetEntries ++ [⟨checkCall, .decided .accepted, none⟩]) := by
    decide +kernel
  intro throttled
  have waited := throttled.waits _ _ _ _ _ (sampleClock 3000 1000 1) (sampleClock 3000 1000 1) trace
    (by decide +kernel) (by decide +kernel) (by decide +kernel) rfl rfl (by decide +kernel)
  rcases waited with ⟨-, early⟩ | ⟨differ, -⟩
  · exact absurd early (by decide +kernel)
  · exact differ rfl

end Samples

end RssMdmAgent.FactorThrottle
