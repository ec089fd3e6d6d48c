import RssMdmAgent.TelemetryGaps
import RssMdmAgent.TransitionRuns

set_option autoImplicit false

/-! # Every recorded loss is in one report at most -/

namespace RssMdmAgent.TelemetryGaps
open OrderedRows Tally TransitionRuns GapWire

section Model
variable [GapWire]

inductive Call where
  | record (owner : Owner) (reason : Reason) (span : Span)
  | freezeGaps (owner : Owner) (createdAt : Int) (fresh : Uuid)
  | pendingGap (owner : Owner) (now : Int)
  | attemptingGap (p : PendingGap) (now : Int)
  | retryGap (p : PendingGap) (now : Int) (delay : Option Nat)
  | acknowledgeGap (p : PendingGap) (r : TelemetryGapReceipt)
  | rejectGap (p : PendingGap)
  | crash

def GapStore.apply (s : GapStore) : Call → Except Error GapStore
  | .record owner reason span => s.record owner reason span
  | .freezeGaps owner createdAt fresh => s.freezeGaps owner createdAt fresh
  | .pendingGap owner now => (s.pendingGap owner now).map fun _ => s
  | .attemptingGap p now => .ok (s.attemptingGap p now)
  | .retryGap p now delay => .ok (s.retryGap p now delay)
  | .acknowledgeGap p r => s.acknowledgeGap p r
  | .rejectGap p => .ok (s.rejectGap p)
  | .crash => .ok s

def GapStore.after (s : GapStore) (call : Call) : GapStore :=
  match s.apply call with
  | .ok t => t
  | .error _ => s

structure Act where
  before : GapStore
  call : Call

def Step (s : GapStore) (a : Act) (t : GapStore) : Prop := a.before = s ∧ s.after a.call = t

abbrev Loss := GapKey × Nat

def Act.recorded (a : Act) : List Loss :=
  match a.call, a.before.apply a.call with
  | .record owner reason span, .ok _ => if span.count = 0 then [] else [(⟨owner, key reason⟩, span.count)]
  | _, _ => []

def Act.refused (a : Act) : List Loss := a.recorded.filter fun loss => a.before.refuses loss.1

/-- Reports that a call ends because they were acknowledged or rejected or have expired. -/
def Act.settled (a : Act) : List ReportRow :=
  match a.call, a.before.apply a.call with
  | .freezeGaps owner createdAt _, .ok _ =>
    a.before.reports.select fun row => decide (row.owner = owner ∧ row.expires ≤ createdAt)
  | .acknowledgeGap p _, .ok _ => a.before.reports.select p.selects
  | .rejectGap p, .ok _ => a.before.reports.select p.selects
  | _, _ => []

def Act.current (a : Act) : Option Owner :=
  match a.call, a.before.apply a.call with
  | .freezeGaps owner _ _, .ok _ => some owner
  | _, _ => none

def Act.removes (a : Act) (row : ReportRow) : Prop :=
  (∃ settled ∈ a.settled, settled.id = row.id) ∨ ∃ owner, a.current = some owner ∧ owner ≠ row.owner

def GapStore.pendingCount (s : GapStore) (key : GapKey) : Nat :=
  ((s.pending.get key).map fun row => row.span.count).getD 0

def Act.saturates (a : Act) (key : GapKey) : Prop :=
  ∃ loss ∈ a.recorded, loss ∉ a.refused ∧ loss.1 = key ∧ maxI64 < a.before.pendingCount key + loss.2

instance (a : Act) (key : GapKey) : Decidable (a.saturates key) :=
  inferInstanceAs (Decidable (∃ loss ∈ a.recorded, _))

def ReportRow.losses (row : ReportRow) : List Loss :=
  match decode row.body with
  | some report => report.gaps.map fun gap => (⟨report.owner, key gap.reason⟩, gap.count)
  | none => []

def reported (rows : List ReportRow) (key : GapKey) : Nat := total (rows.flatMap ReportRow.losses) key

def GapStore.frozenCount (s : GapStore) (key : GapKey) : Nat := reported s.reports.entries key

structure History where
  recorded : List Loss
  refused : List Loss
  settled : List ReportRow
  current : List Owner

def history (acts : List Act) : History :=
  ⟨acts.flatMap Act.recorded, acts.flatMap Act.refused, acts.flatMap Act.settled,
    acts.filterMap Act.current⟩

/-- The one place of every recorded loss: still pending, in the stored report with an identity, in a
settled report, given up when another registration became current, or refused. -/
structure Ledger where
  pending : List Loss
  share : Uuid → List Loss
  settled : List (ReportRow × List Loss)
  replaced : List Loss
  refused : List Loss

/-- A report says what its losses add up to, and they are all of its own registration. -/
structure Reports (row : ReportRow) (losses : List Loss) : Prop where
  sealed : ∃ report, row.body = encode report ∧ decode row.body = some report ∧
    row.digest = GapWire.hash row.body ∧ report.reportId = row.id ∧ report.owner = row.owner ∧
    row.expires = (report.createdAt + window).bmod (2 ^ 64)
  owned : ∀ loss ∈ losses, loss.1.owner = row.owner
  counts : ∀ key, total row.losses key = min maxI64 (total losses key)

/-- The ledger accounts for the history and agrees with the tables. -/
structure Balanced (h : History) (s : GapStore) (l : Ledger) : Prop where
  placed : h.recorded.Perm (l.pending ++ s.reports.entries.flatMap (fun row => l.share row.id) ++
    l.settled.flatMap (·.2) ++ l.replaced ++ l.refused)
  pending : ∀ key, s.pendingCount key = min maxI64 (total l.pending key)
  frozen : ∀ row ∈ s.reports.entries, Reports row (l.share row.id)
  settled : ∀ entry ∈ l.settled, Reports entry.1 entry.2
  settledRows : l.settled.map (·.1) = h.settled
  replaced : ∀ loss ∈ l.replaced, ∃ owner ∈ h.current, owner ≠ loss.1.owner
  refused : l.refused = h.refused
  known : ∀ row ∈ s.pending.entries, ∃ reason, row.key.reason = key reason

section Tables
variable {s t : GapStore} {owner : Owner} {span : Span} {createdAt : Int} {key : GapKey}

omit [GapWire] in
theorem total_rows {κ ρ : Type} [DecidableEq κ] {field : ρ → κ} (rows : Rows field) (amount : ρ → Nat)
    (k : κ) : total (rows.entries.map fun row => (field row, amount row)) k =
      ((rows.get k).map amount).getD 0 := by
  obtain ⟨entries, distinct⟩ := rows
  unfold Rows.get
  induction entries with
  | nil => rfl
  | cons row rest ih =>
    obtain ⟨absent, distinct⟩ := List.nodup_cons.mp distinct
    rw [List.map_cons, total_cons, List.find?_cons]
    by_cases same : field row = k
    · subst same
      have none : total (rest.map fun row => (field row, amount row)) (field row) = 0 := by
        apply total_of_ne
        intro entry mem
        obtain ⟨other, placed, rfl⟩ := List.mem_map.mp mem
        exact fun same => absent (List.mem_map.mpr ⟨other, placed, same⟩)
      simp [none]
    · simpa [same] using ih distinct

omit [GapWire] in
theorem pendingCount_fence : (s.fence owner createdAt).pendingCount key =
    if key.owner = owner then s.pendingCount key else 0 := by
  unfold GapStore.pendingCount GapStore.fence
  rw [Rows.get_retain]
  cases found : s.pending.get key with
  | none => simp
  | some row =>
    have same := Rows.get_key found
    subst same
    by_cases own : row.key.owner = owner <;> simp [own, Option.filter_some]

theorem gap_frame {reason : Reason} (h : s.gap reason span = .ok t) :
    t.pending = s.pending ∧ t.reports = s.reports := by
  unfold GapStore.gap at h
  split_ifs at h
  · cases h
    exact ⟨rfl, rfl⟩
  · cases h
    exact ⟨rfl, rfl⟩

theorem gap_count {reason : Reason} (h : s.gap reason span = .ok t) : span.count ≤ maxI64 := by
  unfold GapStore.gap at h
  split_ifs at h with none refused
  · omega
  · omega

theorem record_cases {reason : Reason} (h : s.record owner reason span = .ok t) :
    t.reports = s.reports ∧ span.count ≤ maxI64 ∧
      ((span.count = 0 ∧ t.pending = s.pending) ∨
        (span.count ≠ 0 ∧ s.refuses ⟨owner, GapWire.key reason⟩ = true ∧ t.pending = s.pending) ∨
        (span.count ≠ 0 ∧ s.refuses ⟨owner, GapWire.key reason⟩ = false ∧
          t.pending = (s.accumulate ⟨owner, GapWire.key reason⟩ span).pending)) := by
  unfold GapStore.record at h
  split at h
  · cases h
  cases told : s.gap reason span with
  | error e =>
    rw [told] at h
    cases h
  | ok middle =>
    rw [told] at h
    obtain ⟨pending, reports⟩ := gap_frame told
    have refuses : middle.refuses ⟨owner, GapWire.key reason⟩ = s.refuses ⟨owner, GapWire.key reason⟩ := by
      unfold GapStore.refuses
      rw [pending]
    have bound := gap_count told
    change (if span.count = 0 then _ else _) = _ at h
    split_ifs at h with none full
    · cases h
      exact ⟨reports, bound, .inl ⟨none, pending⟩⟩
    · cases h
      exact ⟨reports, bound, .inr (.inl ⟨none, refuses ▸ full, pending⟩)⟩
    · cases h
      refine ⟨reports, bound, .inr (.inr ⟨none, ?_, ?_⟩)⟩
      · rw [← refuses]
        simpa using full
      · unfold GapStore.accumulate
        rw [pending]

omit [GapWire] in
theorem pendingCount_accumulate {other : GapKey} (bound : span.count ≤ maxI64) :
    (s.accumulate key span).pendingCount other =
      if other = key then raise maxI64 (s.pendingCount key) span.count else s.pendingCount other := by
  unfold GapStore.pendingCount GapStore.accumulate
  rw [Rows.get_set]
  by_cases same : other = key
  · subst same
    rw [if_pos rfl, if_pos rfl]
    cases s.pending.get other with
    | none =>
      have exact : raise maxI64 0 span.count = 0 + span.count := raise_exact (by omega)
      simp [exact]
    | some row => rfl
  · rw [if_neg same, if_neg same]

omit [GapWire] in
theorem total_reasons : total ((s.reasons owner).map fun row => (row.key, row.span.count)) key =
    if key.owner = owner then s.pendingCount key else 0 := by
  have sorted : (s.reasons owner).Perm (s.pending.entries.filter fun row => decide (row.key.owner = owner)) :=
    List.mergeSort_perm _ _
  have commute : (s.pending.entries.filter fun row => decide (row.key.owner = owner)).map
      (fun row => (row.key, row.span.count)) =
      (s.pending.entries.map fun row => (row.key, row.span.count)).filter
        fun entry => decide (entry.1.owner = owner) := by
    rw [List.filter_map]
    rfl
  have chosen := @total_filter _ _ (s.pending.entries.map fun row => (row.key, row.span.count)) key
    fun k => decide (k.owner = owner)
  rw [total_perm (sorted.map _), commute, chosen, total_rows]
  simp only [decide_eq_true_eq]
  rfl

omit [GapWire] in
theorem mem_reasons {row : PendingRow} :
    row ∈ s.reasons owner ↔ row ∈ s.pending.entries ∧ row.key.owner = owner := by
  unfold GapStore.reasons
  rw [List.mem_mergeSort, Rows.mem_select, decide_eq_true_eq]

theorem gaps_of_rows {rows : List PendingRow} {gaps : List (TelemetryGap Reason)}
    (known : ∀ row ∈ rows, row.key.owner = owner ∧ ∃ reason, row.key.reason = GapWire.key reason)
    (h : rows.mapM PendingRow.gap = .ok gaps) :
    gaps.map (fun gap => ((⟨owner, GapWire.key gap.reason⟩ : GapKey), gap.count)) =
      rows.map fun row => (row.key, row.span.count) := by
  induction rows generalizing gaps with
  | nil =>
    cases h
    rfl
  | cons row rest ih =>
    obtain ⟨⟨own, reason, same⟩, later⟩ := List.forall_mem_cons.mp known
    have first : row.gap = .ok ⟨reason, row.span.count, row.span.first, row.span.last⟩ := by
      unfold PendingRow.gap
      rw [same, fromKey_key]
    rw [List.mapM_cons, first] at h
    cases others : rest.mapM PendingRow.gap with
    | error e =>
      rw [others] at h
      cases h
    | ok found =>
      rw [others] at h
      cases h
      have whole : (⟨owner, GapWire.key reason⟩ : GapKey) = row.key := by
        rw [← own, ← same]
      rw [List.map_cons, List.map_cons, ih later others, whole]

theorem freezeGaps_cases {fresh : Uuid} (h : s.freezeGaps owner createdAt fresh = .ok t) :
    t = s.fence owner createdAt ∨
      ∃ gaps, ((s.fence owner createdAt).reasons owner).mapM PendingRow.gap = .ok gaps ∧
        validate ⟨fresh, owner, createdAt, gaps⟩ = true ∧
        (s.fence owner createdAt).reports.has fresh = false ∧
        t.reports = (s.fence owner createdAt).reports.set (.of ⟨fresh, owner, createdAt, gaps⟩) ∧
        t.pending = (s.fence owner createdAt).pending.retain fun row => decide (row.key.owner ≠ owner) := by
  unfold GapStore.freezeGaps at h
  split at h
  · cases h
  dsimp only at h
  split at h
  · cases h
    exact .inl rfl
  split at h
  · cases h
    exact .inl rfl
  cases made : ((s.fence owner createdAt).reasons owner).mapM PendingRow.gap with
  | error e =>
    rw [made] at h
    cases h
  | ok gaps =>
    rw [made] at h
    right
    refine ⟨gaps, rfl, ?_⟩
    by_cases valid : validate ⟨fresh, owner, createdAt, gaps⟩ = true
    · by_cases taken : (s.fence owner createdAt).reports.has fresh = true
      · simp [valid, taken, bind, Except.bind, throw, throwThe, MonadExceptOf.throw] at h
      · simp [valid, taken, bind, Except.bind, pure, Except.pure] at h
        subst h
        exact ⟨valid, by simpa using taken, rfl, by simp⟩
    · simp [valid, bind, Except.bind, throw, throwThe, MonadExceptOf.throw] at h

end Tables

section Balance
variable {h : History} {s t : GapStore} {l : Ledger} {a : Act} {key : GapKey}

def History.add (h : History) (a : Act) : History :=
  ⟨h.recorded ++ a.recorded, h.refused ++ a.refused, h.settled ++ a.settled,
    h.current ++ a.current.toList⟩

theorem history_append (acts : List Act) : history (acts ++ [a]) = (history acts).add a := by
  unfold history History.add
  cases current : a.current <;> simp [current]

structure Ledger.Exact (l : Ledger) (s : GapStore) (key : GapKey) : Prop where
  pending : total l.pending key ≤ maxI64
  frozen : ∀ row ∈ s.reports.entries, total (l.share row.id) key ≤ maxI64
  settled : ∀ entry ∈ l.settled, total entry.2 key ≤ maxI64

def GivesUp (a : Act) (l l' : Ledger) : Prop :=
  ∃ extra, l'.replaced = l.replaced ++ extra ∧
    ∀ loss ∈ extra, ∃ owner, a.current = some owner ∧ owner ≠ loss.1.owner

structure Advance (h : History) (s : GapStore) (l : Ledger) (a : Act) (t : GapStore) (l' : Ledger) :
    Prop where
  balanced : Balanced (h.add a) t l'
  givesUp : GivesUp a l l'
  exact : ∀ key, ¬ a.saturates key → l.Exact s key → l'.Exact t key

theorem Balanced.start : Balanced (history []) .empty ⟨[], fun _ => [], [], [], []⟩ where
  placed := .nil
  pending _ := by simp [GapStore.pendingCount, GapStore.empty, Rows.get_empty]
  frozen row mem := by cases mem
  settled entry mem := by cases mem
  settledRows := rfl
  replaced loss mem := by cases mem
  refused := rfl
  known row mem := by cases mem

theorem Balanced.quiet (b : Balanced h s l) (pending : t.pending = s.pending)
    (reports : t.reports = s.reports) (recorded : a.recorded = []) (settled : a.settled = [])
    (current : a.current = none) : Advance h s l a t l := by
  have same : h.add a = h := by
    unfold History.add Act.refused
    simp [recorded, settled, current]
  refine ⟨?_, ⟨[], by simp, by simp⟩, fun key _ exact => ⟨exact.pending, ?_, exact.settled⟩⟩
  · rw [same]
    constructor
    · rw [reports]
      exact b.placed
    · intro key
      rw [← b.pending key]
      unfold GapStore.pendingCount
      rw [pending]
    · rw [reports]
      exact b.frozen
    · exact b.settled
    · exact b.settledRows
    · exact b.replaced
    · exact b.refused
    · rw [pending]
      exact b.known
  · rw [reports]
    exact exact.frozen

theorem Act.recorded_record {owner : Owner} {reason : Reason} {span : Span}
    (call : a.call = .record owner reason span) (told : a.before.apply a.call = .ok t)
    (some : span.count ≠ 0) : a.recorded = [(⟨owner, GapWire.key reason⟩, span.count)] := by
  unfold Act.recorded
  rw [call] at told ⊢
  rw [told]
  exact if_neg some

theorem Balanced.refuse (b : Balanced h s l) (pending : t.pending = s.pending)
    (reports : t.reports = s.reports) (refused : a.refused = a.recorded) (settled : a.settled = [])
    (current : a.current = none) :
    Advance h s l a t { l with refused := l.refused ++ a.recorded } := by
  refine ⟨?_, ⟨[], by simp, by simp⟩, fun key _ exact => ⟨exact.pending, ?_, exact.settled⟩⟩
  · constructor
    · have placed := b.placed.append_right a.recorded
      rw [reports]
      simpa only [History.add, List.append_assoc] using placed
    · intro key
      rw [← b.pending key]
      unfold GapStore.pendingCount
      rw [pending]
    · rw [reports]
      exact b.frozen
    · exact b.settled
    · simpa [History.add, settled] using b.settledRows
    · simpa [History.add, current] using b.replaced
    · simp only [History.add, refused, b.refused]
    · rw [pending]
      exact b.known
  · rw [reports]
    exact exact.frozen

/-- A loss that joins its pending total. -/
theorem Balanced.accumulate (b : Balanced h s l) {span : Span} {reason : Reason} {owner : Owner}
    (before : a.before = s) (bound : span.count ≤ maxI64)
    (pending : t.pending = (s.accumulate ⟨owner, GapWire.key reason⟩ span).pending)
    (reports : t.reports = s.reports)
    (recorded : a.recorded = [(⟨owner, GapWire.key reason⟩, span.count)]) (refused : a.refused = [])
    (settled : a.settled = []) (current : a.current = none) :
    Advance h s l a t { l with pending := l.pending ++ a.recorded } := by
  have count : ∀ key, t.pendingCount key = min maxI64 (total (l.pending ++ a.recorded) key) := by
    intro key
    have same : t.pendingCount key = (s.accumulate ⟨owner, GapWire.key reason⟩ span).pendingCount key := by
      unfold GapStore.pendingCount
      rw [pending]
    rw [same, pendingCount_accumulate bound, recorded, total_append, total_cons, total_nil]
    by_cases here : key = ⟨owner, GapWire.key reason⟩
    · subst here
      rw [if_pos rfl, if_pos rfl, b.pending, raise_min]
      rfl
    · rw [if_neg here, if_neg (Ne.symm here), b.pending]
      rfl
  refine ⟨?_, ⟨[], by simp, by simp⟩, fun key fits exact => ⟨?_, ?_, exact.settled⟩⟩
  · constructor
    · rw [reports]
      have placed := b.placed.append_right a.recorded
      refine placed.trans ?_
      rw [List.perm_iff_count]
      intro loss
      simp only [List.count_append]
      omega
    · exact count
    · rw [reports]
      exact b.frozen
    · exact b.settled
    · simpa [History.add, settled] using b.settledRows
    · simpa [History.add, current] using b.replaced
    · simpa [History.add, refused] using b.refused
    · intro row mem
      rw [pending] at mem
      rcases Rows.mem_set.mp mem with rfl | ⟨mem, _⟩
      · exact ⟨reason, rfl⟩
      · exact b.known row mem
  · show total (l.pending ++ a.recorded) key ≤ maxI64
    have old := b.pending key
    have small := exact.pending
    rw [total_append]
    by_cases here : key = ⟨owner, GapWire.key reason⟩
    · have room : ¬ maxI64 < s.pendingCount key + span.count := by
        intro beyond
        apply fits
        exact ⟨_, by rw [recorded]; exact List.mem_singleton.mpr rfl, by simp [refused], here.symm, by
          rw [before]
          exact beyond⟩
      rw [recorded, total_cons, total_nil, here, if_pos rfl, ← here]
      omega
    · rw [recorded, total_cons, total_nil, if_neg (Ne.symm here)]
      omega
  · rw [reports]
    exact exact.frozen

/-- Reports that are removed take their losses with them. -/
theorem Balanced.settle (b : Balanced h s l) (gone : ReportRow → Bool) (pending : t.pending = s.pending)
    (reports : t.reports = s.reports.retain fun row => !gone row) (recorded : a.recorded = [])
    (settled : a.settled = s.reports.select gone) (current : a.current = none) :
    Advance h s l a t { l with
      settled := l.settled ++ (s.reports.select gone).map fun row => (row, l.share row.id) } := by
  have entries : t.reports.entries = s.reports.entries.filter fun row => !gone row := by
    rw [reports]
    rfl
  have refused : a.refused = [] := by
    unfold Act.refused
    rw [recorded]
    rfl
  refine ⟨?_, ⟨[], by simp, by simp⟩, fun key _ exact => ⟨exact.pending, ?_, ?_⟩⟩
  · constructor
    · rw [entries]
      have parts := flatMap_partition s.reports.entries gone fun row => l.share row.id
      have placed := b.placed
      rw [List.perm_iff_count] at parts placed ⊢
      intro loss
      have one := parts loss
      have two := placed loss
      simp only [List.count_append, List.flatMap_append, List.flatMap_map, History.add, recorded,
        List.append_nil, Rows.select] at one two ⊢
      omega
    · intro key
      rw [← b.pending key]
      unfold GapStore.pendingCount
      rw [pending]
    · intro row mem
      rw [entries] at mem
      exact b.frozen row (List.mem_filter.mp mem).1
    · intro entry mem
      rcases List.mem_append.mp mem with mem | mem
      · exact b.settled entry mem
      · obtain ⟨row, chosen, rfl⟩ := List.mem_map.mp mem
        exact b.frozen row (Rows.mem_select.mp chosen).1
    · simp [History.add, settled, b.settledRows, Function.comp_def]
    · simpa [History.add, current] using b.replaced
    · simpa [History.add, refused] using b.refused
    · rw [pending]
      exact b.known
  · intro row mem
    rw [entries] at mem
    exact exact.frozen row (List.mem_filter.mp mem).1
  · intro entry mem
    rcases List.mem_append.mp mem with mem | mem
    · exact exact.settled entry mem
    · obtain ⟨row, chosen, rfl⟩ := List.mem_map.mp mem
      exact exact.frozen row (Rows.mem_select.mp chosen).1

/-- A later version of a report row: only its sending state may differ. -/
structure ReportRow.Same (row row' : ReportRow) : Prop where
  id : row'.id = row.id
  owner : row'.owner = row.owner
  body : row'.body = row.body
  digest : row'.digest = row.digest
  expires : row'.expires = row.expires

omit [GapWire] in
theorem ReportRow.Same.refl (row : ReportRow) : row.Same row := ⟨rfl, rfl, rfl, rfl, rfl⟩

omit [GapWire] in
theorem ReportRow.Same.trans {one two three : ReportRow} (first : one.Same two) (second : two.Same three) :
    one.Same three :=
  ⟨second.id.trans first.id, second.owner.trans first.owner, second.body.trans first.body,
    second.digest.trans first.digest, second.expires.trans first.expires⟩

theorem Reports.same {row row' : ReportRow} {losses : List Loss} (r : Reports row losses)
    (same : row.Same row') : Reports row' losses := by
  have told : row'.losses = row.losses := by
    unfold ReportRow.losses
    rw [same.body]
  constructor
  · rw [same.body, same.digest, same.id, same.owner, same.expires]
    exact r.sealed
  · rw [same.owner]
    exact r.owned
  · rw [told]
    exact r.counts

theorem mark_same (p : PendingGap) (attempts : Nat → Nat) (due : Int) (row : ReportRow) :
    row.Same (p.mark attempts due row) := by
  unfold PendingGap.mark
  split
  · exact ⟨rfl, rfl, rfl, rfl, rfl⟩
  · exact .refl row

theorem Balanced.touch (b : Balanced h s l) {change : ReportRow → ReportRow}
    (same : ∀ row : ReportRow, row.Same (change row)) (pending : t.pending = s.pending)
    (reports : t.reports.entries = s.reports.entries.map change) (recorded : a.recorded = [])
    (settled : a.settled = []) (current : a.current = none) : Advance h s l a t l := by
  have unchanged : h.add a = h := by
    unfold History.add Act.refused
    simp [recorded, settled, current]
  refine ⟨?_, ⟨[], by simp, by simp⟩, fun key _ exact => ⟨exact.pending, ?_, exact.settled⟩⟩
  · rw [unchanged]
    constructor
    · have shares : (s.reports.entries.map change).flatMap (fun row => l.share row.id) =
          s.reports.entries.flatMap fun row => l.share row.id := by
        rw [List.flatMap_map]
        exact List.flatMap_congr fun row _ => by rw [(same row).id]
      rw [reports, shares]
      exact b.placed
    · intro key
      rw [← b.pending key]
      unfold GapStore.pendingCount
      rw [pending]
    · intro row mem
      rw [reports] at mem
      obtain ⟨old, stored, rfl⟩ := List.mem_map.mp mem
      rw [(same old).id]
      exact (b.frozen old stored).same (same old)
    · exact b.settled
    · exact b.settledRows
    · exact b.replaced
    · exact b.refused
    · rw [pending]
      exact b.known
  · intro row mem
    rw [reports] at mem
    obtain ⟨old, stored, rfl⟩ := List.mem_map.mp mem
    rw [(same old).id]
    exact exact.frozen old stored

end Balance

section Freezing
variable {h : History} {s t : GapStore} {l : Ledger} {a : Act} {owner : Owner} {createdAt : Int}

/-- The ledger once the reports and pending losses of other registrations and expired reports are gone. -/
def Ledger.fence (l : Ledger) (s : GapStore) (owner : Owner) (createdAt : Int) : Ledger :=
  { l with
    pending := l.pending.filter fun loss => decide (loss.1.owner = owner)
    settled := l.settled ++ (s.reports.select fun row =>
      decide (row.owner = owner ∧ row.expires ≤ createdAt)).map fun row => (row, l.share row.id)
    replaced := l.replaced ++ ((l.pending.filter fun loss => !decide (loss.1.owner = owner)) ++
      (s.reports.select fun row => !decide (row.owner = owner)).flatMap fun row => l.share row.id) }

theorem Balanced.fence (b : Balanced h s l) (recorded : a.recorded = [])
    (settled : a.settled = s.reports.select fun row => decide (row.owner = owner ∧ row.expires ≤ createdAt))
    (current : a.current = some owner) :
    Advance h s l a (s.fence owner createdAt) (l.fence s owner createdAt) := by
  have refused : a.refused = [] := by
    unfold Act.refused
    rw [recorded]
    rfl
  have others : ∀ loss ∈ (l.pending.filter fun loss => !decide (loss.1.owner = owner)) ++
      (s.reports.select fun row => !decide (row.owner = owner)).flatMap fun row => l.share row.id,
      owner ≠ loss.1.owner := by
    intro loss mem
    rcases List.mem_append.mp mem with mem | mem
    · have differ := (List.mem_filter.mp mem).2
      intro same
      simp [same] at differ
    · obtain ⟨row, chosen, mem⟩ := List.mem_flatMap.mp mem
      obtain ⟨stored, differ⟩ := Rows.mem_select.mp chosen
      rw [(b.frozen row stored).owned loss mem]
      intro same
      simp [same] at differ
  refine ⟨?_, ⟨_, rfl, fun loss mem => ⟨owner, current, others loss mem⟩⟩, fun key _ exact => ?_⟩
  · constructor
    · -- The stored reports are those of others, the expired ones and the rest.
      have own := flatMap_partition s.reports.entries (fun row => decide (row.owner = owner))
        fun row => l.share row.id
      have late := flatMap_partition (s.reports.entries.filter fun row => decide (row.owner = owner))
        (fun row => decide (row.expires ≤ createdAt)) fun row => l.share row.id
      have split := List.filter_append_perm (fun loss : Loss => decide (loss.1.owner = owner)) l.pending
      have expired : ((s.reports.entries.filter fun row => decide (row.owner = owner)).filter
          fun row => decide (row.expires ≤ createdAt)) = s.reports.select
            fun row => decide (row.owner = owner ∧ row.expires ≤ createdAt) := by
        rw [List.filter_filter]
        apply List.filter_congr
        intro row _
        simp [Bool.and_comm]
      have rest : ((s.reports.entries.filter fun row => decide (row.owner = owner)).filter
          fun row => !decide (row.expires ≤ createdAt)) = (s.fence owner createdAt).reports.entries := by
        show _ = s.reports.entries.filter fun row => decide (createdAt < row.expires ∧ row.owner = owner)
        rw [List.filter_filter]
        apply List.filter_congr
        intro row _
        rw [Bool.eq_iff_iff]
        simp only [Bool.and_eq_true, Bool.not_eq_true', decide_eq_true_eq, decide_eq_false_iff_not, not_le]
      rw [expired, rest] at late
      have placed := b.placed
      rw [List.perm_iff_count] at own late split placed ⊢
      intro loss
      have one := own loss
      have two := late loss
      have three := split loss
      have four := placed loss
      simp only [List.count_append, List.flatMap_append, List.flatMap_map, History.add, recorded,
        List.append_nil, Rows.select, Ledger.fence] at one two three four ⊢
      omega
    · intro key
      rw [pendingCount_fence, b.pending]
      have chosen := @total_filter _ _ l.pending key fun k => decide (k.owner = owner)
      show _ = min maxI64 (total (l.pending.filter fun loss => decide (loss.1.owner = owner)) key)
      rw [chosen]
      by_cases same : key.owner = owner <;> simp [same]
    · intro row mem
      exact b.frozen row (List.mem_filter.mp mem).1
    · intro entry mem
      rcases List.mem_append.mp mem with mem | mem
      · exact b.settled entry mem
      · obtain ⟨row, chosen, rfl⟩ := List.mem_map.mp mem
        exact b.frozen row (Rows.mem_select.mp chosen).1
    · simp [History.add, settled, b.settledRows, Ledger.fence, Function.comp_def]
    · intro loss mem
      rw [History.add, current]
      rcases List.mem_append.mp mem with mem | mem
      · obtain ⟨other, listed, differ⟩ := b.replaced loss mem
        exact ⟨other, List.mem_append_left _ listed, differ⟩
      · exact ⟨owner, by simp, others loss mem⟩
    · simpa [History.add, refused, Ledger.fence] using b.refused
    · intro row mem
      exact b.known row (List.mem_filter.mp mem).1
  · have chosen := @total_filter _ _ l.pending key fun k => decide (k.owner = owner)
    constructor
    · show total (l.pending.filter fun loss => decide (loss.1.owner = owner)) key ≤ maxI64
      rw [chosen]
      have small := exact.pending
      split <;> omega
    · intro row mem
      exact exact.frozen row (List.mem_filter.mp mem).1
    · intro entry mem
      rcases List.mem_append.mp mem with mem | mem
      · exact exact.settled entry mem
      · obtain ⟨row, chosen, rfl⟩ := List.mem_map.mp mem
        exact exact.frozen row (Rows.mem_select.mp chosen).1

def Ledger.freeze (l : Ledger) (fresh : Uuid) : Ledger :=
  { l with pending := [], share := Function.update l.share fresh l.pending }

theorem reports_frozen {fresh : Uuid} {gaps : List (TelemetryGap Reason)} (b : Balanced h s l)
    (owned : ∀ loss ∈ l.pending, loss.1.owner = owner)
    (made : (s.reasons owner).mapM PendingRow.gap = .ok gaps)
    (valid : validate ⟨fresh, owner, createdAt, gaps⟩ = true) :
    Reports (.of ⟨fresh, owner, createdAt, gaps⟩) l.pending := by
  have decoded := decode_encode _ valid
  refine ⟨⟨_, rfl, decoded, rfl, rfl, rfl, rfl⟩, owned, fun key => ?_⟩
  have known : ∀ row ∈ s.reasons owner, row.key.owner = owner ∧ ∃ reason, row.key.reason = GapWire.key reason := by
    intro row mem
    obtain ⟨stored, own⟩ := mem_reasons.mp mem
    exact ⟨own, b.known row stored⟩
  have losses : ReportRow.losses (.of ⟨fresh, owner, createdAt, gaps⟩) =
      (s.reasons owner).map fun row => (row.key, row.span.count) := by
    rw [← gaps_of_rows known made]
    unfold ReportRow.losses ReportRow.of
    simp only [decoded]
  rw [losses, total_reasons]
  split
  · exact b.pending key
  · rename_i other
    have none : total l.pending key = 0 := by
      apply total_of_ne
      rintro loss mem rfl
      exact other (owned loss mem)
    rw [none]
    rfl

theorem Balanced.freeze {fresh : Uuid} {gaps : List (TelemetryGap Reason)} (b : Balanced h s l)
    (owned : ∀ loss ∈ l.pending, loss.1.owner = owner)
    (made : (s.reasons owner).mapM PendingRow.gap = .ok gaps)
    (valid : validate ⟨fresh, owner, createdAt, gaps⟩ = true) (absent : s.reports.has fresh = false)
    (reports : t.reports = s.reports.set (.of ⟨fresh, owner, createdAt, gaps⟩))
    (pending : t.pending = s.pending.retain fun row => decide (row.key.owner ≠ owner)) :
    Balanced h t (l.freeze fresh) ∧ ∀ key, l.Exact s key → (l.freeze fresh).Exact t key := by
  have entries : t.reports.entries = s.reports.entries ++ [.of ⟨fresh, owner, createdAt, gaps⟩] := by
    rw [reports]
    exact Rows.entries_set_absent absent
  have elsewhere : ∀ row ∈ s.reports.entries, (l.freeze fresh).share row.id = l.share row.id := by
    intro row mem
    apply Function.update_of_ne
    rintro rfl
    rw [Rows.has, Rows.get_of_mem mem] at absent
    cases absent
  have here : (l.freeze fresh).share fresh = l.pending := Function.update_self ..
  refine ⟨?_, fun key exact => ⟨?_, ?_, exact.settled⟩⟩
  · constructor
    · have shares : t.reports.entries.flatMap (fun row => (l.freeze fresh).share row.id) =
          s.reports.entries.flatMap (fun row => l.share row.id) ++ l.pending := by
        rw [entries, List.flatMap_append, List.flatMap_congr elsewhere, List.flatMap_singleton]
        exact congrArg _ here
      rw [shares]
      have placed := b.placed
      rw [List.perm_iff_count] at placed ⊢
      intro loss
      have one := placed loss
      simp only [List.count_append, Ledger.freeze, List.count_nil] at one ⊢
      omega
    · intro key
      show t.pendingCount key = min maxI64 (total [] key)
      unfold GapStore.pendingCount
      rw [pending, Rows.get_retain]
      cases found : s.pending.get key with
      | none => simp
      | some row =>
        have same := Rows.get_key found
        by_cases own : row.key.owner = owner
        · simp [Option.filter_some, own]
        · have none : total l.pending key = 0 := by
            apply total_of_ne
            rintro loss mem rfl
            exact own (same ▸ owned loss mem)
          have count := b.pending key
          rw [GapStore.pendingCount, found, none] at count
          simpa [Option.filter_some, own] using count
    · intro row mem
      rw [entries] at mem
      rcases List.mem_append.mp mem with mem | mem
      · rw [elsewhere row mem]
        exact b.frozen row mem
      · rw [List.mem_singleton.mp mem]
        show Reports _ ((l.freeze fresh).share fresh)
        rw [here]
        exact reports_frozen b owned made valid
    · exact b.settled
    · exact b.settledRows
    · exact b.replaced
    · exact b.refused
    · intro row mem
      rw [pending] at mem
      exact b.known row (List.mem_filter.mp mem).1
  · exact Nat.zero_le _
  · intro row mem
    rw [entries] at mem
    rcases List.mem_append.mp mem with mem | mem
    · rw [elsewhere row mem]
      exact exact.frozen row mem
    · rw [List.mem_singleton.mp mem]
      show total ((l.freeze fresh).share fresh) key ≤ maxI64
      rw [here]
      exact exact.pending

end Freezing

section Runs
variable {h : History} {s t : GapStore} {l : Ledger} {a : Act}

theorem pendingGap_keeps {owner : Owner} {now : Int} (told : s.apply (.pendingGap owner now) = .ok t) :
    t = s := by
  change (s.pendingGap owner now).map (fun _ => s) = .ok t at told
  cases read : s.pendingGap owner now with
  | error e =>
    rw [read] at told
    cases told
  | ok p =>
    rw [read] at told
    cases told
    rfl

theorem acknowledgeGap_rejects {p : PendingGap} {r : TelemetryGapReceipt}
    (told : s.apply (.acknowledgeGap p r) = .ok t) : t = s.rejectGap p := by
  change s.acknowledgeGap p r = .ok t at told
  unfold GapStore.acknowledgeGap at told
  split at told
  · cases told
  · cases told
    rfl

/-- One call keeps the books. -/
theorem Balanced.step (b : Balanced h s l) (step : Step s a t) : ∃ l', Advance h s l a t l' := by
  obtain ⟨before, call⟩ := a
  obtain ⟨rfl, rfl⟩ := step
  cases told : before.apply call with
  | error e =>
    -- A failed call is rolled back.
    have same : before.after call = before := by
      unfold GapStore.after
      rw [told]
    refine ⟨l, b.quiet ?_ ?_ ?_ ?_ ?_⟩
    · rw [same]
    · rw [same]
    · cases call <;> simp [Act.recorded, told]
    · cases call <;> simp [Act.settled, told]
    · cases call <;> simp [Act.current, told]
  | ok t =>
    have same : before.after call = t := by
      unfold GapStore.after
      rw [told]
    dsimp only
    rw [same]
    cases call with
    | record owner reason span =>
      obtain ⟨reports, bound, ⟨none, pending⟩ | ⟨some, full, pending⟩ | ⟨some, free, pending⟩⟩ :=
        record_cases told
      · exact ⟨l, b.quiet pending reports (by simp [Act.recorded, told, none]) rfl rfl⟩
      · have recorded := Act.recorded_record (a := ⟨before, .record owner reason span⟩) rfl told some
        refine ⟨_, b.refuse pending reports ?_ rfl rfl⟩
        rw [Act.refused, recorded]
        simp [full]
      · have recorded := Act.recorded_record (a := ⟨before, .record owner reason span⟩) rfl told some
        refine ⟨_, b.accumulate rfl bound pending reports recorded ?_ rfl rfl⟩
        rw [Act.refused, recorded]
        simp [free]
    | freezeGaps owner createdAt fresh =>
      have fenced := @Balanced.fence _ _ _ _ ⟨before, .freezeGaps owner createdAt fresh⟩ owner createdAt b rfl (by simp [Act.settled, told]) (by simp [Act.current, told])
      rcases freezeGaps_cases told with rfl | ⟨gaps, made, valid, absent, reports, pending⟩
      · exact ⟨_, fenced⟩
      · have owned : ∀ loss ∈ (l.fence before owner createdAt).pending, loss.1.owner = owner := by
          intro loss mem
          simpa using (List.mem_filter.mp mem).2
        obtain ⟨balanced, exact⟩ := fenced.balanced.freeze owned made valid absent reports pending
        exact ⟨_, balanced, fenced.givesUp, fun key fits old => exact key (fenced.exact key fits old)⟩
    | pendingGap owner now =>
      cases pendingGap_keeps told
      exact ⟨l, b.quiet rfl rfl rfl rfl rfl⟩
    | attemptingGap p now =>
      cases told
      exact ⟨l, b.touch (mark_same p _ _) rfl rfl rfl rfl rfl⟩
    | retryGap p now delay =>
      cases told
      exact ⟨l, b.touch (mark_same p _ _) rfl rfl rfl rfl rfl⟩
    | acknowledgeGap p r =>
      cases acknowledgeGap_rejects told
      exact ⟨_, b.settle p.selects rfl rfl rfl (by simp [Act.settled, told]) rfl⟩
    | rejectGap p =>
      cases told
      exact ⟨_, b.settle p.selects rfl rfl rfl rfl rfl⟩
    | crash =>
      cases told
      exact ⟨l, b.quiet rfl rfl rfl rfl rfl⟩

theorem Balanced.run {first segment : List Act} (b : Balanced (history first) s l)
    (later : Runs Step s segment t) : ∃ l', Balanced (history (first ++ segment)) t l' ∧
      (∃ extra, l'.replaced = l.replaced ++ extra ∧
        ∀ loss ∈ extra, ∃ a ∈ segment, ∃ owner, a.current = some owner ∧ owner ≠ loss.1.owner) ∧
      ∀ key, (∀ a ∈ segment, ¬ a.saturates key) → l.Exact s key → l'.Exact t key := by
  induction later with
  | refl => exact ⟨l, by simpa using b, ⟨[], by simp, by simp⟩, fun _ _ exact => exact⟩
  | @next segment middle u a _ h ih =>
    obtain ⟨l', balanced, ⟨extra, replaced, others⟩, exact⟩ := ih
    obtain ⟨l'', balanced, ⟨more, added, current⟩, kept⟩ := balanced.step h
    refine ⟨l'', ?_, ⟨extra ++ more, by rw [added, replaced, List.append_assoc], ?_⟩, ?_⟩
    · rw [← List.append_assoc, history_append]
      exact balanced
    · intro loss mem
      rcases List.mem_append.mp mem with mem | mem
      · obtain ⟨a, listed, rest⟩ := others loss mem
        exact ⟨a, List.mem_append_left _ listed, rest⟩
      · exact ⟨a, by simp, current loss mem⟩
    · intro key fits old
      obtain ⟨fits, last⟩ := List.forall_mem_append.mp fits
      exact kept key (last a (List.mem_singleton.mpr rfl)) (exact key fits old)

theorem reported_eq {rows : List ReportRow} {share : ReportRow → List Loss} {key : GapKey}
    (reports : ∀ row ∈ rows, Reports row (share row)) (small : ∀ row ∈ rows, total (share row) key ≤ maxI64) :
    reported rows key = total (rows.flatMap share) key := by
  unfold reported
  induction rows with
  | nil => rfl
  | cons row rest ih =>
    obtain ⟨here, reports⟩ := List.forall_mem_cons.mp reports
    obtain ⟨bound, small⟩ := List.forall_mem_cons.mp small
    rw [List.flatMap_cons, List.flatMap_cons, total_append, total_append, ih reports small, here.counts,
      Nat.min_eq_right bound]

theorem Balanced.count (b : Balanced h s l) {key : GapKey} (exact : l.Exact s key) :
    total h.recorded key = s.pendingCount key + s.frozenCount key + reported h.settled key +
      total l.replaced key + total h.refused key := by
  have frozen : s.frozenCount key = total (s.reports.entries.flatMap fun row => l.share row.id) key :=
    reported_eq b.frozen exact.frozen
  have settled : reported h.settled key = total (l.settled.flatMap (·.2)) key := by
    rw [← b.settledRows]
    have entries := b.settled
    have small := exact.settled
    generalize l.settled = list at entries small
    unfold reported
    induction list with
    | nil => rfl
    | cons entry rest ih =>
      obtain ⟨here, entries⟩ := List.forall_mem_cons.mp entries
      obtain ⟨bound, small⟩ := List.forall_mem_cons.mp small
      rw [List.map_cons, List.flatMap_cons, List.flatMap_cons, total_append, total_append,
        ih entries small, here.counts, Nat.min_eq_right bound]
  rw [total_perm b.placed, b.pending key, Nat.min_eq_right exact.pending, frozen, settled, ← b.refused]
  simp only [total_append]

/-- A stored report stays as it was frozen until a call removes it. -/
theorem step_keeps {row : ReportRow} (step : Step s a t) (stored : row ∈ s.reports.entries)
    (kept : ¬ a.removes row) : ∃ row' ∈ t.reports.entries, row.Same row' := by
  obtain ⟨before, call⟩ := a
  obtain ⟨rfl, rfl⟩ := step
  dsimp only at stored ⊢
  cases told : before.apply call with
  | error e =>
    have same : before.after call = before := by
      unfold GapStore.after
      rw [told]
    rw [same]
    exact ⟨row, stored, .refl row⟩
  | ok t =>
    have same : before.after call = t := by
      unfold GapStore.after
      rw [told]
    rw [same]
    -- A row that is not among the settled ones stays when those are taken out.
    have spared (gone : ReportRow → Bool) (settled : Act.settled ⟨before, call⟩ = before.reports.select gone) :
        row ∈ before.reports.entries.filter fun row => !gone row := by
      refine List.mem_filter.mpr ⟨stored, ?_⟩
      by_contra removed
      apply kept
      left
      exact ⟨row, by rw [settled]; exact Rows.mem_select.mpr ⟨stored, by simpa using removed⟩, rfl⟩
    cases call with
    | record owner reason span =>
      rw [(record_cases told).1]
      exact ⟨row, stored, .refl row⟩
    | freezeGaps owner createdAt fresh =>
      have own : row.owner = owner := by
        by_contra other
        exact kept (.inr ⟨owner, by simp [Act.current, told], Ne.symm other⟩)
      have fenced : row ∈ (before.fence owner createdAt).reports.entries := by
        have alive := spared (fun row => decide (row.owner = owner ∧ row.expires ≤ createdAt))
          (by simp [Act.settled, told])
        refine List.mem_filter.mpr ⟨stored, ?_⟩
        simpa [own] using (List.mem_filter.mp alive).2
      rcases freezeGaps_cases told with rfl | ⟨gaps, made, valid, absent, reports, pending⟩
      · exact ⟨row, fenced, .refl row⟩
      · refine ⟨row, ?_, .refl row⟩
        rw [reports, Rows.entries_set_absent absent]
        exact List.mem_append_left _ fenced
    | pendingGap owner now =>
      cases pendingGap_keeps told
      exact ⟨row, stored, .refl row⟩
    | attemptingGap p now =>
      cases told
      exact ⟨_, List.mem_map_of_mem stored, mark_same p _ _ row⟩
    | retryGap p now delay =>
      cases told
      exact ⟨_, List.mem_map_of_mem stored, mark_same p _ _ row⟩
    | acknowledgeGap p r =>
      cases acknowledgeGap_rejects told
      exact ⟨row, spared p.selects (by simp [Act.settled, told]), .refl row⟩
    | rejectGap p =>
      cases told
      exact ⟨row, spared p.selects rfl, .refl row⟩
    | crash =>
      cases told
      exact ⟨row, stored, .refl row⟩

theorem run_keeps {row : ReportRow} {segment : List Act} (run : Runs Step s segment t)
    (stored : row ∈ s.reports.entries) (kept : ∀ a ∈ segment, ¬ a.removes row) :
    ∃ row' ∈ t.reports.entries, row.Same row' := by
  induction run with
  | refl => exact ⟨row, stored, .refl row⟩
  | next _ h ih =>
    obtain ⟨kept, last⟩ := List.forall_mem_append.mp kept
    obtain ⟨now, mem, same⟩ := ih kept
    have spared := last _ (List.mem_singleton.mpr rfl)
    unfold Act.removes at spared
    rw [← same.id, ← same.owner] at spared
    obtain ⟨later, mem, again⟩ := step_keeps h mem spared
    exact ⟨later, mem, same.trans again⟩

theorem pendingGap_read {owner : Owner} {now : Int} {p : PendingGap}
    (read : s.pendingGap owner now = .ok (some p)) : p.report.owner = owner ∧
      ∃ row ∈ s.reports.entries, row.owner = owner ∧ row.id = p.report.reportId ∧ row.body = p.body ∧
        decode row.body = some p.report := by
  unfold GapStore.pendingGap at read
  dsimp only at read
  split at read
  · cases read
  · rename_i row first
    obtain ⟨stored, chosen⟩ := Rows.mem_select.mp (List.mem_of_mem_head? first)
    have own : row.owner = owner := by
      simp at chosen
      exact chosen.1
    cases restored : row.restore owner with
    | error e =>
      rw [restored] at read
      cases read
    | ok found =>
      rw [restored] at read
      cases read
      unfold ReportRow.restore at restored
      split at restored
      · cases restored
      split at restored
      · cases restored
      rename_i report decoded
      split at restored
      · cases restored
      split at restored
      · cases restored
      rename_i same
      cases restored
      push Not at same
      exact ⟨same.2, row, stored, own, same.1.symm, rfl, decoded⟩

/-- Along every run each recorded loss is in one place, reports hold losses of their own registration
only, and while a registration stays current its recorded losses are pending, in stored reports, in
settled reports or refused. A report stays as it was frozen until it is removed. -/
theorem losses_reported_once {first segment : List Act} (run : Runs Step .empty first s)
    (later : Runs Step s segment t) :
    (∃ l : Ledger, Balanced (history first) s l) ∧
      (∀ key, (∀ a ∈ segment, ∀ owner, a.current = some owner → owner = key.owner) →
        (∀ a ∈ first ++ segment, ¬ a.saturates key) →
        s.pendingCount key + s.frozenCount key + total (history segment).recorded key =
          t.pendingCount key + t.frozenCount key + reported (history segment).settled key +
            total (history segment).refused key) ∧
      (∀ row ∈ s.reports.entries, (∀ a ∈ segment, ¬ a.removes row) →
        ∃ row' ∈ t.reports.entries, row.Same row') ∧
      (∀ owner now p, s.pendingGap owner now = .ok (some p) → p.report.owner = owner ∧
        ∃ row ∈ s.reports.entries, row.owner = owner ∧ row.id = p.report.reportId ∧ row.body = p.body ∧
          decode row.body = some p.report) := by
  obtain ⟨l, books, -, exact⟩ := Balanced.start.run run
  rw [List.nil_append] at books
  refine ⟨⟨l, books⟩, fun key current fits => ?_, fun row stored kept => run_keeps later stored kept,
    fun owner now p read => pendingGap_read read⟩
  obtain ⟨before, during⟩ := List.forall_mem_append.mp fits
  have start : Ledger.Exact ⟨[], fun _ => [], [], [], []⟩ .empty key :=
    ⟨Nat.zero_le _, fun row mem => (nomatch mem), fun entry mem => (nomatch mem)⟩
  have old := exact key before start
  obtain ⟨l', balanced, ⟨extra, replaced, others⟩, kept⟩ := books.run later
  have one := books.count old
  have two := balanced.count (kept key during old)
  have none : total extra key = 0 := by
    apply total_of_ne
    rintro loss mem rfl
    obtain ⟨a, listed, owner, now, differ⟩ := others loss mem
    exact differ (current a listed owner now)
  have recorded : (history (first ++ segment)).recorded =
      (history first).recorded ++ (history segment).recorded := by simp [history]
  have refused : (history (first ++ segment)).refused =
      (history first).refused ++ (history segment).refused := by simp [history]
  have settled : reported (history (first ++ segment)).settled key =
      reported (history first).settled key + reported (history segment).settled key := by
    simp [history, reported]
  rw [recorded, refused, settled, replaced, total_append, total_append, total_append, none] at two
  omega

end Runs

end Model

section Sample

/-- Reports of one reason with small numbers, encoded byte by byte. -/
@[reducible] def sampleGapWire : GapWire where
  Reason := Fin 4
  registration := 0
  expired := 1
  capacity := 2
  key reason := if reason = 0 then "registration" else if reason = 1 then "expired"
    else if reason = 2 then "capacity" else "rejected"
  fromKey text := if text = "registration" then some 0 else if text = "expired" then some 1
    else if text = "capacity" then some 2 else if text = "rejected" then some 3 else none
  fromKey_key := by decide
  validate report :=
    match report.gaps with
    | [gap] => decide (report.reportId < 256 ∧ report.owner.registration < 256 ∧
        report.owner.generation < 256 ∧ 0 ≤ report.createdAt ∧ report.createdAt < 256 ∧
        gap.count < 256 ∧ 0 ≤ gap.first ∧ gap.first < 256 ∧ 0 ≤ gap.last ∧ gap.last < 256)
    | _ => false
  encode report := report.gaps.flatMap fun gap =>
    [report.reportId, report.owner.registration, report.owner.generation, report.createdAt.toNat,
      gap.reason.val, gap.count, gap.first.toNat, gap.last.toNat].map Nat.toUInt8
  decode bytes :=
    match bytes.map UInt8.toNat with
    | [id, registration, generation, createdAt, reason, count, first, last] =>
      some ⟨id, ⟨registration, generation⟩, createdAt, [⟨Fin.ofNat 4 reason, count, first, last⟩]⟩
    | _ => none
  decode_encode := by
    rintro ⟨id, ⟨registration, generation⟩, createdAt, gaps⟩ valid
    match gaps, valid with
    | [⟨reason, count, first, last⟩], valid =>
      simp only [decide_eq_true_eq] at valid
      obtain ⟨h1, h2, h3, h4, h5, h6, h7, h8, h9, h10⟩ := valid
      have small : reason.val < 256 := lt_of_lt_of_le reason.isLt (by decide)
      have c : createdAt.toNat < 256 := by omega
      have f : first.toNat < 256 := by omega
      have e : last.toNat < 256 := by omega
      simp [Nat.mod_eq_of_lt, h1, h2, h3, h6, small, c, f, e, h4, h7, h9]
  window := 100
  maxBytes := 64
  hash bytes := if bytes = [] then "empty" else "report"

attribute [local instance] sampleGapWire

def sampleOwner : Owner := ⟨1, 1⟩

def sampleKey : GapKey := ⟨sampleOwner, "capacity"⟩

def sampleRecord : Act := ⟨.empty, .record sampleOwner GapWire.capacity ⟨3, 5, 6⟩⟩

def sampleRecorded : GapStore := sampleRecord.before.after sampleRecord.call

def sampleFreeze : Act := ⟨sampleRecorded, .freezeGaps sampleOwner 7 9⟩

def sampleFrozen : GapStore := sampleFreeze.before.after sampleFreeze.call

theorem losses_reported_once_sample :
    (∃ l : Ledger, Balanced (history [sampleRecord]) sampleRecorded l) ∧
      sampleRecorded.pendingCount sampleKey = 3 ∧ sampleFrozen.frozenCount sampleKey = 3 := by
  have run : Runs Step .empty [sampleRecord] sampleRecorded := .one ⟨rfl, rfl⟩
  have later : Runs Step sampleRecorded [sampleFreeze] sampleFrozen := .one ⟨rfl, rfl⟩
  obtain ⟨books, moved, -⟩ := losses_reported_once run later
  have current : ∀ a ∈ [sampleFreeze], ∀ owner, a.current = some owner → owner = sampleKey.owner := by
    have known : sampleFreeze.current = some sampleOwner := by decide +kernel
    intro a mem owner now
    rw [List.mem_singleton.mp mem, known] at now
    exact (Option.some.inj now).symm
  have fits : ∀ a ∈ [sampleRecord] ++ [sampleFreeze], ¬ a.saturates sampleKey := by decide +kernel
  have same := moved sampleKey current fits
  have before : sampleRecorded.pendingCount sampleKey = 3 ∧ sampleRecorded.frozenCount sampleKey = 0 := by
    decide +kernel
  have after : sampleFrozen.pendingCount sampleKey = 0 ∧ total (history [sampleFreeze]).recorded sampleKey = 0 ∧
      reported (history [sampleFreeze]).settled sampleKey = 0 ∧
      total (history [sampleFreeze]).refused sampleKey = 0 := by decide +kernel
  exact ⟨books, before.1, by omega⟩

end Sample

end RssMdmAgent.TelemetryGaps
