import RssMdmAgent.ReadViews
import Mathlib.Data.Set.Insert
import Mathlib.Logic.Relation
import Mathlib.Algebra.BigOperators.Group.List.Basic

set_option autoImplicit false

/-! # Primitive changes of the views -/

namespace RssMdmAgent.PagedReads
open OrderedRows
open Relation (ReflTransGen)

variable {Value : Type}

structure System (Value : Type) where
  views : ReadViews Value
  used : Set String

def Token.At (row : Token) (id : String) (offset index : Nat) : Prop :=
  row.id = id ∧ row.offset = offset ∧ row.index = index

def ReadViews.capture (s : ReadViews Value) (view : View Value) : ReadViews Value :=
  { s with retainedBytes := s.retainedBytes + view.bytes, views := s.views.set view }

def ReadViews.issue (s : ReadViews Value) (row : Token) : ReadViews Value := { s with tokens := s.tokens.set row }

/-- One change of the views. -/
inductive Prim : System Value → System Value → Prop where
  | expire (s : ReadViews Value) (used : Set String) (now : Int) : Prim ⟨s, used⟩ ⟨s.dropExpired now, used⟩
  | capture (s : ReadViews Value) (used : Set String) (view : View Value) (fresh : view.id ∉ used) :
      Prim ⟨s, used⟩ ⟨s.capture view, insert view.id used⟩
  | issue (s : ReadViews Value) (used : Set String) (row : Token) (fresh : row.token ∉ used)
      (named : row.token ≠ "") (known : row.id ∈ used)
      (first : ∀ other ∈ s.tokens.entries, ¬ other.At row.id row.offset row.index) :
      Prim ⟨s, used⟩ ⟨s.issue row, insert row.token used⟩
  | finish (s : ReadViews Value) (used : Set String) (id : String) (hasContinuation : Bool) :
      Prim ⟨s, used⟩ ⟨s.finish id hasContinuation, used⟩
  | clear (s : ReadViews Value) (used : Set String) : Prim ⟨s, used⟩ ⟨.empty, used⟩
  | draw (s : ReadViews Value) (used names : Set String) : Prim ⟨s, used⟩ ⟨s, used ∪ names⟩

def total (views : List (View Value)) : Int := (views.map fun view => (view.bytes : Int)).sum

structure System.Sound (s : System Value) : Prop where
  bytes : s.views.retainedBytes = total s.views.views.entries
  views : ∀ view ∈ s.views.views.entries, view.id ∈ s.used
  tokens : ∀ row ∈ s.views.tokens.entries, row.token ∈ s.used ∧ row.id ∈ s.used
  named : ∀ row ∈ s.views.tokens.entries, row.token ≠ ""
  places : ∀ row ∈ s.views.tokens.entries, ∀ other ∈ s.views.tokens.entries,
    other.At row.id row.offset row.index → other = row

/-- A view that another one continues. -/
structure Same (view other : View Value) : Prop where
  id : other.id = view.id
  scope : other.scope = view.scope
  limit : other.limit = view.limit
  value : other.value = view.value
  expires : other.expires = view.expires

theorem Same.refl (view : View Value) : Same view view := ⟨rfl, rfl, rfl, rfl, rfl⟩

theorem Same.trans {a b c : View Value} (first : Same a b) (second : Same b c) : Same a c :=
  ⟨second.id.trans first.id, second.scope.trans first.scope, second.limit.trans first.limit,
    second.value.trans first.value, second.expires.trans first.expires⟩

structure Keeps (s t : System Value) : Prop where
  used : s.used ⊆ t.used
  views : ∀ view ∈ t.views.views.entries, view.id ∈ s.used → ∃ old ∈ s.views.views.entries, Same old view ∧
    ∀ row ∈ s.views.tokens.entries, row.id = view.id → row ∈ t.views.tokens.entries
  tokens : ∀ row ∈ t.views.tokens.entries, row.token ∈ s.used → row ∈ s.views.tokens.entries

section Lists

theorem total_nil : total ([] : List (View Value)) = 0 := rfl

theorem total_cons (view : View Value) (rest : List (View Value)) : total (view :: rest) = view.bytes + total rest := by
  unfold total
  rw [List.map_cons, List.sum_cons]

theorem total_append (front rest : List (View Value)) : total (front ++ rest) = total front + total rest := by
  unfold total
  rw [List.map_append, List.sum_append]

theorem total_filter (condition : View Value → Bool) (list : List (View Value)) :
    total (list.filter condition) + total (list.filter fun view => !condition view) = total list := by
  induction list with
  | nil => rfl
  | cons view rest ih =>
    rw [List.filter_cons, List.filter_cons, total_cons, ← ih]
    cases condition view <;> simp only [Bool.not_true, Bool.not_false, if_true, Bool.false_eq_true, if_false, total_cons] <;>
      omega

theorem foldl_bytes (list : List (View Value)) (n : Int) :
    list.foldl (fun (n : Int) view => n - (view.bytes : Int)) n = n - total list := by
  induction list generalizing n with
  | nil => simp [total_nil]
  | cons view rest ih =>
    rw [List.foldl_cons, ih, total_cons]
    omega

theorem total_place {view old : View Value} {list : List (View Value)} (distinct : (list.map View.id).Nodup) (mem : old ∈ list)
    (same : old.id = view.id) (size : old.bytes = view.bytes) : total (place View.id view list) = total list := by
  induction list with
  | nil => cases mem
  | cons first rest ih =>
    obtain ⟨absent, distinct⟩ := List.nodup_cons.mp distinct
    unfold place
    rcases List.mem_cons.mp mem with rfl | later
    · rw [if_pos same, total_cons, total_cons, size]
    · have differ : first.id ≠ view.id := fun equal => absent (equal ▸ same ▸ List.mem_map_of_mem later)
      rw [if_neg differ, total_cons, total_cons, ih distinct later]

theorem total_remove {view : View Value} {rows : Rows (View.id : View Value → String)} (mem : view ∈ rows.entries) :
    total (rows.retain fun other => decide (other.id ≠ view.id)).entries = total rows.entries - view.bytes := by
  have split := total_filter (fun other => decide (other.id = view.id)) rows.entries
  have only : rows.entries.filter (fun other => decide (other.id = view.id)) = [view] := Rows.select_key mem
  have kept : (rows.retain fun other => decide (other.id ≠ view.id)).entries =
      rows.entries.filter fun other => !decide (other.id = view.id) := by
    unfold Rows.retain
    simp
  rw [only, total_cons, total_nil] at split
  rw [kept]
  omega

end Lists

section Changes
variable {s : ReadViews Value} {used : Set String} {id : String} {now : Int} {row : Token} {view : View Value} {b : Bool}

theorem mem_dropExpired : view ∈ (s.dropExpired now).views.entries ↔ view ∈ s.views.entries ∧ ¬ view.expires < now := by
  unfold ReadViews.dropExpired Rows.retain
  simp

theorem token_dropExpired : row ∈ (s.dropExpired now).tokens.entries ↔
    row ∈ s.tokens.entries ∧ (s.dropExpired now).views.has row.id = true := by
  unfold ReadViews.dropExpired Rows.retain
  simp

theorem dropExpired_bytes (bytes : s.retainedBytes = total s.views.entries) :
    (s.dropExpired now).retainedBytes = total (s.dropExpired now).views.entries := by
  have split := total_filter (fun view => decide (view.expires < now)) s.views.entries
  unfold ReadViews.dropExpired Rows.select Rows.retain
  dsimp only
  rw [foldl_bytes, bytes, ← split]
  omega

theorem finish_cases (s : ReadViews Value) (id : String) (b : Bool) : s.finish id b = s ∨
    ∃ view ∈ s.views.entries, view.id = id ∧
      ((s.finish id b = { s with views := s.views.set { view with continued := true } }) ∨
        (s.finish id b =
          { views := s.views.retain fun other => decide (other.id ≠ view.id)
            retainedBytes := s.retainedBytes - view.bytes
            tokens := s.tokens.retain fun row => decide (row.id ≠ view.id) } ∧ b = false)) := by
  unfold ReadViews.finish
  cases found : s.views.get id with
  | none => exact .inl rfl
  | some view =>
    obtain ⟨mem, rfl⟩ := Rows.get_iff.mp found
    refine .inr ⟨view, mem, rfl, ?_⟩
    dsimp only
    split
    · exact .inl rfl
    · rename_i over'
      have none : b = false := by
        cases b with
        | false => rfl
        | true => exact absurd (Bool.or_true _) over'
      exact .inr ⟨rfl, none⟩

theorem mem_retain_views {condition : View Value → Bool} :
    view ∈ (s.views.retain condition).entries ↔ view ∈ s.views.entries ∧ condition view = true := List.mem_filter

theorem mem_retain_tokens {condition : Token → Bool} :
    row ∈ (s.tokens.retain condition).entries ↔ row ∈ s.tokens.entries ∧ condition row = true := List.mem_filter

end Changes

theorem Prim.sound {s t : System Value} (prim : Prim s t) (sound : s.Sound) : t.Sound := by
  cases prim with
  | expire s used now =>
    refine ⟨dropExpired_bytes sound.bytes, ?_, ?_, ?_, ?_⟩
    · exact fun view mem => sound.views view (mem_dropExpired.mp mem).1
    · exact fun row mem => sound.tokens row (token_dropExpired.mp mem).1
    · exact fun row mem => sound.named row (token_dropExpired.mp mem).1
    · exact fun row mem other present =>
        sound.places row (token_dropExpired.mp mem).1 other (token_dropExpired.mp present).1
  | capture s used view fresh =>
    have absent : s.views.has view.id = false := by
      by_contra present
      obtain ⟨old, found⟩ := Rows.has_iff.mp (Bool.not_eq_false _ ▸ present)
      exact fresh (Rows.get_key found ▸ sound.views old (Rows.get_mem found))
    refine ⟨?_, ?_, ?_, sound.named, sound.places⟩
    · show s.retainedBytes + view.bytes = total (s.views.set view).entries
      rw [Rows.entries_set_absent absent, total_append, total_cons, total_nil, ← sound.bytes, add_zero]
    · intro other mem
      rcases Rows.mem_set.mp mem with rfl | ⟨early, -⟩
      · exact Set.mem_insert _ _
      · exact Set.mem_insert_of_mem _ (sound.views other early)
    · exact fun row mem => (sound.tokens row mem).imp (Set.mem_insert_of_mem _) (Set.mem_insert_of_mem _)
  | issue s used row fresh named known first =>
    refine ⟨sound.bytes, ?_, ?_, ?_, ?_⟩
    · exact fun view mem => Set.mem_insert_of_mem _ (sound.views view mem)
    · intro other mem
      rcases Rows.mem_set.mp mem with rfl | ⟨early, -⟩
      · exact ⟨Set.mem_insert _ _, Set.mem_insert_of_mem _ known⟩
      · exact (sound.tokens other early).imp (Set.mem_insert_of_mem _) (Set.mem_insert_of_mem _)
    · intro other mem
      rcases Rows.mem_set.mp mem with rfl | ⟨early, -⟩
      · exact named
      · exact sound.named other early
    · intro one mem other present place
      rcases Rows.mem_set.mp mem with rfl | ⟨early, -⟩ <;> rcases Rows.mem_set.mp present with rfl | ⟨before, -⟩
      · rfl
      · exact absurd place (first other before)
      · exact absurd ⟨place.1.symm, place.2.1.symm, place.2.2.symm⟩ (first one early)
      · exact sound.places one early other before place
  | finish s used id b =>
    rcases finish_cases s id b with same | ⟨view, mem, rfl, kept | ⟨gone, -⟩⟩
    · rw [same]
      exact sound
    · rw [kept]
      refine ⟨?_, ?_, sound.tokens, sound.named, sound.places⟩
      · have same : total (place View.id { view with continued := true } s.views.entries) = total s.views.entries :=
          total_place s.views.distinct mem rfl rfl
        exact sound.bytes.trans same.symm
      · intro other present
        rcases Rows.mem_set.mp present with rfl | ⟨early, -⟩
        · exact sound.views view mem
        · exact sound.views other early
    · rw [gone]
      refine ⟨?_, ?_, ?_, ?_, ?_⟩
      · show s.retainedBytes - view.bytes = total (s.views.retain _).entries
        rw [total_remove mem, ← sound.bytes]
      · exact fun other present => sound.views other (mem_retain_views.mp present).1
      · exact fun row present => sound.tokens row (mem_retain_tokens.mp present).1
      · exact fun row present => sound.named row (mem_retain_tokens.mp present).1
      · exact fun row early other present =>
          sound.places row (mem_retain_tokens.mp early).1 other (mem_retain_tokens.mp present).1
  | clear s used =>
    exact ⟨rfl, fun view mem => absurd mem List.not_mem_nil, fun row mem => absurd mem List.not_mem_nil,
      fun row mem => absurd mem List.not_mem_nil, fun row mem => absurd mem List.not_mem_nil⟩
  | draw s used names =>
    exact ⟨sound.bytes, fun view mem => .inl (sound.views view mem),
      fun row mem => (sound.tokens row mem).imp Or.inl Or.inl, sound.named, sound.places⟩

theorem Keeps.refl (s : System Value) : Keeps s s :=
  ⟨subset_rfl, fun view mem _ => ⟨view, mem, .refl view, fun _ present _ => present⟩, fun _ mem _ => mem⟩

theorem Keeps.trans {s t u : System Value} (first : Keeps s t) (second : Keeps t u) : Keeps s u := by
  refine ⟨first.used.trans second.used, ?_, ?_⟩
  · intro view mem known
    obtain ⟨middle, here, same, later⟩ := second.views view mem (first.used known)
    obtain ⟨old, early, alike, tokens⟩ := first.views middle here (same.id ▸ known)
    refine ⟨old, early, alike.trans same, fun row present name => ?_⟩
    exact later row (tokens row present (name.trans same.id)) name
  · exact fun row mem known => first.tokens row (second.tokens row mem (first.used known)) known

theorem Prim.keeps {s t : System Value} (prim : Prim s t) (sound : s.Sound) : Keeps s t := by
  cases prim with
  | expire s used now =>
    refine ⟨subset_rfl, ?_, fun row mem _ => (token_dropExpired.mp mem).1⟩
    intro view mem _
    refine ⟨view, (mem_dropExpired.mp mem).1, .refl view, fun row present name => ?_⟩
    refine token_dropExpired.mpr ⟨present, Rows.has_iff.mpr ⟨view, ?_⟩⟩
    rw [name]
    exact Rows.get_of_mem mem
  | capture s used view fresh =>
    refine ⟨Set.subset_insert _ _, ?_, fun row mem _ => mem⟩
    intro other mem known
    rcases Rows.mem_set.mp mem with rfl | ⟨early, -⟩
    · exact absurd known fresh
    · exact ⟨other, early, .refl other, fun row present _ => present⟩
  | issue s used row fresh named known first =>
    refine ⟨Set.subset_insert _ _, ?_, ?_⟩
    · intro view mem _
      refine ⟨view, mem, .refl view, fun other present _ => Rows.mem_set.mpr (.inr ⟨present, fun same => ?_⟩)⟩
      exact fresh (same ▸ (sound.tokens other present).1)
    · intro other mem old
      rcases Rows.mem_set.mp mem with rfl | ⟨early, -⟩
      · exact absurd old fresh
      · exact early
  | finish s used id b =>
    rcases finish_cases s id b with same | ⟨view, mem, rfl, kept | ⟨gone, -⟩⟩
    · rw [same]
      exact .refl _
    · rw [kept]
      refine ⟨subset_rfl, ?_, fun row present _ => present⟩
      intro other present _
      rcases Rows.mem_set.mp present with rfl | ⟨early, -⟩
      · exact ⟨view, mem, ⟨rfl, rfl, rfl, rfl, rfl⟩, fun row stored _ => stored⟩
      · exact ⟨other, early, .refl other, fun row stored _ => stored⟩
    · rw [gone]
      refine ⟨subset_rfl, ?_, fun row present _ => (mem_retain_tokens.mp present).1⟩
      intro other present _
      obtain ⟨early, differ⟩ := mem_retain_views.mp present
      refine ⟨other, early, .refl other, fun row stored name => mem_retain_tokens.mpr ⟨stored, ?_⟩⟩
      rw [name]
      exact differ
  | clear s used =>
    exact ⟨subset_rfl, fun view mem => absurd mem List.not_mem_nil, fun row mem => absurd mem List.not_mem_nil⟩
  | draw s used names =>
    exact ⟨Set.subset_union_left, fun view mem _ => ⟨view, mem, .refl view, fun _ present _ => present⟩, fun _ mem _ => mem⟩

theorem prims_keep {s t : System Value} (prims : ReflTransGen Prim s t) (sound : s.Sound) : t.Sound ∧ Keeps s t := by
  induction prims with
  | refl => exact ⟨sound, .refl s⟩
  | tail _ prim ih => exact ⟨prim.sound ih.1, ih.2.trans (prim.keeps ih.1)⟩

end RssMdmAgent.PagedReads
