import Mathlib.Data.List.Sort
import Mathlib.Tactic.Linarith

set_option autoImplicit false

/-! # Paging by an exclusive descending key -/

namespace RssMdmAgent.KeysetPaging

variable {ρ κ : Type} [LinearOrder κ]

def descending (key : ρ → κ) (rows : List ρ) : List ρ :=
  rows.insertionSort fun a b => key b ≤ key a

def beyond (key : ρ → κ) (after : Option κ) (rows : List ρ) : List ρ :=
  rows.filter fun row => after.all fun last => key row < last

def page (key : ρ → κ) (rows : List ρ) (after : Option κ) (limit : Nat) : List ρ :=
  (descending key (beyond key after rows)).take limit

def cursor (key : ρ → κ) (read : List ρ) : Option κ := read.getLast?.map key

variable {key : ρ → κ} {rows read rest : List ρ}

theorem descending_perm (key : ρ → κ) (rows : List ρ) : (descending key rows).Perm rows :=
  List.perm_insertionSort _ rows

@[simp] theorem mem_descending {row : ρ} : row ∈ descending key rows ↔ row ∈ rows :=
  (descending_perm key rows).mem_iff

theorem descending_pairwise (key : ρ → κ) (rows : List ρ) :
    (descending key rows).Pairwise fun a b => key b ≤ key a := by
  have total : Std.Total fun a b : ρ => key b ≤ key a := ⟨fun a b => le_total (key b) (key a)⟩
  have transitive : IsTrans ρ fun a b => key b ≤ key a := ⟨fun _ _ _ first second => second.trans first⟩
  exact List.pairwise_insertionSort _ rows

theorem descending_strict (distinct : (rows.map key).Nodup) :
    (descending key rows).Pairwise fun a b => key b < key a := by
  have keys : ((descending key rows).map key).Nodup :=
    ((descending_perm key rows).map key).nodup_iff.mpr distinct
  unfold List.Nodup at keys
  rw [List.pairwise_map] at keys
  exact ((descending_pairwise key rows).and keys).imp fun h => lt_of_le_of_ne h.1 (Ne.symm h.2)

theorem descending_filter (distinct : (rows.map key).Nodup) (p : ρ → Bool) :
    descending key (rows.filter p) = (descending key rows).filter p := by
  have perm : (descending key (rows.filter p)).Perm ((descending key rows).filter p) :=
    (descending_perm key _).trans ((descending_perm key rows).filter p).symm
  apply perm.eq_of_pairwise _ (descending_pairwise key _) ((descending_pairwise key rows).filter p)
  intro a b memA memB below above
  rw [mem_descending] at memA
  have memB := mem_descending.mp (List.mem_of_mem_filter memB)
  exact List.inj_on_of_nodup_map distinct (List.mem_of_mem_filter memA) memB (le_antisymm above below)

theorem beyond_cursor (sorted : (read ++ rest).Pairwise fun a b => key b < key a) :
    beyond key (cursor key read) (read ++ rest) = rest := by
  rcases read.eq_nil_or_concat with rfl | ⟨earlier, last, rfl⟩
  · simp [beyond, cursor]
  rw [List.pairwise_append] at sorted
  obtain ⟨before, -, across⟩ := sorted
  rw [List.concat_eq_append] at before across ⊢
  have passed : ∀ row ∈ earlier ++ [last], key last ≤ key row := by
    intro row mem
    rw [List.mem_append, List.mem_singleton] at mem
    rcases mem with mem | rfl
    · have above : key last < key row :=
        (List.pairwise_append.mp before).2.2 row mem last List.mem_cons_self
      exact above.le
    · exact le_rfl
  have kept : rest.filter (fun row => decide (key row < key last)) = rest :=
    List.filter_eq_self.mpr fun row mem =>
      decide_eq_true (across last (List.mem_append_right _ List.mem_cons_self) row mem)
  have dropped : (earlier ++ [last]).filter (fun row => decide (key row < key last)) = [] :=
    List.filter_eq_nil_iff.mpr fun row mem => by simpa using passed row mem
  have reached : cursor key (earlier ++ [last]) = some (key last) := by simp [cursor]
  unfold beyond
  rw [reached]
  simp only [Option.all_some]
  rw [List.filter_append, dropped, kept, List.nil_append]

theorem page_cursor (distinct : (rows.map key).Nodup) (split : descending key rows = read ++ rest)
    (limit : Nat) : page key rows (cursor key read) limit = rest.take limit := by
  have sorted := descending_strict distinct
  unfold page
  unfold beyond
  rw [descending_filter distinct, split]
  rw [split] at sorted
  exact congrArg (List.take limit) (beyond_cursor sorted)

end RssMdmAgent.KeysetPaging
