import Mathlib.Data.Rat.Defs
import Mathlib.Data.List.Nodup
import Mathlib.Data.String.Basic
import Mathlib.Tactic.Linarith

set_option autoImplicit false

/-! # JSON values whose objects are ordered maps -/

namespace RssMdmAgent.JsonValue

def isDouble (x : Rat) : Bool :=
  2 ^ 1074 % x.den == 0 && (List.range 972).any fun k => x.num.natAbs % 2 ^ k == 0 && x.num.natAbs < 2 ^ (53 + k)

structure Double where
  value : Rat
  finite : isDouble value = true
  deriving DecidableEq

inductive Number where
  | int (value : Int)
  | float (x : Double)
  deriving DecidableEq

def Number.normal : Number → Number
  | .int n => .int n
  | .float x => if x.value.den = 1 then .int x.value.num else .float x

def Number.isInt : Number → Bool
  | .int _ => true
  | .float _ => false

def Number.isFraction : Number → Bool
  | .int _ => false
  | .float x => x.value.den ≠ 1

inductive Value where
  | null
  | bool (value : Bool)
  | number (value : Number)
  | text (value : String)
  | array (items : List Value)
  | object (members : List (String × Value))

def insertMember {α : Type} (m : String × α) : List (String × α) → List (String × α)
  | [] => [m]
  | other :: rest => if m.1 < other.1 then m :: other :: rest else other :: insertMember m rest

def sortMembers {α : Type} (members : List (String × α)) : List (String × α) := members.foldr insertMember []

mutual

def Value.normal : Value → Value
  | .number n => .number n.normal
  | .array items => .array (normalItems items)
  | .object members => .object (normalMembers members)
  | v => v

def normalItems : List Value → List Value
  | [] => []
  | item :: rest => item.normal :: normalItems rest

def normalMembers : List (String × Value) → List (String × Value)
  | [] => []
  | (name, v) :: rest => (name, v.normal) :: normalMembers rest

end

mutual

def Value.numbers : Value → List Number
  | .number n => [n]
  | .array items => itemNumbers items
  | .object members => memberNumbers members
  | _ => []

def itemNumbers : List Value → List Number
  | [] => []
  | item :: rest => item.numbers ++ itemNumbers rest

def memberNumbers : List (String × Value) → List Number
  | [] => []
  | (_, v) :: rest => v.numbers ++ memberNumbers rest

end

mutual

def Value.WellFormed : Value → Prop
  | .array items => ItemsWellFormed items
  | .object members => (members.map Prod.fst).Pairwise (· < ·) ∧ MembersWellFormed members
  | _ => True

def ItemsWellFormed : List Value → Prop
  | [] => True
  | item :: rest => item.WellFormed ∧ ItemsWellFormed rest

def MembersWellFormed : List (String × Value) → Prop
  | [] => True
  | (_, v) :: rest => v.WellFormed ∧ MembersWellFormed rest

end

mutual

def Value.unique : Value → Option Value
  | .array items => (uniqueItems items).map .array
  | .object members => (uniqueMembers members).map .object
  | v => some v

def uniqueItems : List Value → Option (List Value)
  | [] => some []
  | item :: rest => do
    let v ← item.unique
    let others ← uniqueItems rest
    return v :: others

def uniqueMembers : List (String × Value) → Option (List (String × Value))
  | [] => some []
  | (name, item) :: rest => do
    let v ← item.unique
    let others ← uniqueMembers rest
    if others.any fun other => other.1 == name then none else return insertMember (name, v) others

end

section Order
variable {α : Type}

theorem insertMember_perm (m : String × α) (members : List (String × α)) : (insertMember m members).Perm (m :: members) := by
  induction members with
  | nil => exact .refl _
  | cons other rest ih =>
    unfold insertMember
    split
    · exact .refl _
    · exact (ih.cons other).trans (.swap m other rest)

theorem sortMembers_perm (members : List (String × α)) : (sortMembers members).Perm members := by
  induction members with
  | nil => exact .refl _
  | cons m rest ih => exact (insertMember_perm m _).trans (ih.cons m)

theorem insertMember_ascending {m : String × α} {members : List (String × α)} (ascending : (members.map Prod.fst).Pairwise (· < ·))
    (new : m.1 ∉ members.map Prod.fst) : ((insertMember m members).map Prod.fst).Pairwise (· < ·) := by
  induction members with
  | nil => simp [insertMember]
  | cons other rest ih =>
    obtain ⟨first, later⟩ := List.pairwise_cons.mp ascending
    rw [List.map_cons, List.mem_cons, not_or] at new
    unfold insertMember
    split
    · next before =>
      refine List.pairwise_cons.mpr ⟨fun name mem => ?_, ascending⟩
      rcases List.mem_cons.mp mem with rfl | mem
      · exact before
      · exact lt_trans before (first name mem)
    · next after =>
      refine List.pairwise_cons.mpr ⟨fun name mem => ?_, ih later new.2⟩
      rcases List.mem_cons.mp (((insertMember_perm m rest).map Prod.fst).subset mem) with rfl | mem
      · exact lt_of_le_of_ne (not_lt.mp after) (Ne.symm new.1)
      · exact first name mem

theorem sortMembers_ascending {members : List (String × α)} (distinct : (members.map Prod.fst).Nodup) :
    ((sortMembers members).map Prod.fst).Pairwise (· < ·) := by
  induction members with
  | nil => exact .nil
  | cons m rest ih =>
    obtain ⟨new, distinct⟩ := List.nodup_cons.mp distinct
    exact insertMember_ascending (ih distinct) fun mem => new (((sortMembers_perm rest).map Prod.fst).subset mem)

theorem insertMember_first {m : String × α} {members : List (String × α)} (first : ∀ name ∈ members.map Prod.fst, m.1 < name) :
    insertMember m members = m :: members := by
  cases members with
  | nil => rfl
  | cons other rest =>
    unfold insertMember
    rw [if_pos (first other.1 List.mem_cons_self)]

theorem sortMembers_ascending_eq {members : List (String × α)} (ascending : (members.map Prod.fst).Pairwise (· < ·)) :
    sortMembers members = members := by
  induction members with
  | nil => rfl
  | cons m rest ih =>
    obtain ⟨first, later⟩ := List.pairwise_cons.mp ascending
    change insertMember m (sortMembers rest) = m :: rest
    rw [ih later, insertMember_first first]

theorem ascending_unique {a b : List (String × α)} (left : (a.map Prod.fst).Pairwise (· < ·)) (right : (b.map Prod.fst).Pairwise (· < ·))
    (same : a.Perm b) : a = b :=
  same.eq_of_pairwise (fun _ _ _ _ before after => absurd after (lt_asymm before)) (List.pairwise_map.mp left) (List.pairwise_map.mp right)

theorem ascending_nodup {names : List String} (ascending : names.Pairwise (· < ·)) : names.Nodup :=
  ascending.imp fun before same => absurd (same ▸ before) (lt_irrefl _)

theorem lookup_of_mem {members : List (String × α)} (distinct : (members.map Prod.fst).Nodup) {name : String} {v : α}
    (mem : (name, v) ∈ members) : members.lookup name = some v := by
  induction members with
  | nil => cases mem
  | cons m rest ih =>
    obtain ⟨first, w⟩ := m
    obtain ⟨new, distinct⟩ := List.nodup_cons.mp distinct
    rcases List.mem_cons.mp mem with same | later
    · cases same
      exact List.lookup_cons_self
    · have other : (name == first) = false := by
        rw [beq_eq_false_iff_ne]
        rintro rfl
        exact new (List.mem_map.mpr ⟨_, later, rfl⟩)
      rw [List.lookup_cons, other]
      exact ih distinct later

theorem lookup_none {members : List (String × α)} {name : String} (absent : name ∉ members.map Prod.fst) : members.lookup name = none := by
  induction members with
  | nil => rfl
  | cons m rest ih =>
    obtain ⟨first, w⟩ := m
    rw [List.map_cons, List.mem_cons, not_or] at absent
    rw [List.lookup_cons, beq_eq_false_iff_ne.mpr absent.1]
    exact ih absent.2

end Order

section Values

@[simp] theorem normalItems_eq (items : List Value) : normalItems items = items.map Value.normal := by
  induction items with
  | nil => rfl
  | cons item rest ih => rw [normalItems, ih, List.map_cons]

@[simp] theorem normalMembers_eq (members : List (String × Value)) :
    normalMembers members = members.map fun m => (m.1, m.2.normal) := by
  induction members with
  | nil => rfl
  | cons m rest ih => rw [normalMembers, ih, List.map_cons]

theorem itemsWellFormed_iff (items : List Value) : ItemsWellFormed items ↔ ∀ v ∈ items, v.WellFormed := by
  induction items with
  | nil => simp [ItemsWellFormed]
  | cons item rest ih => simp [ItemsWellFormed, ih]

theorem membersWellFormed_iff (members : List (String × Value)) : MembersWellFormed members ↔ ∀ m ∈ members, m.2.WellFormed := by
  induction members with
  | nil => simp [MembersWellFormed]
  | cons m rest ih => simp [MembersWellFormed, ih]

@[simp] theorem itemNumbers_eq (items : List Value) : itemNumbers items = items.flatMap Value.numbers := by
  induction items with
  | nil => rfl
  | cons item rest ih => rw [itemNumbers, ih, List.flatMap_cons]

@[simp] theorem memberNumbers_eq (members : List (String × Value)) : memberNumbers members = members.flatMap fun m => m.2.numbers := by
  induction members with
  | nil => rfl
  | cons m rest ih => rw [memberNumbers, ih, List.flatMap_cons]

theorem insertMember_map {α β : Type} (f : α → β) (m : String × α) (members : List (String × α)) :
    insertMember (m.1, f m.2) (members.map fun n => (n.1, f n.2)) = (insertMember m members).map fun n => (n.1, f n.2) := by
  induction members with
  | nil => rfl
  | cons other rest ih =>
    rw [List.map_cons]
    unfold insertMember
    split <;> simp_all

theorem sortMembers_map {α β : Type} (f : α → β) (members : List (String × α)) :
    sortMembers (members.map fun n => (n.1, f n.2)) = (sortMembers members).map fun n => (n.1, f n.2) := by
  induction members with
  | nil => rfl
  | cons m rest ih =>
    change insertMember (m.1, f m.2) (sortMembers (rest.map fun n => (n.1, f n.2))) = (insertMember m (sortMembers rest)).map _
    rw [ih, insertMember_map]

mutual

theorem normal_wellFormed : ∀ v : Value, v.WellFormed → v.normal.WellFormed
  | .null, h | .bool _, h | .number _, h | .text _, h => h
  | .array items, h => normalItems_wellFormed items h
  | .object members, h => by
    refine ⟨?_, normalMembers_wellFormed members h.2⟩
    rw [normalMembers_eq, List.map_map]
    exact h.1

theorem normalItems_wellFormed : ∀ items, ItemsWellFormed items → ItemsWellFormed (normalItems items)
  | [], _ => trivial
  | item :: rest, h => ⟨normal_wellFormed item h.1, normalItems_wellFormed rest h.2⟩

theorem normalMembers_wellFormed : ∀ members, MembersWellFormed members → MembersWellFormed (normalMembers members)
  | [], _ => trivial
  | (_, v) :: rest, h => ⟨normal_wellFormed v h.1, normalMembers_wellFormed rest h.2⟩

end

mutual

theorem unique_of_wellFormed : ∀ v : Value, v.WellFormed → v.unique = some v
  | .null, _ | .bool _, _ | .number _, _ | .text _, _ => rfl
  | .array items, h => by rw [Value.unique, uniqueItems_of_wellFormed items h, Option.map_some]
  | .object members, h => by rw [Value.unique, uniqueMembers_of_wellFormed members h.1 h.2, Option.map_some]

theorem uniqueItems_of_wellFormed : ∀ items, ItemsWellFormed items → uniqueItems items = some items
  | [], _ => rfl
  | item :: rest, h => by
    rw [uniqueItems, unique_of_wellFormed item h.1, uniqueItems_of_wellFormed rest h.2]
    rfl

theorem uniqueMembers_of_wellFormed : ∀ members : List (String × Value), (members.map Prod.fst).Pairwise (· < ·) →
    MembersWellFormed members → uniqueMembers members = some members
  | [], _, _ => rfl
  | (name, v) :: rest, ascending, h => by
    obtain ⟨first, later⟩ := List.pairwise_cons.mp ascending
    have new : (rest.any fun other => other.1 == name) = false := by
      rw [List.any_eq_false]
      intro other mem same
      rw [beq_iff_eq] at same
      exact absurd (same ▸ first other.1 (List.mem_map_of_mem mem)) (lt_irrefl _)
    rw [uniqueMembers, unique_of_wellFormed v h.1, uniqueMembers_of_wellFormed rest later h.2]
    simp only [Option.bind_eq_bind, Option.bind_some, new, Bool.false_eq_true, if_false, Option.pure_def]
    rw [insertMember_first first]

end

mutual

theorem wellFormed_of_unique : ∀ v w : Value, v.unique = some w → w.WellFormed
  | .null, _, h | .bool _, _, h | .number _, _, h | .text _, _, h => by cases h; trivial
  | .array items, w, h => by
    obtain ⟨read, found, rfl⟩ := Option.map_eq_some_iff.mp h
    exact wellFormed_of_uniqueItems items read found
  | .object members, w, h => by
    obtain ⟨read, found, rfl⟩ := Option.map_eq_some_iff.mp h
    exact wellFormed_of_uniqueMembers members read found

theorem wellFormed_of_uniqueItems : ∀ items read, uniqueItems items = some read → ItemsWellFormed read
  | [], _, h => by cases h; trivial
  | item :: rest, read, h => by
    rw [uniqueItems] at h
    obtain ⟨v, head, h⟩ := Option.bind_eq_some_iff.mp h
    obtain ⟨others, tail, h⟩ := Option.bind_eq_some_iff.mp h
    cases h
    exact ⟨wellFormed_of_unique item v head, wellFormed_of_uniqueItems rest others tail⟩

theorem wellFormed_of_uniqueMembers : ∀ members read, uniqueMembers members = some read →
    (read.map Prod.fst).Pairwise (· < ·) ∧ MembersWellFormed read
  | [], _, h => by cases h; exact ⟨.nil, trivial⟩
  | (name, item) :: rest, read, h => by
    rw [uniqueMembers] at h
    obtain ⟨v, head, h⟩ := Option.bind_eq_some_iff.mp h
    obtain ⟨others, tail, h⟩ := Option.bind_eq_some_iff.mp h
    obtain ⟨ascending, formed⟩ := wellFormed_of_uniqueMembers rest others tail
    split at h
    · cases h
    next new =>
    cases h
    refine ⟨insertMember_ascending ascending fun mem => new ?_, ?_⟩
    · obtain ⟨other, mem, same⟩ := List.mem_map.mp mem
      exact List.any_eq_true.mpr ⟨other, mem, beq_iff_eq.mpr same⟩
    · rw [membersWellFormed_iff] at formed ⊢
      intro m mem
      rcases List.mem_cons.mp ((insertMember_perm _ _).subset mem) with rfl | mem
      · exact wellFormed_of_unique item v head
      · exact formed m mem

end

mutual

theorem numbers_normal : ∀ v : Value, v.normal.numbers = v.numbers.map Number.normal
  | .null | .bool _ | .number _ | .text _ => rfl
  | .array items => itemNumbers_normal items
  | .object members => memberNumbers_normal members

theorem itemNumbers_normal : ∀ items, itemNumbers (normalItems items) = (itemNumbers items).map Number.normal
  | [] => rfl
  | item :: rest => by rw [normalItems, itemNumbers, itemNumbers, numbers_normal item, itemNumbers_normal rest, List.map_append]

theorem memberNumbers_normal : ∀ members, memberNumbers (normalMembers members) = (memberNumbers members).map Number.normal
  | [] => rfl
  | (_, v) :: rest => by rw [normalMembers, memberNumbers, memberNumbers, numbers_normal v, memberNumbers_normal rest, List.map_append]

end

theorem Number.normal_normal (n : Number) : n.normal.normal = n.normal := by
  cases n with
  | int => rfl
  | float x =>
    by_cases whole : x.value.den = 1 <;> simp [Number.normal, whole]

mutual

theorem normal_normal : ∀ v : Value, v.normal.normal = v.normal
  | .null | .bool _ | .text _ => rfl
  | .number n => congrArg Value.number n.normal_normal
  | .array items => congrArg Value.array (normalItems_normal items)
  | .object members => congrArg Value.object (normalMembers_normal members)

theorem normalItems_normal : ∀ items, normalItems (normalItems items) = normalItems items
  | [] => rfl
  | item :: rest => by rw [normalItems, normalItems, normal_normal item, normalItems_normal rest]

theorem normalMembers_normal : ∀ members, normalMembers (normalMembers members) = normalMembers members
  | [] => rfl
  | (_, v) :: rest => by rw [normalMembers, normalMembers, normal_normal v, normalMembers_normal rest]

end

mutual

theorem normal_of_isInt : ∀ v : Value, (∀ n ∈ v.numbers, n.isInt = true) → v.normal = v
  | .null, _ | .bool _, _ | .text _, _ => rfl
  | .number (.int _), _ => rfl
  | .number (.float x), h => by cases h (.float x) List.mem_cons_self
  | .array items, h => congrArg Value.array (normalItems_of_isInt items h)
  | .object members, h => congrArg Value.object (normalMembers_of_isInt members h)

theorem normalItems_of_isInt : ∀ items, (∀ n ∈ itemNumbers items, n.isInt = true) → normalItems items = items
  | [], _ => rfl
  | item :: rest, h => by
    rw [normalItems, normal_of_isInt item fun n mem => h n (List.mem_append_left _ mem),
      normalItems_of_isInt rest fun n mem => h n (List.mem_append_right _ mem)]

theorem normalMembers_of_isInt : ∀ members, (∀ n ∈ memberNumbers members, n.isInt = true) → normalMembers members = members
  | [], _ => rfl
  | (_, v) :: rest, h => by
    rw [normalMembers, normal_of_isInt v fun n mem => h n (List.mem_append_left _ mem),
      normalMembers_of_isInt rest fun n mem => h n (List.mem_append_right _ mem)]

end

theorem normal_isInt {v : Value} (whole : ∀ n ∈ v.numbers, n.isFraction = false) : ∀ n ∈ v.normal.numbers, n.isInt = true := by
  intro n mem
  rw [numbers_normal] at mem
  obtain ⟨m, source, rfl⟩ := List.mem_map.mp mem
  have plain := whole m source
  cases m with
  | int => rfl
  | float x =>
    simp only [Number.isFraction, ne_eq, decide_not, Bool.not_eq_false', decide_eq_true_eq] at plain
    rw [Number.normal, if_pos plain]
    rfl

end Values

end RssMdmAgent.JsonValue
