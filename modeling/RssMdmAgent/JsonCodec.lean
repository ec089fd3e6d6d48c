import RssMdmAgent.JsonValue
import Mathlib.Logic.Equiv.Defs

set_option autoImplicit false

/-! # Types that are written as JSON values and read back

A codec reads what it writes. `tidy` is what a value becomes when doubles without a fraction have turned into integers; it is the
identity wherever no dynamic value occurs. Only the forms that are written are read: the sequence form of a record is left out. -/

namespace RssMdmAgent.JsonCodec
open JsonValue

structure Codec (α : Type) where
  write : α → Value
  read : Value → Option α
  tidy : α → α
  /-- No dynamic value occurs. -/
  static : Bool
  read_write : ∀ x, read (write x) = some x
  write_tidy : ∀ x, write (tidy x) = (write x).normal
  tidy_static : static = true → ∀ x, tidy x = x
  wellFormed : ∀ x, (write x).WellFormed

namespace Codec
variable {α β : Type}

theorem write_injective (c : Codec α) {x y : α} (same : c.write x = c.write y) : x = y := by
  have read := c.read_write x
  rw [same, c.read_write] at read
  exact (Option.some.inj read).symm

theorem tidy_tidy (c : Codec α) (x : α) : c.tidy (c.tidy x) = c.tidy x := by
  apply c.write_injective
  rw [c.write_tidy, c.write_tidy, normal_normal]

def bool : Codec Bool where
  write := .bool
  read
    | .bool b => some b
    | _ => none
  tidy := id
  static := true
  read_write _ := rfl
  write_tidy _ := rfl
  tidy_static _ _ := rfl
  wellFormed _ := trivial

/-- A validated text; validation gives back the text. -/
def parsed (value : α → String) (parse : String → Option α) (law : ∀ x, parse (value x) = some x) : Codec α where
  write x := .text (value x)
  read
    | .text s => parse s
    | _ => none
  tidy := id
  static := true
  read_write := law
  write_tidy _ := rfl
  tidy_static _ _ := rfl
  wellFormed _ := trivial

def text : Codec String := parsed id some fun _ => rfl

/-- An unsigned machine integer. -/
def unsigned (w : Nat) : Codec (BitVec w) where
  write n := .number (.int n.toNat)
  read
    | .number (.int (.ofNat n)) => if h : n < 2 ^ w then some (BitVec.ofNatLT n h) else none
    | _ => none
  tidy := id
  static := true
  tidy_static _ _ := rfl
  read_write n := by
    change (if h : n.toNat < 2 ^ w then some (BitVec.ofNatLT n.toNat h) else none) = some n
    rw [dif_pos n.isLt, BitVec.ofNatLT_toNat]
  write_tidy _ := rfl
  wellFormed _ := trivial

/-- A fieldless enumeration, written as the name of its value. -/
def enumeration [DecidableEq α] (name : α → String) (all : List α) (complete : ∀ x, x ∈ all) (distinct : (all.map name).Nodup) :
    Codec α where
  write x := .text (name x)
  read
    | .text s | .object [(s, .null)] => all.find? fun x => name x == s
    | _ => none
  tidy := id
  static := true
  tidy_static _ _ := rfl
  read_write x := by
    change all.find? (fun y => name y == name x) = some x
    cases found : all.find? fun y => name y == name x with
    | none => exact absurd (List.find?_eq_none.mp found x (complete x)) (by simp)
    | some y =>
      have same : name y = name x := by simpa using List.find?_some found
      rw [List.inj_on_of_nodup_map distinct (List.mem_of_find?_eq_some found) (complete x) same]
  write_tidy _ := rfl
  wellFormed _ := trivial

theorem mapM_read_write (c : Codec α) (xs : List α) : (xs.map c.write).mapM c.read = some xs := by
  induction xs with
  | nil => rfl
  | cons x rest ih => rw [List.map_cons, List.mapM_cons, c.read_write, ih]; rfl

def list (c : Codec α) : Codec (List α) where
  write xs := .array (xs.map c.write)
  read
    | .array items => items.mapM c.read
    | _ => none
  tidy xs := xs.map c.tidy
  static := c.static
  tidy_static same xs := (List.map_congr_left fun x _ => c.tidy_static same x).trans (List.map_id' xs)
  read_write := c.mapM_read_write
  write_tidy xs := by
    rw [Value.normal, normalItems_eq, List.map_map, List.map_map]
    exact congrArg Value.array (List.map_congr_left fun x _ => c.write_tidy x)
  wellFormed xs := by
    refine (itemsWellFormed_iff _).mpr fun v mem => ?_
    obtain ⟨x, -, rfl⟩ := List.mem_map.mp mem
    exact c.wellFormed x

/-- What a condition selects among the values of another codec. -/
def guarded (c : Codec α) (condition : α → Prop) [DecidablePred condition] (kept : ∀ x, condition x → condition (c.tidy x)) :
    Codec { x // condition x } where
  write x := c.write x.1
  read v := (c.read v).bind fun x => if h : condition x then some ⟨x, h⟩ else none
  tidy x := ⟨c.tidy x.1, kept x.1 x.2⟩
  static := c.static
  tidy_static same x := Subtype.ext (c.tidy_static same x.1)
  read_write x := by rw [c.read_write, Option.bind_some, dif_pos x.2]
  write_tidy x := c.write_tidy x.1
  wellFormed x := c.wellFormed x.1

/-- A dynamic value is kept as it is. -/
def dynamic : Codec { v : Value // v.WellFormed } where
  write v := v.1
  read v := v.unique.attach.map fun w => ⟨w.1, wellFormed_of_unique v w.1 w.2⟩
  tidy v := ⟨v.1.normal, normal_wellFormed v.1 v.2⟩
  static := false
  tidy_static same := by cases same
  read_write v := by
    have read := unique_of_wellFormed v.1 v.2
    rw [Option.map_eq_some_iff]
    exact ⟨⟨v.1, read⟩, Option.attach_eq_some_iff.mpr read, rfl⟩
  write_tidy _ := rfl
  wellFormed v := v.2

end Codec

structure NameMap {κ : Type} (value : κ → String) (α : Type) where
  entries : List (κ × α)
  ascending : (entries.map fun e => value e.1).Pairwise (· < ·)

namespace Codec
variable {κ α : Type} {value : κ → String}

def readEntry (parse : String → Option κ) (c : Codec α) (m : String × Value) : Option (κ × α) :=
  (parse m.1).bind fun key => (c.read m.2).map (key, ·)

def readEntries (value : κ → String) (parse : String → Option κ) (c : Codec α) (members : List (String × Value)) :
    Option (NameMap value α) :=
  (members.mapM (readEntry parse c)).bind fun entries =>
    if h : (entries.map fun e => value e.1).Pairwise (· < ·) then some ⟨entries, h⟩ else none

def map (parse : String → Option κ) (law : ∀ key, parse (value key) = some key) (c : Codec α) : Codec (NameMap value α) where
  write m := .object (m.entries.map fun e => (value e.1, c.write e.2))
  read
    | .object members => readEntries value parse c members
    | _ => none
  tidy m := ⟨m.entries.map fun e => (e.1, c.tidy e.2), by rw [List.map_map]; exact m.ascending⟩
  static := c.static
  tidy_static same m := by
    obtain ⟨entries, ascending⟩ := m
    have kept : (entries.map fun e => (e.1, c.tidy e.2)) = entries :=
      (List.map_congr_left fun e _ => congrArg (Prod.mk e.1) (c.tidy_static same e.2)).trans (List.map_id' entries)
    simp only [kept]
  read_write m := by
    have entries : ∀ rest : List (κ × α), (rest.map fun e => (value e.1, c.write e.2)).mapM (readEntry parse c) = some rest := by
      intro rest
      induction rest with
      | nil => rfl
      | cons e rest ih =>
        rw [List.map_cons, List.mapM_cons, ih, readEntry, law, c.read_write]
        rfl
    change readEntries value parse c _ = some m
    rw [readEntries, entries, Option.bind_some, dif_pos m.ascending]
  write_tidy m := by
    rw [Value.normal, normalMembers_eq, List.map_map, List.map_map]
    exact congrArg Value.object (List.map_congr_left fun e _ => congrArg (Prod.mk _) (c.write_tidy e.2))
  wellFormed m := by
    refine ⟨?_, (membersWellFormed_iff _).mpr fun n mem => ?_⟩
    · rw [List.map_map]
      exact m.ascending
    · obtain ⟨e, -, rfl⟩ := List.mem_map.mp mem
      exact c.wellFormed e.2

end Codec

structure AscendingSet (α : Type) [LinearOrder α] where
  items : List α
  ascending : items.Pairwise (· < ·)

section Sets
variable {α : Type} [LinearOrder α]

def insertAscending (x : α) : List α → List α
  | [] => [x]
  | y :: rest => if x < y then x :: y :: rest else if x = y then y :: rest else y :: insertAscending x rest

theorem mem_insertAscending {x z : α} {items : List α} (mem : z ∈ insertAscending x items) : z = x ∨ z ∈ items := by
  induction items with
  | nil => exact .inl (List.mem_singleton.mp mem)
  | cons y rest ih =>
    unfold insertAscending at mem
    split at mem
    · exact List.mem_cons.mp mem
    · split at mem
      · exact .inr mem
      · rcases List.mem_cons.mp mem with rfl | mem
        · exact .inr List.mem_cons_self
        · exact (ih mem).imp_right (List.mem_cons_of_mem y)

theorem insertAscending_pairwise (x : α) {items : List α} (ascending : items.Pairwise (· < ·)) :
    (insertAscending x items).Pairwise (· < ·) := by
  induction items with
  | nil => exact List.pairwise_singleton _ _
  | cons y rest ih =>
    obtain ⟨first, later⟩ := List.pairwise_cons.mp ascending
    unfold insertAscending
    split
    · next before =>
      refine List.pairwise_cons.mpr ⟨fun z mem => ?_, ascending⟩
      rcases List.mem_cons.mp mem with rfl | mem
      · exact before
      · exact lt_trans before (first z mem)
    next after =>
    split
    · exact ascending
    · next other =>
      refine List.pairwise_cons.mpr ⟨fun z mem => ?_, ih later⟩
      rcases mem_insertAscending mem with rfl | mem
      · exact lt_of_le_of_ne (not_lt.mp after) (Ne.symm other)
      · exact first z mem

def AscendingSet.ofList : List α → AscendingSet α
  | [] => ⟨[], .nil⟩
  | x :: rest => ⟨insertAscending x (ofList rest).items, insertAscending_pairwise x (ofList rest).ascending⟩

theorem AscendingSet.ofList_items (s : AscendingSet α) : ofList s.items = s := by
  obtain ⟨items, ascending⟩ := s
  have same : (ofList items).items = items := by
    induction items with
    | nil => rfl
    | cons x rest ih =>
      obtain ⟨first, later⟩ := List.pairwise_cons.mp ascending
      change insertAscending x (ofList rest).items = x :: rest
      rw [ih later]
      cases rest with
      | nil => rfl
      | cons y rest => exact if_pos (first y List.mem_cons_self)
  cases whole : ofList items
  rw [whole] at same
  cases same
  rfl

/-- A set is read from a list in any order; equal values fall together. -/
def Codec.set (c : Codec α) (plain : ∀ x, c.tidy x = x) : Codec (AscendingSet α) where
  write s := c.list.write s.items
  read v := (c.list.read v).map .ofList
  tidy := id
  static := true
  tidy_static _ _ := rfl
  read_write s := by rw [c.list.read_write, Option.map_some, AscendingSet.ofList_items]
  write_tidy s := by
    rw [← c.list.write_tidy]
    exact congrArg c.list.write (((List.map_congr_left fun x _ => plain x).trans (List.map_id' _)).symm)
  wellFormed s := c.list.wellFormed _

end Sets

/-- Some members of an object, found by their names. -/
structure Members (α : Type) where
  names : List String
  write : α → List (String × Value)
  read : (String → Option Value) → Option α
  tidy : α → α
  static : Bool
  names_write : ∀ x, (write x).map Prod.fst = names
  tidy_static : static = true → ∀ x, tidy x = x
  read_write : ∀ x find, (∀ m ∈ write x, find m.1 = some m.2) → read find = some x
  write_tidy : ∀ x, write (tidy x) = (write x).map fun m => (m.1, m.2.normal)
  wellFormed : ∀ x, ∀ m ∈ write x, m.2.WellFormed

namespace Members
variable {α β : Type}

def none : Members Unit where
  names := []
  write _ := []
  read _ := some ()
  tidy := id
  static := true
  tidy_static _ _ := rfl
  names_write _ := rfl
  read_write _ _ _ := rfl
  write_tidy _ := rfl
  wellFormed _ _ mem := by cases mem

def one (name : String) (c : Codec α) : Members α where
  names := [name]
  write x := [(name, c.write x)]
  read find := (find name).bind c.read
  tidy := c.tidy
  static := c.static
  tidy_static := c.tidy_static
  names_write _ := rfl
  read_write x find found := by rw [found _ List.mem_cons_self, Option.bind_some, c.read_write]
  write_tidy x := by rw [c.write_tidy]; rfl
  wellFormed x m mem := by rw [List.mem_singleton.mp mem]; exact c.wellFormed x

/-- A missing or null member is absent. -/
def optional (name : String) (c : Codec α) (solid : ∀ x, c.write x ≠ .null) : Members (Option α) where
  names := [name]
  write x := [(name, x.elim .null c.write)]
  read find :=
    match find name with
    | Option.none | some .null => some Option.none
    | some v => (c.read v).map some
  tidy x := x.map c.tidy
  static := c.static
  tidy_static same x := by cases x <;> simp [c.tidy_static same]
  names_write _ := rfl
  read_write x find found := by
    rw [found _ List.mem_cons_self]
    cases x with
    | none => rfl
    | some x =>
      have read := c.read_write x
      have present := solid x
      change (match some (c.write x) with | Option.none | some .null => some Option.none | some v => (c.read v).map some) = _
      split
      · next h => cases h
      · next h => exact absurd (Option.some.inj h) present
      · next v _ h => rw [← Option.some.inj h, read]; rfl
  write_tidy x := by
    cases x with
    | none => rfl
    | some x =>
      change [(name, c.write (c.tidy x))] = [(name, (c.write x).normal)]
      rw [c.write_tidy]
  wellFormed x m mem := by
    rw [List.mem_singleton.mp mem]
    cases x with
    | none => trivial
    | some x => exact c.wellFormed x

def and (a : Members α) (b : Members β) : Members (α × β) where
  names := a.names ++ b.names
  write x := a.write x.1 ++ b.write x.2
  read find := (a.read find).bind fun x => (b.read find).map (x, ·)
  tidy x := (a.tidy x.1, b.tidy x.2)
  static := a.static && b.static
  tidy_static same x := by
    rw [Bool.and_eq_true] at same
    rw [a.tidy_static same.1, b.tidy_static same.2]
  names_write x := by rw [List.map_append, a.names_write, b.names_write]
  read_write x find found := by
    rw [a.read_write x.1 find fun m mem => found m (List.mem_append_left _ mem),
      b.read_write x.2 find fun m mem => found m (List.mem_append_right _ mem)]
    rfl
  write_tidy x := by rw [List.map_append, a.write_tidy, b.write_tidy]
  wellFormed x m mem := (List.mem_append.mp mem).elim (a.wellFormed x.1 m) (b.wellFormed x.2 m)

def iso (a : Members α) (e : α ≃ β) : Members β where
  names := a.names
  write y := a.write (e.symm y)
  read find := (a.read find).map e
  tidy y := e (a.tidy (e.symm y))
  static := a.static
  tidy_static same y := by rw [a.tidy_static same, e.apply_symm_apply]
  names_write y := a.names_write _
  read_write y find found := by rw [a.read_write _ find found, Option.map_some, e.apply_symm_apply]
  write_tidy y := by rw [e.symm_apply_apply, a.write_tidy]
  wellFormed y := a.wellFormed _

theorem read_sorted (a : Members α) (distinct : a.names.Nodup) (x : α) {members : List (String × Value)}
    (same : members.Perm (a.write x)) : a.read (members.lookup ·) = some x := by
  refine a.read_write x _ fun m mem => lookup_of_mem ?_ (same.symm.subset mem)
  exact (same.map Prod.fst).symm.nodup (by rw [a.names_write]; exact distinct)

def readKnown (a : Members α) (members : List (String × Value)) : Option α :=
  if members.all fun m => a.names.contains m.1 then a.read (members.lookup ·) else Option.none

theorem readKnown_sorted (a : Members α) (distinct : a.names.Nodup) (x : α) {members : List (String × Value)}
    (same : members.Perm (a.write x)) : a.readKnown members = some x := by
  rw [readKnown, if_pos, a.read_sorted distinct x same]
  rw [List.all_eq_true]
  intro m mem
  rw [List.contains_iff_mem, ← a.names_write x]
  exact List.mem_map_of_mem (same.subset mem)

end Members

namespace Codec
variable {α : Type}

/-- A record: an object with exactly the given members. -/
def record (a : Members α) (distinct : a.names.Nodup) : Codec α where
  write x := .object (sortMembers (a.write x))
  read
    | .object members => a.readKnown members
    | _ => none
  tidy := a.tidy
  static := a.static
  tidy_static := a.tidy_static
  read_write x := a.readKnown_sorted distinct x (sortMembers_perm _)
  write_tidy x := by rw [a.write_tidy, sortMembers_map, Value.normal, normalMembers_eq]
  wellFormed x := by
    refine ⟨sortMembers_ascending (by rw [a.names_write]; exact distinct), (membersWellFormed_iff _).mpr fun m mem => ?_⟩
    exact a.wellFormed x m ((sortMembers_perm _).subset mem)

section Families
variable {κ : Type} (name : κ → String) (all : List κ)

def familyMembers {β : Type} (write : α → β) (f : κ → Option α) : List (String × β) :=
  all.filterMap fun key => (f key).map fun x => (name key, write x)

theorem familyMembers_names {β : Type} (write : α → β) (f : κ → Option α) :
    (familyMembers name all write f).map Prod.fst = (all.filter fun key => (f key).isSome).map name := by
  unfold familyMembers
  induction all with
  | nil => rfl
  | cons key rest ih => cases h : f key <;> simp [h, ih]

theorem familyMembers_distinct {β : Type} (write : α → β) (f : κ → Option α) (distinct : (all.map name).Nodup) :
    ((familyMembers name all write f).map Prod.fst).Nodup := by
  rw [familyMembers_names]
  exact distinct.sublist (List.filter_sublist.map name)

/-- A map from the values of an enumeration: an object with a member for each value that has an entry. -/
def family (complete : ∀ key, key ∈ all) (distinct : (all.map name).Nodup) (c : Codec α) : Codec (κ → Option α) where
  write f := .object (sortMembers (familyMembers name all c.write f))
  read
    | .object members =>
      if members.all fun m => all.any fun key => name key == m.1 && (c.read m.2).isSome then
        some fun key => (members.lookup (name key)).bind c.read
      else none
    | _ => none
  tidy f key := (f key).map c.tidy
  static := c.static
  tidy_static same f := by
    funext key
    cases f key <;> simp [c.tidy_static same]
  read_write f := by
    have same := sortMembers_perm (familyMembers name all c.write f)
    have nodup := (same.map Prod.fst).symm.nodup (familyMembers_distinct name all c.write f distinct)
    dsimp only
    rw [if_pos]
    · congr 1
      funext key
      cases h : f key with
      | none =>
        rw [lookup_none, Option.bind_none]
        intro mem
        have mem := (same.map Prod.fst).subset mem
        rw [familyMembers_names] at mem
        obtain ⟨other, mem, equal⟩ := List.mem_map.mp mem
        rw [List.inj_on_of_nodup_map distinct (complete other) (complete key) equal] at mem
        have present := (List.mem_filter.mp mem).2
        rw [h] at present
        cases present
      | some x =>
        have mem : (name key, c.write x) ∈ familyMembers name all c.write f :=
          List.mem_filterMap.mpr ⟨key, complete key, by rw [h]; rfl⟩
        rw [lookup_of_mem nodup (same.symm.subset mem), Option.bind_some, c.read_write]
    · rw [List.all_eq_true]
      intro m mem
      obtain ⟨key, -, written⟩ := List.mem_filterMap.mp (same.subset mem)
      obtain ⟨x, -, rfl⟩ := Option.map_eq_some_iff.mp written
      refine List.any_eq_true.mpr ⟨key, complete key, ?_⟩
      rw [c.read_write]
      simp
  write_tidy f := by
    rw [Value.normal, normalMembers_eq, ← sortMembers_map, familyMembers, familyMembers, List.map_filterMap]
    refine congrArg (fun members => Value.object (sortMembers members)) (List.filterMap_congr fun key _ => ?_)
    cases h : f key with
    | none => simp
    | some x => simp [c.write_tidy]
  wellFormed f := by
    refine ⟨sortMembers_ascending (familyMembers_distinct name all c.write f distinct), (membersWellFormed_iff _).mpr fun m mem => ?_⟩
    obtain ⟨key, -, written⟩ := List.mem_filterMap.mp ((sortMembers_perm _).subset mem)
    obtain ⟨x, -, rfl⟩ := Option.map_eq_some_iff.mp written
    exact c.wellFormed x

end Families

end Codec

/-- The cases of a tagged union, each with its tag and its members. -/
structure Cases (α : Type) where
  tags : List String
  names : List String
  write : α → String × List (String × Value)
  read : String → List (String × Value) → Option α
  tidy : α → α
  static : Bool
  tidy_static : static = true → ∀ x, tidy x = x
  tag_write : ∀ x, (write x).1 ∈ tags
  names_write : ∀ x, (write x).2.map Prod.fst ⊆ names
  distinct : ∀ x, ((write x).2.map Prod.fst).Nodup
  read_write : ∀ x members, members.Perm (write x).2 → read (write x).1 members = some x
  write_tidy : ∀ x, write (tidy x) = ((write x).1, (write x).2.map fun m => (m.1, m.2.normal))
  wellFormed : ∀ x, ∀ m ∈ (write x).2, m.2.WellFormed

namespace Cases
variable {α β : Type}

def one (tag : String) (a : Members α) (distinct : a.names.Nodup) : Cases α where
  tags := [tag]
  names := a.names
  write x := (tag, a.write x)
  read kind members := if kind = tag then a.readKnown members else none
  tidy := a.tidy
  static := a.static
  tidy_static := a.tidy_static
  tag_write _ := List.mem_cons_self
  names_write x := by rw [a.names_write]; exact List.Subset.refl _
  distinct x := by rw [a.names_write]; exact distinct
  read_write x members same := by rw [if_pos rfl, a.readKnown_sorted distinct x same]
  write_tidy x := by rw [a.write_tidy]
  wellFormed := a.wellFormed

def or (a : Cases α) (b : Cases β) (apart : ∀ tag ∈ b.tags, tag ∉ a.tags) : Cases (α ⊕ β) where
  tags := a.tags ++ b.tags
  names := a.names ++ b.names
  write := Sum.elim a.write b.write
  read kind members := if kind ∈ a.tags then (a.read kind members).map .inl else (b.read kind members).map .inr
  tidy := Sum.map a.tidy b.tidy
  static := a.static && b.static
  tidy_static same
    | .inl x => congrArg Sum.inl (a.tidy_static (Bool.and_eq_true_iff.mp same).1 x)
    | .inr y => congrArg Sum.inr (b.tidy_static (Bool.and_eq_true_iff.mp same).2 y)
  tag_write
    | .inl x => List.mem_append_left _ (a.tag_write x)
    | .inr y => List.mem_append_right _ (b.tag_write y)
  names_write
    | .inl x => fun _ mem => List.mem_append_left _ (a.names_write x mem)
    | .inr y => fun _ mem => List.mem_append_right _ (b.names_write y mem)
  distinct
    | .inl x => a.distinct x
    | .inr y => b.distinct y
  read_write
    | .inl x, members, same => by
      change (if (a.write x).1 ∈ a.tags then _ else _) = _
      rw [if_pos (a.tag_write x)]
      exact congrArg (Option.map Sum.inl) (a.read_write x members same)
    | .inr y, members, same => by
      change (if (b.write y).1 ∈ a.tags then _ else _) = _
      rw [if_neg (apart _ (b.tag_write y))]
      exact congrArg (Option.map Sum.inr) (b.read_write y members same)
  write_tidy
    | .inl x => a.write_tidy x
    | .inr y => b.write_tidy y
  wellFormed
    | .inl x => a.wellFormed x
    | .inr y => b.wellFormed y

def iso (a : Cases α) (e : α ≃ β) : Cases β where
  tags := a.tags
  names := a.names
  write y := a.write (e.symm y)
  read kind members := (a.read kind members).map e
  tidy y := e (a.tidy (e.symm y))
  static := a.static
  tidy_static same y := by rw [a.tidy_static same, e.apply_symm_apply]
  tag_write y := a.tag_write _
  names_write y := a.names_write _
  distinct y := a.distinct _
  read_write y members same := by rw [a.read_write _ members same, Option.map_some, e.apply_symm_apply]
  write_tidy y := by rw [e.symm_apply_apply, a.write_tidy]
  wellFormed y := a.wellFormed _

end Cases

namespace Codec
variable {α : Type}

/-- A tagged union: the tag is one more member of the object. -/
def tagged (tag : String) (a : Cases α) (free : tag ∉ a.names) : Codec α where
  write x := .object (sortMembers ((tag, .text (a.write x).1) :: (a.write x).2))
  read
    | .object members =>
      match members.lookup tag with
      | some (.text kind) => a.read kind (members.filter fun m => m.1 ≠ tag)
      | _ => none
    | _ => none
  tidy := a.tidy
  static := a.static
  tidy_static := a.tidy_static
  read_write x := by
    have fresh : tag ∉ (a.write x).2.map Prod.fst := fun mem => free (a.names_write x mem)
    have same := sortMembers_perm ((tag, Value.text (a.write x).1) :: (a.write x).2)
    have found : (sortMembers ((tag, Value.text (a.write x).1) :: (a.write x).2)).lookup tag = some (.text (a.write x).1) := by
      apply lookup_of_mem
      · exact (same.map Prod.fst).symm.nodup (List.nodup_cons.mpr ⟨fresh, a.distinct x⟩)
      · exact same.symm.subset List.mem_cons_self
    have others : ((sortMembers ((tag, Value.text (a.write x).1) :: (a.write x).2)).filter fun m => m.1 ≠ tag).Perm (a.write x).2 := by
      refine (same.filter _).trans ?_
      rw [List.filter_cons_of_neg (by simp), List.filter_eq_self.mpr]
      intro m mem
      have other : m.1 ≠ tag := fun h => fresh (h ▸ List.mem_map_of_mem mem)
      simpa using other
    dsimp only
    rw [found]
    exact a.read_write x _ others
  write_tidy x := by
    rw [a.write_tidy, Value.normal, normalMembers_eq, ← sortMembers_map, List.map_cons]
    rfl
  wellFormed x := by
    refine ⟨sortMembers_ascending (List.nodup_cons.mpr ⟨fun mem => free (a.names_write x mem), a.distinct x⟩), ?_⟩
    refine (membersWellFormed_iff _).mpr fun m mem => ?_
    rcases List.mem_cons.mp ((sortMembers_perm _).subset mem) with rfl | mem
    · trivial
    · exact a.wellFormed x m mem

end Codec

end RssMdmAgent.JsonCodec
