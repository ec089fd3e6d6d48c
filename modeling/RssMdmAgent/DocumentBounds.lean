import RssMdmAgent.PlanFreezing
import RssMdmAgent.PlanShape

set_option autoImplicit false

/-! # The bounds of a document and of its parts -/

namespace RssMdmAgent.DocumentBounds
open ContractIdentity JsonValue JsonCodec JsonText NetworkHosts PlanModel PlanCodec PlanValidation PlanFreezing
open ProgramInstructions (Platform RunAs SoftwareOperation SoftwarePhase ResourceNaming)
open ContractPlan (ExecutionLimits maxSafeInteger bind_ok)
open PlanShape (forM_ok)

theorem check_ok {ok : Bool} {error : ContractError} : check ok error = .ok () ↔ ok = true := by
  cases ok <;> simp [check]

theorem forM_ok_iff {α : Type} {f : α → Checked} {items : List α} : items.forM f = .ok () ↔ ∀ item ∈ items, f item = .ok () := by
  refine ⟨forM_ok, fun h => ?_⟩
  induction items with
  | nil => rfl
  | cons item rest ih =>
    exact bind_ok.mpr ⟨(), h item List.mem_cons_self, ih fun other mem => h other (List.mem_cons_of_mem item mem)⟩

section Documents
variable {l : ExecutionLimits}

theorem safeNumber_normal (n : Number) : safeNumber n.normal = safeNumber n := by
  cases n with
  | int => rfl
  | float x => by_cases whole : x.value.den = 1 <;> simp [Number.normal, safeNumber, whole]

mutual

theorem walk_normal (l : ExecutionLimits) : ∀ (v : Value) (depth left : Nat), walk l depth left v.normal = walk l depth left v
  | .null, _, _ | .bool _, _, _ | .text _, _, _ => rfl
  | .number n, depth, left => by rw [Value.normal, walk, walk, safeNumber_normal]
  | .array items, depth, left => by
    rw [Value.normal, walk, walk, normalItems_eq, List.length_map, ← normalItems_eq]
    simp only [walkItems_normal l items]
  | .object members, depth, left => by
    rw [Value.normal, walk, walk, normalMembers_eq, List.length_map, ← normalMembers_eq]
    simp only [walkMembers_normal l members]

theorem walkItems_normal (l : ExecutionLimits) : ∀ (items : List Value) (depth left : Nat),
    walkItems l depth left (normalItems items) = walkItems l depth left items
  | [], _, _ => rfl
  | item :: rest, depth, left => by
    rw [normalItems, walkItems, walkItems, walk_normal l item]
    simp only [walkItems_normal l rest]

theorem walkMembers_normal (l : ExecutionLimits) : ∀ (members : List (String × Value)) (depth left : Nat),
    walkMembers l depth left (normalMembers members) = walkMembers l depth left members
  | [], _, _ => rfl
  | (name, item) :: rest, depth, left => by
    rw [normalMembers, walkMembers, walkMembers, walk_normal l item]
    simp only [walkMembers_normal l rest]

end

theorem checkJson_normal (v : Value) : checkJson v.normal l = checkJson v l := by
  rw [checkJson, checkJson, walk_normal]

mutual

theorem walk_safe : ∀ (v : Value) {depth left r : Nat}, walk l depth left v = .ok r → ∀ n ∈ v.numbers, safeNumber n = true
  | .null, _, _, _, _ | .bool _, _, _, _, _ | .text _, _, _, _, _ => fun _ mem => by cases mem
  | .number n, depth, left, r, h => by
    rw [walk] at h
    obtain ⟨_, -, h⟩ := bind_ok.mp h
    obtain ⟨_, safe, -⟩ := bind_ok.mp h
    intro m mem
    rw [List.mem_singleton.mp mem]
    exact check_ok.mp safe
  | .array items, depth, left, r, h => by
    rw [walk] at h
    obtain ⟨_, -, h⟩ := bind_ok.mp h
    obtain ⟨_, -, h⟩ := bind_ok.mp h
    exact walkItems_safe items h
  | .object members, depth, left, r, h => by
    rw [walk] at h
    obtain ⟨_, -, h⟩ := bind_ok.mp h
    obtain ⟨_, -, h⟩ := bind_ok.mp h
    exact walkMembers_safe members h

theorem walkItems_safe : ∀ (items : List Value) {depth left r : Nat}, walkItems l depth left items = .ok r →
    ∀ n ∈ itemNumbers items, safeNumber n = true
  | [], _, _, _, _ => fun _ mem => by cases mem
  | item :: rest, depth, left, r, h => by
    rw [walkItems] at h
    obtain ⟨_, first, h⟩ := bind_ok.mp h
    intro n mem
    rcases List.mem_append.mp mem with mem | mem
    · exact walk_safe item first n mem
    · exact walkItems_safe rest h n mem

theorem walkMembers_safe : ∀ (members : List (String × Value)) {depth left r : Nat}, walkMembers l depth left members = .ok r →
    ∀ n ∈ memberNumbers members, safeNumber n = true
  | [], _, _, _, _ => fun _ mem => by cases mem
  | (name, item) :: rest, depth, left, r, h => by
    rw [walkMembers] at h
    obtain ⟨_, -, h⟩ := bind_ok.mp h
    obtain ⟨_, first, h⟩ := bind_ok.mp h
    intro n mem
    rcases List.mem_append.mp mem with mem | mem
    · exact walk_safe item first n mem
    · exact walkMembers_safe rest h n mem

end

theorem checkJson_ok {v : Value} : checkJson v l = .ok () ↔ ∃ r, walk l 1 l.maxNodes v = .ok r := by
  unfold checkJson
  cases walk l 1 l.maxNodes v <;> simp [bind, Except.bind, pure, Except.pure]

theorem exact_of_checked {v : Value} (checked : checkJson v l = .ok ()) : Exact v := by
  obtain ⟨r, h⟩ := checkJson_ok.mp checked
  intro n mem i same
  rw [← walk_normal] at h
  have safe := walk_safe v.normal h n mem
  rw [same] at safe
  have bound : i.natAbs ≤ 9007199254740991 := of_decide_eq_true safe
  omega

theorem node_more {depth depth' left left' r : Nat} (h : node l depth left = .ok r) (shallow : depth' ≤ depth) (more : left ≤ left') :
    ∃ r', node l depth' left' = .ok r' ∧ r ≤ r' := by
  unfold node at h ⊢
  obtain ⟨_, deep, h⟩ := bind_ok.mp h
  obtain ⟨_, some_, h⟩ := bind_ok.mp h
  cases h
  have deep := check_ok.mp deep
  have some_ := check_ok.mp some_
  simp only [decide_eq_true_eq, ne_eq] at deep some_
  refine ⟨left' - 1, ?_, by omega⟩
  rw [check_ok.mpr (by simp only [decide_eq_true_eq]; omega), check_ok.mpr (by simp only [ne_eq, decide_eq_true_eq]; omega)]
  rfl

mutual

theorem walk_more : ∀ (v : Value) {depth depth' left left' r : Nat}, walk l depth left v = .ok r → depth' ≤ depth → left ≤ left' →
    ∃ r', walk l depth' left' v = .ok r' ∧ r ≤ r'
  | .null, _, _, _, _, _, h, shallow, more | .bool _, _, _, _, _, _, h, shallow, more => node_more h shallow more
  | .number n, _, _, _, _, _, h, shallow, more => by
    rw [walk] at h ⊢
    obtain ⟨_, first, h⟩ := bind_ok.mp h
    obtain ⟨_, safe, h⟩ := bind_ok.mp h
    cases h
    obtain ⟨r', first', le⟩ := node_more first shallow more
    exact ⟨r', bind_ok.mpr ⟨_, first', bind_ok.mpr ⟨_, safe, rfl⟩⟩, le⟩
  | .text s, _, _, _, _, _, h, shallow, more => by
    rw [walk] at h ⊢
    obtain ⟨_, first, h⟩ := bind_ok.mp h
    obtain ⟨_, size, h⟩ := bind_ok.mp h
    cases h
    obtain ⟨r', first', le⟩ := node_more first shallow more
    exact ⟨r', bind_ok.mpr ⟨_, first', bind_ok.mpr ⟨_, size, rfl⟩⟩, le⟩
  | .array items, _, _, _, _, _, h, shallow, more => by
    rw [walk] at h ⊢
    obtain ⟨_, first, h⟩ := bind_ok.mp h
    obtain ⟨_, count, h⟩ := bind_ok.mp h
    obtain ⟨r₁, first', le⟩ := node_more first shallow more
    obtain ⟨r', rest', le'⟩ := walkItems_more items h (Nat.succ_le_succ shallow) le
    exact ⟨r', bind_ok.mpr ⟨_, first', bind_ok.mpr ⟨_, count, rest'⟩⟩, le'⟩
  | .object members, _, _, _, _, _, h, shallow, more => by
    rw [walk] at h ⊢
    obtain ⟨_, first, h⟩ := bind_ok.mp h
    obtain ⟨_, count, h⟩ := bind_ok.mp h
    obtain ⟨r₁, first', le⟩ := node_more first shallow more
    obtain ⟨r', rest', le'⟩ := walkMembers_more members h (Nat.succ_le_succ shallow) le
    exact ⟨r', bind_ok.mpr ⟨_, first', bind_ok.mpr ⟨_, count, rest'⟩⟩, le'⟩

theorem walkItems_more : ∀ (items : List Value) {depth depth' left left' r : Nat}, walkItems l depth left items = .ok r → depth' ≤ depth →
    left ≤ left' → ∃ r', walkItems l depth' left' items = .ok r' ∧ r ≤ r'
  | [], _, _, _, _, _, h, _, more => by
    cases h
    exact ⟨_, rfl, more⟩
  | item :: rest, _, _, _, _, _, h, shallow, more => by
    rw [walkItems] at h ⊢
    obtain ⟨_, first, h⟩ := bind_ok.mp h
    obtain ⟨r₁, first', le⟩ := walk_more item first shallow more
    obtain ⟨r', rest', le'⟩ := walkItems_more rest h shallow le
    exact ⟨r', bind_ok.mpr ⟨_, first', rest'⟩, le'⟩

theorem walkMembers_more : ∀ (members : List (String × Value)) {depth depth' left left' r : Nat}, walkMembers l depth left members = .ok r →
    depth' ≤ depth → left ≤ left' → ∃ r', walkMembers l depth' left' members = .ok r' ∧ r ≤ r'
  | [], _, _, _, _, _, h, _, more => by
    cases h
    exact ⟨_, rfl, more⟩
  | (name, item) :: rest, _, _, _, _, _, h, shallow, more => by
    rw [walkMembers] at h ⊢
    obtain ⟨_, named, h⟩ := bind_ok.mp h
    obtain ⟨_, first, h⟩ := bind_ok.mp h
    obtain ⟨r₁, first', le⟩ := walk_more item first shallow more
    obtain ⟨r', rest', le'⟩ := walkMembers_more rest h shallow le
    exact ⟨r', bind_ok.mpr ⟨_, named, bind_ok.mpr ⟨_, first', rest'⟩⟩, le'⟩

end

theorem node_le {depth left r : Nat} (h : node l depth left = .ok r) : r ≤ left := by
  unfold node at h
  obtain ⟨_, -, h⟩ := bind_ok.mp h
  obtain ⟨_, -, h⟩ := bind_ok.mp h
  cases h
  exact Nat.sub_le left 1

mutual

theorem walk_le : ∀ (v : Value) {depth left r : Nat}, walk l depth left v = .ok r → r ≤ left
  | .null, _, _, _, h | .bool _, _, _, _, h => node_le h
  | .number _, _, _, _, h | .text _, _, _, _, h => by
    rw [walk] at h
    obtain ⟨_, first, h⟩ := bind_ok.mp h
    obtain ⟨_, -, h⟩ := bind_ok.mp h
    cases h
    exact node_le first
  | .array items, _, _, _, h => by
    rw [walk] at h
    obtain ⟨_, first, h⟩ := bind_ok.mp h
    obtain ⟨_, -, h⟩ := bind_ok.mp h
    exact Nat.le_trans (walkItems_le items h) (node_le first)
  | .object members, _, _, _, h => by
    rw [walk] at h
    obtain ⟨_, first, h⟩ := bind_ok.mp h
    obtain ⟨_, -, h⟩ := bind_ok.mp h
    exact Nat.le_trans (walkMembers_le members h) (node_le first)

theorem walkItems_le : ∀ (items : List Value) {depth left r : Nat}, walkItems l depth left items = .ok r → r ≤ left
  | [], _, _, _, h => by cases h; exact Nat.le_refl _
  | item :: rest, _, _, _, h => by
    rw [walkItems] at h
    obtain ⟨_, first, h⟩ := bind_ok.mp h
    exact Nat.le_trans (walkItems_le rest h) (walk_le item first)

theorem walkMembers_le : ∀ (members : List (String × Value)) {depth left r : Nat}, walkMembers l depth left members = .ok r → r ≤ left
  | [], _, _, _, h => by cases h; exact Nat.le_refl _
  | (_, item) :: rest, _, _, _, h => by
    rw [walkMembers] at h
    obtain ⟨_, -, h⟩ := bind_ok.mp h
    obtain ⟨_, first, h⟩ := bind_ok.mp h
    exact Nat.le_trans (walkMembers_le rest h) (walk_le item first)

end

theorem node_depth {d left r : Nat} (h : node l d left = .ok r) : d ≤ l.maxDepth := by
  unfold node at h
  obtain ⟨_, shallow, -⟩ := bind_ok.mp h
  exact of_decide_eq_true (check_ok.mp shallow)

mutual

theorem walk_depth : ∀ (v : Value) {d left r : Nat}, walk l d left v = .ok r → d + depth v ≤ l.maxDepth + 1
  | .null, _, _, _, h | .bool _, _, _, _, h => Nat.succ_le_succ (node_depth h)
  | .number _, _, _, _, h | .text _, _, _, _, h => by
    rw [walk] at h
    obtain ⟨_, first, -⟩ := bind_ok.mp h
    exact Nat.succ_le_succ (node_depth first)
  | .array items, d, _, _, h => by
    rw [walk] at h
    obtain ⟨_, first, h⟩ := bind_ok.mp h
    obtain ⟨_, -, h⟩ := bind_ok.mp h
    have inner := walkItems_depth items h (Nat.succ_le_succ (node_depth first))
    rw [depth]
    omega
  | .object members, d, _, _, h => by
    rw [walk] at h
    obtain ⟨_, first, h⟩ := bind_ok.mp h
    obtain ⟨_, -, h⟩ := bind_ok.mp h
    have inner := walkMembers_depth members h (Nat.succ_le_succ (node_depth first))
    rw [depth]
    omega

theorem walkItems_depth : ∀ (items : List Value) {d left r : Nat}, walkItems l d left items = .ok r → d ≤ l.maxDepth + 1 →
    d + itemDepth items ≤ l.maxDepth + 1
  | [], _, _, _, _, shallow => shallow
  | item :: rest, _, _, _, h, shallow => by
    rw [walkItems] at h
    obtain ⟨_, first, h⟩ := bind_ok.mp h
    have one := walk_depth item first
    have others := walkItems_depth rest h shallow
    rw [itemDepth]
    omega

theorem walkMembers_depth : ∀ (members : List (String × Value)) {d left r : Nat}, walkMembers l d left members = .ok r →
    d ≤ l.maxDepth + 1 → d + memberDepth members ≤ l.maxDepth + 1
  | [], _, _, _, _, shallow => shallow
  | (_, item) :: rest, _, _, _, h, shallow => by
    rw [walkMembers] at h
    obtain ⟨_, -, h⟩ := bind_ok.mp h
    obtain ⟨_, first, h⟩ := bind_ok.mp h
    have one := walk_depth item first
    have others := walkMembers_depth rest h shallow
    rw [memberDepth]
    omega

end

theorem depth_of_checked {v : Value} (limits : validateLimits l = .ok ()) (checked : checkJson v l = .ok ()) : depth v < 128 := by
  obtain ⟨r, h⟩ := checkJson_ok.mp checked
  have nested := walk_depth v h
  have bound : l.maxDepth ≤ 64 := by
    unfold validateLimits at limits
    dsimp only at limits
    split at limits
    · cases limits
    · exact of_decide_eq_true (check_ok.mp limits)
  omega

theorem walkMembers_member {members : List (String × Value)} {m : String × Value} (mem : m ∈ members) : ∀ {depth left r : Nat},
    walkMembers l depth left members = .ok r → ∃ left' r', left' ≤ left ∧ walk l depth left' m.2 = .ok r' := by
  induction members with
  | nil => cases mem
  | cons first rest ih =>
    intro depth left r h
    obtain ⟨name, item⟩ := first
    rw [walkMembers] at h
    obtain ⟨_, -, h⟩ := bind_ok.mp h
    obtain ⟨r₁, read, h⟩ := bind_ok.mp h
    rcases List.mem_cons.mp mem with rfl | mem
    · exact ⟨left, r₁, Nat.le_refl _, read⟩
    · obtain ⟨left', r', le, found⟩ := ih mem h
      exact ⟨left', r', Nat.le_trans le (walk_le item read), found⟩

theorem checkJson_member {members : List (String × Value)} (checked : checkJson (.object members) l = .ok ()) {m : String × Value}
    (mem : m ∈ members) : checkJson m.2 l = .ok () := by
  obtain ⟨r, h⟩ := checkJson_ok.mp checked
  rw [walk] at h
  obtain ⟨left, root, h⟩ := bind_ok.mp h
  obtain ⟨_, -, h⟩ := bind_ok.mp h
  obtain ⟨left', r', le, found⟩ := walkMembers_member mem h
  obtain ⟨r'', found, -⟩ := walk_more m.2 found (Nat.le_succ 1) (Nat.le_trans le (node_le root))
  exact checkJson_ok.mpr ⟨r'', found⟩

theorem record_member {α : Type} {a : Members α} {distinct : a.names.Nodup} {x : α}
    (checked : checkJson ((Codec.record a distinct).write x) l = .ok ()) {m : String × Value} (mem : m ∈ a.write x) :
    checkJson m.2 l = .ok () :=
  checkJson_member checked ((sortMembers_perm _).symm.subset mem)

theorem literal_checked {v : InputValue} (checked : checkJson (inputValue.write v) l = .ok ()) : checkLiteral l v = .ok () := by
  cases v with
  | secret => rfl
  | literal value =>
    exact checkJson_member checked ((sortMembers_perm _).symm.subset (List.mem_cons_of_mem _ List.mem_cons_self))

theorem checkLiteral_tidy (v : InputValue) : checkLiteral l (inputValue.tidy v) = checkLiteral l v := by
  cases v with
  | secret => rfl
  | literal value => exact checkJson_normal value.1

variable [HostParser]

theorem literals_checked {spec : ExecutionInput} (checked : checkJson (executionInput.write spec) l = .ok ()) :
    ∀ v ∈ dynamicValues spec, checkLiteral l v = .ok () := by
  intro v mem
  have request : checkJson (executionRequest.write spec.request) l = .ok () :=
    record_member (m := ("request", executionRequest.write spec.request)) checked
      (List.mem_append_right _ (List.mem_append_right _ (List.mem_append_left _ List.mem_cons_self)))
  have launch : checkJson (launchSpec.write spec.launch) l = .ok () :=
    record_member (m := ("launch", launchSpec.write spec.launch)) checked
      (List.mem_append_right _ (List.mem_append_right _ (List.mem_append_right _ (List.mem_append_left _ List.mem_cons_self))))
  rcases List.mem_append.mp mem with mem | mem
  · obtain ⟨e, found, rfl⟩ := List.mem_map.mp mem
    have parameters : checkJson (.object (spec.request.parameters.entries.map fun e => (e.1, inputValue.write e.2))) l = .ok () :=
      record_member (m := ("parameters", _)) request (List.mem_append_right _ (List.mem_append_right _ (List.mem_append_right _
        (List.mem_append_right _ (List.mem_append_right _ (List.mem_append_right _ (List.mem_append_right _ (List.mem_append_right _
          List.mem_cons_self))))))))
    exact literal_checked (checkJson_member parameters (List.mem_map_of_mem found))
  · obtain ⟨e, found, rfl⟩ := List.mem_map.mp mem
    have env : checkJson (.object (spec.launch.env.entries.map fun e => (e.1.value, inputValue.write e.2))) l = .ok () :=
      record_member (m := ("env", _)) launch (List.mem_append_right _ (List.mem_append_right _ (List.mem_append_right _
        (List.mem_append_right _ (List.mem_append_right _ (List.mem_append_right _ (List.mem_append_right _ List.mem_cons_self)))))))
    exact literal_checked (checkJson_member env (List.mem_map_of_mem found))

end Documents

end RssMdmAgent.DocumentBounds
