import RssMdmAgent.ContractPlan

set_option autoImplicit false

/-! # The preflight of a Git pack -/

namespace RssMdmAgent.PackBudget
open ContractPlan (bind_ok bind_error)

def maxDocumentBytes : Nat := 8 * 1024 * 1024

def maxPackBytes : Nat := 16 * 1024 * 1024

inductive PackError where
  | capacity
  | protocol
  | panicked
  deriving DecidableEq, Repr

abbrev Checked (α : Type) := Except PackError α

section Arithmetic

def wordBound : Nat := 2 ^ 64

def plus (a b : Nat) : Checked Nat := if a + b < wordBound then .ok (a + b) else .error .panicked

def minus (a b : Nat) : Checked Nat := if b ≤ a then .ok (a - b) else .error .panicked

def shiftedLeft (a shift : Nat) : Checked Nat := if shift < 64 then .ok (a <<< shift % wordBound) else .error .panicked

def checkedPlus (a b : Nat) (error : PackError) : Checked Nat := if a + b < wordBound then .ok (a + b) else .error error

def checkedTimes (a b : Nat) (error : PackError) : Checked Nat := if a * b < wordBound then .ok (a * b) else .error error

def checkedShift (a shift : Nat) (error : PackError) : Checked Nat := if shift < 64 then .ok (a <<< shift % wordBound) else .error error

def slice (bytes : List UInt8) (start stop : Nat) : Checked (List UInt8) :=
  if start ≤ stop ∧ stop ≤ bytes.length then .ok ((bytes.take stop).drop start) else .error .panicked

end Arithmetic

def byte (input : List UInt8) (position : Nat) : Checked (UInt8 × Nat) :=
  match input[position]? with
  | none => .error .protocol
  | some value => do
    let position ← plus position 1
    .ok (value, position)

def sizeFrom (input : List UInt8) : List Nat → Nat → Nat → Checked (Nat × Nat)
  | [], _, _ => .error .capacity
  | shift :: shifts, result, position => do
    let (value, position) ← byte input position
    let part ← shiftedLeft (value.toNat &&& 127) shift
    if value.toNat &&& 128 = 0 then .ok (result ||| part, position) else sizeFrom input shifts (result ||| part) position

def size (input : List UInt8) (position : Nat) : Checked (Nat × Nat) := sizeFrom input (List.range' 0 9 7) 0 position

def add (total length : Nat) : Checked Nat := do
  if maxDocumentBytes < length then .error .capacity
  else
    let total ← checkedPlus total length .capacity
    if maxPackBytes < total then .error .capacity else .ok total

/-- The rest of an object's length, with the shifts up to 60 that are left. -/
def lengthFrom (input : List UInt8) : List Nat → UInt8 → Nat → Nat → Checked (Nat × Nat)
  | shifts, next, length, position =>
    if next.toNat &&& 128 = 0 then .ok (length, position)
    else
      match shifts with
      | [] => .error .capacity
      | shift :: shifts => do
        let (next, position) ← byte input position
        let unit ← checkedShift 1 shift .capacity
        let part ← checkedTimes (next.toNat &&& 127) unit .capacity
        let length ← checkedPlus length part .capacity
        lengthFrom input shifts next length position

/-- The offset of a delta's base, with the number of bytes that it may still have. -/
def offsetFrom (input : List UInt8) : Nat → Nat → Checked Nat
  | 0, position => .ok position
  | left + 1, position => do
    let (value, position) ← byte input position
    if value.toNat &&& 128 = 0 then .ok position
    else if left = 0 then .error .capacity
    else offsetFrom input left position

def skip (input : List UInt8) (position count : Nat) : Checked Nat := do
  let position ← checkedPlus position count .protocol
  if position ≤ input.length then .ok position else .error .protocol

def skipBase (input : List UInt8) (kind position : Nat) : Checked Nat :=
  if 1 ≤ kind ∧ kind ≤ 4 then .ok position
  else if kind = 6 then offsetFrom input 10 position
  else if kind = 7 then skip input position 20
  else .error .protocol

structure Decoder where
  State : Type
  start : List UInt8 → State
  read : State → Option (List UInt8 × State)
  totalIn : State → Nat

variable (z : Decoder)

/-- Reads until the end of the stream, as long as no more than the declared length was decoded; the first eighteen bytes are kept. -/
def inflateFrom (length : Nat) : Nat → z.State → List UInt8 → Nat → Checked (z.State × List UInt8 × Nat)
  | 0, _, _, _ => .error .panicked
  | fuel + 1, s, kept, decoded =>
    match z.read s with
    | none => .error .protocol
    | some ([], s) => .ok (s, kept, decoded)
    | some (first :: rest, s) => do
      let chunk := first :: rest
      let decoded ← checkedPlus decoded chunk.length .capacity
      if length < decoded then .error .capacity
      else
        let room ← minus 18 kept.length
        inflateFrom length fuel s (kept ++ chunk.take (min room chunk.length)) decoded

/-- The size of an object that a delta gives, or its own. -/
def resultSize (kind length : Nat) (kept : List UInt8) : Checked Nat :=
  if 6 ≤ kind then do
    let (base, cursor) ← size kept 0
    if maxDocumentBytes < base then .error .capacity
    else
      let (result, _) ← size kept cursor
      .ok result
  else .ok length

/-- One object: the position behind it and the two totals. -/
def object (input : List UInt8) (position inflated resolved : Nat) : Checked (Nat × Nat × Nat) := do
  let (first, position) ← byte input position
  let kind := first.toNat >>> 4 &&& 7
  let (length, position) ← lengthFrom input (List.range' 4 9 7) first (first.toNat &&& 15) position
  let inflated ← add inflated length
  let position ← skipBase input kind position
  if input.length < position then .error .protocol
  else
    let (s, kept, decoded) ← inflateFrom z length (length + 1) (z.start (input.drop position)) [] 0
    if decoded ≠ length then .error .protocol
    else if wordBound ≤ z.totalIn s then .error .capacity
    else if z.totalIn s = 0 then .error .protocol
    else
      let position ← skip input position (z.totalIn s)
      let result ← resultSize kind length kept
      let resolved ← add resolved result
      .ok (position, inflated, resolved)

def objects (input : List UInt8) : Nat → Nat → Nat → Nat → Checked Nat
  | 0, position, _, _ => .ok position
  | count + 1, position, inflated, resolved => do
    let (position, inflated, resolved) ← object z input position inflated resolved
    objects input count position inflated resolved

def bigEndian (bytes : List UInt8) : Nat := bytes.foldl (fun n b => n * 256 + b.toNat) 0

def check (pack : List UInt8) : Checked Unit :=
  if pack.length < 32 then .error .protocol
  else do
    let version ← slice pack 4 8
    if bigEndian version ≠ 2 ∧ bigEndian version ≠ 3 then .error .protocol
    else
      let number ← slice pack 8 12
      let count := bigEndian number
      if count = 0 ∨ 512 < count then .error .capacity
      else
        let stop ← minus pack.length 20
        let input ← slice pack 0 stop
        let position ← objects z input count 12 0 0
        if position ≠ stop then .error .protocol else .ok ()

def preflight (pack : List UInt8) : Checked Unit :=
  if maxPackBytes < pack.length ∨ pack.take 4 ≠ [0x50, 0x41, 0x43, 0x4b] then .error .capacity else check z pack

/-! ## Well-formed packs -/

def septets : List UInt8 → Nat
  | [] => 0
  | b :: rest => b.toNat % 128 + 128 * septets rest

inductive Continued : List UInt8 → Prop where
  | last {b : UInt8} (small : b.toNat < 128) : Continued [b]
  | more {b : UInt8} {rest : List UInt8} (large : 128 ≤ b.toNat) (others : Continued rest) : Continued (b :: rest)

inductive Header : List UInt8 → Nat → Nat → Prop where
  | short {first : UInt8} (small : first.toNat < 128) : Header [first] (first.toNat / 16 % 8) (first.toNat % 16)
  | long {first : UInt8} {rest : List UInt8} (large : 128 ≤ first.toNat) (others : Continued rest) (few : rest.length ≤ 9) :
      Header (first :: rest) (first.toNat / 16 % 8) (first.toNat % 16 + 16 * septets rest)

inductive Base : Nat → List UInt8 → Prop where
  | whole {kind : Nat} (named : 1 ≤ kind ∧ kind ≤ 4) : Base kind []
  | offset {bytes : List UInt8} (continued : Continued bytes) (few : bytes.length ≤ 10) : Base 6 bytes
  | reference {bytes : List UInt8} (length : bytes.length = 20) : Base 7 bytes

inductive Inflates : z.State → List UInt8 → Nat → Prop where
  | stop {s s' : z.State} (read : z.read s = some ([], s')) : Inflates s [] (z.totalIn s')
  | chunk {s s' : z.State} {first : UInt8} {bytes rest : List UInt8} {consumed : Nat} (read : z.read s = some (first :: bytes, s'))
      (others : Inflates s' rest consumed) : Inflates s (first :: bytes ++ rest) consumed

inductive Result : Nat → List UInt8 → Nat → Prop where
  | whole {kind : Nat} {data : List UInt8} (named : kind < 6) : Result kind data data.length
  | delta {kind : Nat} {base result rest : List UInt8} (named : 6 ≤ kind) (base_ : Continued base) (few : base.length ≤ 9)
      (result_ : Continued result) (few' : result.length ≤ 9) (within : septets base ≤ maxDocumentBytes) :
      Result kind (base ++ (result ++ rest)) (septets result)

inductive Framed (input : List UInt8) : Nat → Nat → Nat → Prop where
  | object {header base body data : List UInt8} {kind length consumed result : Nat} (split : input = header ++ (base ++ body))
      (head : Header header kind length) (based : Base kind base) (inflates : Inflates z (z.start body) data consumed)
      (declared : data.length = length) (some_ : 0 < consumed) (inside : consumed ≤ body.length) (result_ : Result kind data result) :
      Framed input (header.length + base.length + consumed) length result

inductive Objects : Nat → List UInt8 → List (Nat × Nat) → Prop where
  | none : Objects 0 [] []
  | next {count used length result : Nat} {input : List UInt8} {sizes : List (Nat × Nat)} (framed : Framed z input used length result)
      (others : Objects count (input.drop used) sizes) : Objects (count + 1) input ((length, result) :: sizes)

structure Budgeted (sizes : List (Nat × Nat)) : Prop where
  documents : ∀ s ∈ sizes, s.1 ≤ maxDocumentBytes ∧ s.2 ≤ maxDocumentBytes
  inflated : (sizes.map Prod.fst).sum ≤ maxPackBytes
  resolved : (sizes.map Prod.snd).sum ≤ maxPackBytes

inductive Bounded : List UInt8 → Prop where
  | pack {signature version number body trailer : List UInt8} {sizes : List (Nat × Nat)} (four : signature.length = 4)
      (versioned : version.length = 4 ∧ (bigEndian version = 2 ∨ bigEndian version = 3))
      (numbered : number.length = 4 ∧ 1 ≤ bigEndian number ∧ bigEndian number ≤ 512) (objects : Objects z (bigEndian number) body sizes)
      (budgeted : Budgeted sizes) (trailing : trailer.length = 20) : Bounded (signature ++ (version ++ (number ++ (body ++ trailer))))

section Numbers
variable {input : List UInt8} {position : Nat}

def Reads (input : List UInt8) (position : Nat) (bytes : List UInt8) : Prop := ∃ rest, input.drop position = bytes ++ rest

theorem mask_small {b : UInt8} : b.toNat &&& 128 = 0 ↔ b.toNat < 128 := by
  have every : ∀ n < 256, n &&& 128 = 0 ↔ n < 128 := by decide +kernel
  exact every b.toNat b.toNat_lt

theorem mask_low (b : UInt8) : b.toNat &&& 127 = b.toNat % 128 := Nat.and_two_pow_sub_one_eq_mod b.toNat 7

theorem byte_ok (short : input.length < wordBound) {value : UInt8} {next : Nat} :
    byte input position = .ok (value, next) ↔ Reads input position [value] ∧ next = position + 1 := by
  unfold byte Reads
  constructor
  · intro h
    cases found : input[position]? with
    | none =>
      rw [found] at h
      cases h
    | some b =>
      rw [found] at h
      obtain ⟨inside, at_⟩ := List.getElem?_eq_some_iff.mp found
      have fits : position + 1 < wordBound := by omega
      simp only [plus, if_pos fits] at h
      cases h
      refine ⟨⟨input.drop (position + 1), ?_⟩, rfl⟩
      rw [List.drop_eq_getElem_cons inside, at_]
      rfl
  · rintro ⟨⟨rest, split⟩, rfl⟩
    have inside : position < input.length := by
      by_contra outside
      rw [List.drop_of_length_le (by omega)] at split
      cases split
    have found : input[position]? = some value := by
      rw [List.drop_eq_getElem_cons inside] at split
      rw [List.getElem?_eq_getElem inside, (List.cons.inj split).1]
    rw [found]
    have fits : position + 1 < wordBound := by omega
    simp only [plus, if_pos fits]
    rfl

theorem Reads.cons {b : UInt8} {bytes : List UInt8} :
    Reads input position (b :: bytes) ↔ Reads input position [b] ∧ Reads input (position + 1) bytes := by
  unfold Reads
  constructor
  · rintro ⟨rest, split⟩
    refine ⟨⟨bytes ++ rest, split⟩, rest, ?_⟩
    rw [← List.drop_drop, split]
    rfl
  · rintro ⟨⟨first, split⟩, rest, others⟩
    rw [← List.drop_drop, split] at others
    exact ⟨rest, by rw [split]; exact congrArg (b :: ·) others⟩

theorem continued_pos {bytes : List UInt8} (continued : Continued bytes) : 0 < bytes.length := by
  cases continued <;> exact Nat.succ_pos _

theorem shiftedLeft_ok {a shift : Nat} (inside : shift < 64) (small : a * 2 ^ shift < wordBound) :
    shiftedLeft a shift = .ok (a * 2 ^ shift) := by
  rw [shiftedLeft, if_pos inside, Nat.shiftLeft_eq, Nat.mod_eq_of_lt small]

theorem septet_next (i : Nat) : 2 ^ (7 * (i + 1)) = 2 ^ (7 * i) * 128 := by rw [show 7 * (i + 1) = 7 * i + 7 by omega, Nat.pow_add]

theorem septet_fits (b : UInt8) {i : Nat} (few : i ≤ 8) : b.toNat % 128 * 2 ^ (7 * i) < 2 ^ (7 * (i + 1)) ∧ 2 ^ (7 * (i + 1)) ≤ 2 ^ 63 := by
  refine ⟨?_, Nat.pow_le_pow_right (by omega) (by omega)⟩
  rw [septet_next, Nat.mul_comm (2 ^ (7 * i))]
  exact Nat.mul_lt_mul_of_pos_right (Nat.mod_lt _ (by omega)) (Nat.pow_pos (by omega))

/-- The loop adds the septets that it reads to the lower bits it has. -/
theorem sizeFrom_ok (short : input.length < wordBound) (k : Nat) : ∀ {i result position n next : Nat}, i + k ≤ 9 → result < 2 ^ (7 * i) →
    (sizeFrom input (List.range' (7 * i) k 7) result position = .ok (n, next) ↔
      ∃ bytes, Reads input position bytes ∧ Continued bytes ∧ bytes.length ≤ k ∧ n = result + 2 ^ (7 * i) * septets bytes ∧
        next = position + bytes.length) := by
  induction k with
  | zero =>
    intro i result position n next _ _
    constructor
    · intro h
      cases h
    · rintro ⟨bytes, -, continued, none, -⟩
      have some_ := continued_pos continued
      omega
  | succ k ih =>
    intro i result position n next few low
    rw [List.range'_succ, sizeFrom]
    have shift : 7 * i + 7 = 7 * (i + 1) := by omega
    have step : ∀ b : UInt8, shiftedLeft (b.toNat &&& 127) (7 * i) = .ok (b.toNat % 128 * 2 ^ (7 * i)) ∧
        result ||| b.toNat % 128 * 2 ^ (7 * i) = result + 2 ^ (7 * i) * (b.toNat % 128) ∧
        result + 2 ^ (7 * i) * (b.toNat % 128) < 2 ^ (7 * (i + 1)) := by
      intro b
      obtain ⟨fits, small⟩ := septet_fits b (i := i) (by omega)
      have large : 2 ^ 63 < wordBound := by decide
      rw [mask_low]
      refine ⟨shiftedLeft_ok (by omega) (by omega), ?_, ?_⟩
      · rw [Nat.or_comm, Nat.mul_comm, ← Nat.two_pow_add_eq_or_of_lt low, Nat.add_comm]
      · have room : b.toNat % 128 + 1 ≤ 128 := Nat.mod_lt _ (by omega)
        calc result + 2 ^ (7 * i) * (b.toNat % 128) < 2 ^ (7 * i) + 2 ^ (7 * i) * (b.toNat % 128) := by omega
          _ = 2 ^ (7 * i) * (b.toNat % 128 + 1) := by rw [Nat.mul_add, Nat.mul_one, Nat.add_comm]
          _ ≤ 2 ^ (7 * i) * 128 := Nat.mul_le_mul_left _ room
          _ = 2 ^ (7 * (i + 1)) := (septet_next i).symm
    constructor
    · intro h
      obtain ⟨⟨b, after⟩, read, h⟩ := bind_ok.mp h
      obtain ⟨first, rfl⟩ := (byte_ok short).mp read
      dsimp only at h
      obtain ⟨part, shifted, h⟩ := bind_ok.mp h
      obtain ⟨made, joined, below⟩ := step b
      rw [made] at shifted
      cases shifted
      rw [joined] at h
      split at h
      · next small =>
        cases h
        refine ⟨[b], first, .last (mask_small.mp small), by simp, ?_, rfl⟩
        simp [septets]
      · next large =>
        rw [shift] at h
        obtain ⟨bytes, reads, continued, few', rfl, rfl⟩ := (ih (by omega) below).mp h
        refine ⟨b :: bytes, Reads.cons.mpr ⟨first, reads⟩, .more (by rw [mask_small] at large; omega) continued, by simpa using few', ?_, ?_⟩
        · rw [septets, septet_next, Nat.mul_add, Nat.mul_assoc, Nat.add_assoc]
        · rw [List.length_cons]
          omega
    · rintro ⟨bytes, reads, continued, few', rfl, rfl⟩
      cases continued with
      | @last b small =>
        obtain ⟨made, joined, -⟩ := step b
        refine bind_ok.mpr ⟨(b, position + 1), (byte_ok short).mpr ⟨reads, rfl⟩, bind_ok.mpr ⟨_, made, ?_⟩⟩
        rw [if_pos (mask_small.mpr small), joined]
        simp [septets]
      | @more b rest large others =>
        obtain ⟨made, joined, below⟩ := step b
        obtain ⟨first, reads⟩ := Reads.cons.mp reads
        refine bind_ok.mpr ⟨(b, position + 1), (byte_ok short).mpr ⟨first, rfl⟩, bind_ok.mpr ⟨_, made, ?_⟩⟩
        rw [if_neg (by rw [mask_small]; omega), joined, shift]
        refine (ih (by omega) below).mpr ⟨rest, reads, others, by simpa using few', ?_, ?_⟩
        · rw [septets, septet_next, Nat.mul_add, Nat.mul_assoc, Nat.add_assoc]
        · rw [List.length_cons]
          omega

theorem size_ok (short : input.length < wordBound) {n next : Nat} : size input position = .ok (n, next) ↔
    ∃ bytes, Reads input position bytes ∧ Continued bytes ∧ bytes.length ≤ 9 ∧ n = septets bytes ∧ next = position + bytes.length := by
  have loop := @sizeFrom_ok input short 9 0 0 position n next (Nat.le_refl _) (Nat.succ_pos _)
  simp only [Nat.mul_zero, Nat.pow_zero, Nat.zero_add, Nat.one_mul] at loop
  exact loop

theorem checkedPlus_ok {a b c : Nat} {error : PackError} : checkedPlus a b error = .ok c ↔ c = a + b ∧ a + b < wordBound := by
  unfold checkedPlus
  split
  · next fits => simp only [Except.ok.injEq, fits, and_true, eq_comm]
  · next large => simp only [reduceCtorEq, large, and_false]

theorem checkedTimes_ok {a b c : Nat} {error : PackError} : checkedTimes a b error = .ok c ↔ c = a * b ∧ a * b < wordBound := by
  unfold checkedTimes
  split
  · next fits => simp only [Except.ok.injEq, fits, and_true, eq_comm]
  · next large => simp only [reduceCtorEq, large, and_false]

theorem checkedShift_one {shift : Nat} (inside : shift < 64) (error : PackError) : checkedShift 1 shift error = .ok (2 ^ shift) := by
  have small : 2 ^ shift < wordBound := Nat.pow_lt_pow_right (by omega) inside
  rw [checkedShift, if_pos inside, Nat.shiftLeft_eq, Nat.one_mul, Nat.mod_eq_of_lt small]

theorem lengthFrom_small {shifts : List Nat} {next : UInt8} {length : Nat} (small : next.toNat < 128) :
    lengthFrom input shifts next length position = .ok (length, position) := by
  unfold lengthFrom
  rw [if_pos (mask_small.mpr small)]

/-- As long as the bytes go on, the length grows by their septets. -/
theorem lengthFrom_ok (short : input.length < wordBound) (k : Nat) : ∀ {i position length n stop : Nat} {next : UInt8}, i + k ≤ 9 →
    128 ≤ next.toNat → (lengthFrom input (List.range' (4 + 7 * i) k 7) next length position = .ok (n, stop) ↔
      ∃ bytes, Reads input position bytes ∧ Continued bytes ∧ bytes.length ≤ k ∧ n = length + 2 ^ (4 + 7 * i) * septets bytes ∧
        n < wordBound ∧ stop = position + bytes.length) := by
  induction k with
  | zero =>
    intro i position length n stop next _ large
    rw [List.range'_zero, lengthFrom, if_neg (by rw [mask_small]; omega)]
    constructor
    · intro h
      cases h
    · rintro ⟨bytes, -, continued, none, -⟩
      have some_ := continued_pos continued
      omega
  | succ k ih =>
    intro i position length n stop next few large
    have unit : checkedShift 1 (4 + 7 * i) .capacity = .ok (2 ^ (4 + 7 * i)) := checkedShift_one (by omega) _
    have shift : 4 + 7 * i + 7 = 4 + 7 * (i + 1) := by omega
    have grown : 2 ^ (4 + 7 * (i + 1)) = 2 ^ (4 + 7 * i) * 128 := by rw [← shift, Nat.pow_add]
    rw [List.range'_succ, lengthFrom, if_neg (by rw [mask_small]; omega)]
    dsimp only
    constructor
    · intro h
      obtain ⟨⟨b, after⟩, read, h⟩ := bind_ok.mp h
      obtain ⟨first, rfl⟩ := (byte_ok short).mp read
      dsimp only at h
      obtain ⟨_, same, h⟩ := bind_ok.mp h
      cases unit.symm.trans same
      obtain ⟨_, product, h⟩ := bind_ok.mp h
      obtain ⟨rfl, -⟩ := checkedTimes_ok.mp product
      obtain ⟨_, sum, h⟩ := bind_ok.mp h
      obtain ⟨rfl, fits⟩ := checkedPlus_ok.mp sum
      rw [mask_low, Nat.mul_comm (b.toNat % 128)] at h fits
      by_cases small : b.toNat < 128
      · rw [lengthFrom_small small] at h
        cases h
        exact ⟨[b], first, .last small, by simp, by simp [septets], fits, rfl⟩
      · rw [shift] at h
        obtain ⟨bytes, reads, continued, few', rfl, below, rfl⟩ := (ih (by omega) (by omega)).mp h
        refine ⟨b :: bytes, Reads.cons.mpr ⟨first, reads⟩, .more (by omega) continued, by simpa using few', ?_, below, ?_⟩
        · rw [septets, grown, Nat.mul_add, Nat.mul_assoc, Nat.add_assoc]
        · rw [List.length_cons]
          omega
    · rintro ⟨bytes, reads, continued, few', rfl, below, rfl⟩
      cases continued with
      | @last b small =>
        rw [septets, septets, Nat.mul_zero, Nat.add_zero] at below
        have fits : b.toNat % 128 * 2 ^ (4 + 7 * i) < wordBound := by
          rw [Nat.mul_comm]
          omega
        refine bind_ok.mpr ⟨(b, position + 1), (byte_ok short).mpr ⟨reads, rfl⟩, bind_ok.mpr ⟨_, unit, bind_ok.mpr
          ⟨b.toNat % 128 * 2 ^ (4 + 7 * i), ?_, bind_ok.mpr ⟨length + b.toNat % 128 * 2 ^ (4 + 7 * i), ?_, ?_⟩⟩⟩⟩
        · rw [mask_low]
          exact checkedTimes_ok.mpr ⟨rfl, fits⟩
        · refine checkedPlus_ok.mpr ⟨rfl, ?_⟩
          rw [Nat.mul_comm (b.toNat % 128)]
          exact below
        · rw [lengthFrom_small small]
          simp [septets, Nat.mul_comm]
      | @more b rest large' others =>
        obtain ⟨first, reads⟩ := Reads.cons.mp reads
        have parts : 2 ^ (4 + 7 * i) * septets (b :: rest) = b.toNat % 128 * 2 ^ (4 + 7 * i) + 2 ^ (4 + 7 * (i + 1)) * septets rest := by
          rw [septets, grown, Nat.mul_add, Nat.mul_assoc, Nat.mul_comm (b.toNat % 128)]
        rw [parts] at below
        refine bind_ok.mpr ⟨(b, position + 1), (byte_ok short).mpr ⟨first, rfl⟩, bind_ok.mpr ⟨_, unit, bind_ok.mpr
          ⟨b.toNat % 128 * 2 ^ (4 + 7 * i), ?_, bind_ok.mpr ⟨length + b.toNat % 128 * 2 ^ (4 + 7 * i), ?_, ?_⟩⟩⟩⟩
        · rw [mask_low]
          refine checkedTimes_ok.mpr ⟨rfl, ?_⟩
          change b.toNat % 128 * 2 ^ (4 + 7 * i) < wordBound
          omega
        · exact checkedPlus_ok.mpr ⟨rfl, by omega⟩
        · rw [shift]
          refine (ih (by omega) large').mpr ⟨rest, reads, others, by simpa using few', ?_, ?_, ?_⟩
          · rw [parts, Nat.add_assoc]
          · rw [parts]
            exact below
          · rw [List.length_cons]
            omega

/-- The offset of a base is skipped byte by byte. -/
theorem offsetFrom_ok (short : input.length < wordBound) (k : Nat) : ∀ {position stop : Nat}, 0 < k →
    (offsetFrom input k position = .ok stop ↔
      ∃ bytes, Reads input position bytes ∧ Continued bytes ∧ bytes.length ≤ k ∧ stop = position + bytes.length) := by
  induction k with
  | zero => exact fun none => absurd none (Nat.lt_irrefl 0)
  | succ k ih =>
    intro position stop _
    rw [offsetFrom]
    constructor
    · intro h
      obtain ⟨⟨b, after⟩, read, h⟩ := bind_ok.mp h
      obtain ⟨first, rfl⟩ := (byte_ok short).mp read
      dsimp only at h
      split at h
      · next small =>
        cases h
        exact ⟨[b], first, .last (mask_small.mp small), by simp, rfl⟩
      · next large =>
        split at h
        · cases h
        next some_ =>
        obtain ⟨bytes, reads, continued, few, rfl⟩ := (ih (Nat.pos_of_ne_zero some_)).mp h
        refine ⟨b :: bytes, Reads.cons.mpr ⟨first, reads⟩, .more (by rw [mask_small] at large; omega) continued, by simpa using few, ?_⟩
        rw [List.length_cons]
        omega
    · rintro ⟨bytes, reads, continued, few, rfl⟩
      cases continued with
      | @last b small =>
        refine bind_ok.mpr ⟨(b, position + 1), (byte_ok short).mpr ⟨reads, rfl⟩, ?_⟩
        exact if_pos (mask_small.mpr small)
      | @more b rest large others =>
        have pos := continued_pos others
        have few' : rest.length ≤ k := by simpa using few
        obtain ⟨first, reads⟩ := Reads.cons.mp reads
        refine bind_ok.mpr ⟨(b, position + 1), (byte_ok short).mpr ⟨first, rfl⟩, ?_⟩
        dsimp only
        rw [if_neg (by rw [mask_small]; omega), if_neg (by omega)]
        refine (ih (by omega)).mpr ⟨rest, reads, others, few', ?_⟩
        rw [List.length_cons]
        omega

theorem skip_ok (short : input.length < wordBound) {count stop : Nat} :
    skip input position count = .ok stop ↔ stop = position + count ∧ stop ≤ input.length := by
  unfold skip
  constructor
  · intro h
    obtain ⟨_, sum, h⟩ := bind_ok.mp h
    obtain ⟨rfl, -⟩ := checkedPlus_ok.mp sum
    split at h
    · next inside =>
      cases h
      exact ⟨rfl, inside⟩
    · cases h
  · rintro ⟨rfl, inside⟩
    refine bind_ok.mpr ⟨position + count, checkedPlus_ok.mpr ⟨rfl, by omega⟩, ?_⟩
    rw [if_pos inside]

theorem skipBase_ok (short : input.length < wordBound) {kind stop : Nat} (inside : position ≤ input.length) :
    skipBase input kind position = .ok stop ↔ ∃ bytes, Reads input position bytes ∧ Base kind bytes ∧ stop = position + bytes.length := by
  unfold skipBase
  split
  · next named =>
    constructor
    · intro h
      cases h
      exact ⟨[], ⟨_, rfl⟩, .whole named, rfl⟩
    · rintro ⟨bytes, -, based, rfl⟩
      cases based with
      | whole => rfl
      | offset | reference => omega
  split
  · next other is =>
    subst is
    rw [offsetFrom_ok short 10 (by omega)]
    constructor
    · rintro ⟨bytes, reads, continued, few, rfl⟩
      exact ⟨bytes, reads, .offset continued few, rfl⟩
    · rintro ⟨bytes, reads, based, rfl⟩
      cases based with
      | whole named => exact absurd named other
      | offset continued few => exact ⟨bytes, reads, continued, few, rfl⟩
  split
  · next other _ is =>
    subst is
    rw [skip_ok short]
    constructor
    · rintro ⟨rfl, fits⟩
      refine ⟨(input.drop position).take 20, ⟨_, (List.take_append_drop 20 _).symm⟩, .reference ?_, ?_⟩
      all_goals rw [List.length_take, List.length_drop]; omega
    · rintro ⟨bytes, ⟨rest, split⟩, based, rfl⟩
      have length := congrArg List.length split
      rw [List.length_drop, List.length_append] at length
      cases based with
      | whole named => exact absurd named other
      | reference twenty => exact ⟨by rw [twenty], by omega⟩
  · next none six seven =>
    constructor
    · intro h
      cases h
    · rintro ⟨bytes, -, based, -⟩
      cases based with
      | whole named => exact absurd named none
      | offset => exact absurd rfl six
      | reference => exact absurd rfl seven

end Numbers

section Streams
variable {z : Decoder} {length : Nat}

theorem kept_append (kept chunk rest : List UInt8) :
    kept ++ chunk.take (min (18 - kept.length) chunk.length) ++
        rest.take (18 - (kept ++ chunk.take (min (18 - kept.length) chunk.length)).length) =
      kept ++ (chunk ++ rest).take (18 - kept.length) := by
  have room : 18 - (kept ++ chunk.take (18 - kept.length)).length = 18 - kept.length - chunk.length := by
    rw [List.length_append, List.length_take]
    omega
  rw [← List.take_eq_take_min, room, List.append_assoc, List.take_append]

theorem inflateFrom_ok (fuel : Nat) : ∀ {s last : z.State} {kept kept' : List UInt8} {decoded decoded' : Nat},
    inflateFrom z length fuel s kept decoded = .ok (last, kept', decoded') → decoded ≤ length →
      ∃ data, Inflates z s data (z.totalIn last) ∧ kept' = kept ++ data.take (18 - kept.length) ∧
        decoded' = decoded + data.length ∧ decoded' ≤ length := by
  induction fuel with
  | zero =>
    intro s last kept kept' decoded decoded' h _
    cases h
  | succ fuel ih =>
    intro s last kept kept' decoded decoded' h within
    unfold inflateFrom at h
    split at h
    · cases h
    · next s' read =>
      cases h
      exact ⟨[], .stop read, by simp, rfl, within⟩
    · next first rest s' read =>
      obtain ⟨_, sum, h⟩ := bind_ok.mp h
      obtain ⟨rfl, -⟩ := checkedPlus_ok.mp sum
      split at h
      · cases h
      next more =>
      obtain ⟨room, left, h⟩ := bind_ok.mp h
      unfold minus at left
      split at left
      · cases left
        obtain ⟨data, inflates, same, rfl, below⟩ := ih h (by omega)
        refine ⟨first :: rest ++ data, .chunk read inflates, ?_, ?_, below⟩
        · rw [same, kept_append]
        · rw [List.length_append]
          omega
      · cases left

theorem inflateFrom_inflates {s : z.State} {data : List UInt8} {consumed : Nat} (inflates : Inflates z s data consumed) :
    ∀ {fuel decoded : Nat} {kept : List UInt8}, decoded + data.length ≤ length → length < wordBound → kept.length ≤ 18 →
      length < fuel + decoded → ∃ last, inflateFrom z length fuel s kept decoded =
        .ok (last, kept ++ data.take (18 - kept.length), decoded + data.length) ∧ z.totalIn last = consumed := by
  induction inflates with
  | @stop s s' read =>
    intro fuel decoded kept within word few enough
    obtain ⟨fuel, rfl⟩ : ∃ k, fuel = k + 1 := ⟨fuel - 1, by rw [List.length_nil] at within; omega⟩
    unfold inflateFrom
    rw [read]
    exact ⟨s', by simp, rfl⟩
  | @chunk s s' first bytes rest consumed read others ih =>
    intro fuel decoded kept within word few enough
    rw [List.length_append] at within
    have large : 0 < (first :: bytes).length := Nat.succ_pos _
    obtain ⟨fuel, rfl⟩ : ∃ k, fuel = k + 1 := ⟨fuel - 1, by omega⟩
    have room : minus 18 kept.length = .ok (18 - kept.length) := if_pos few
    have short : (kept ++ (first :: bytes).take (min (18 - kept.length) (first :: bytes).length)).length ≤ 18 := by
      rw [List.length_append, List.length_take]
      omega
    obtain ⟨last, made, same⟩ := @ih fuel (decoded + (first :: bytes).length)
      (kept ++ (first :: bytes).take (min (18 - kept.length) (first :: bytes).length)) (by omega) word short (by omega)
    rw [kept_append, Nat.add_assoc, ← List.length_append] at made
    refine ⟨last, ?_, same⟩
    unfold inflateFrom
    rw [read]
    refine bind_ok.mpr ⟨decoded + (first :: bytes).length, checkedPlus_ok.mpr ⟨rfl, by omega⟩, ?_⟩
    rw [if_neg (by omega)]
    exact bind_ok.mpr ⟨_, room, made⟩

/-- The sizes in front of a delta lie within the bytes that are kept. -/
theorem resultSize_ok {kind result : Nat} {data : List UInt8} :
    resultSize kind data.length (data.take 18) = .ok result ↔ Result kind data result := by
  have short : (data.take 18).length < wordBound := by
    have small : 18 < wordBound := by decide
    rw [List.length_take]
    omega
  unfold resultSize
  split
  · next delta =>
    constructor
    · intro h
      obtain ⟨⟨base, cursor⟩, first, h⟩ := bind_ok.mp h
      obtain ⟨bytes, ⟨after, split⟩, continued, few, rfl, rfl⟩ := (size_ok short).mp first
      dsimp only at h
      split at h
      · cases h
      next within =>
      obtain ⟨⟨_, next⟩, second, h⟩ := bind_ok.mp h
      cases h
      obtain ⟨bytes', ⟨after', split'⟩, continued', few', rfl, -⟩ := (size_ok short).mp second
      rw [List.drop_zero] at split
      rw [Nat.zero_add, split, List.drop_left] at split'
      have whole : data = bytes ++ (bytes' ++ (after' ++ data.drop 18)) := by
        conv_lhs => rw [← List.take_append_drop 18 data, split, split']
        simp only [List.append_assoc]
      rw [whole]
      exact .delta delta continued few continued' few' (Nat.le_of_not_lt within)
    · intro h
      cases h with
      | whole named => omega
      | @delta base bytes rest _ continued few continued' few' within =>
        have kept : (base ++ (bytes ++ rest)).take 18 = base ++ (bytes ++ rest.take (18 - base.length - bytes.length)) := by
          rw [List.take_append, List.take_of_length_le (by omega), List.take_append, List.take_of_length_le (by omega)]
        rw [kept] at short ⊢
        refine bind_ok.mpr ⟨(septets base, base.length), (size_ok short).mpr ⟨base, ⟨_, by rw [List.drop_zero]⟩, continued, few, rfl, by simp⟩, ?_⟩
        dsimp only
        rw [if_neg (by omega)]
        refine bind_ok.mpr ⟨(septets bytes, base.length + bytes.length), (size_ok short).mpr
          ⟨bytes, ⟨_, by rw [List.drop_left]⟩, continued', few', rfl, rfl⟩, rfl⟩
  · next named =>
    constructor
    · intro h
      cases h
      exact .whole (by omega)
    · intro h
      cases h with
      | whole => rfl
      | delta => omega

theorem add_ok {total length sum : Nat} :
    add total length = .ok sum ↔ sum = total + length ∧ length ≤ maxDocumentBytes ∧ sum ≤ maxPackBytes := by
  have small : maxPackBytes < wordBound := by decide
  unfold add
  constructor
  · intro h
    split at h
    · cases h
    next fits =>
    obtain ⟨_, plus, h⟩ := bind_ok.mp h
    obtain ⟨rfl, -⟩ := checkedPlus_ok.mp plus
    split at h
    · cases h
    next below =>
    cases h
    exact ⟨rfl, Nat.le_of_not_lt fits, Nat.le_of_not_lt below⟩
  · rintro ⟨rfl, fits, below⟩
    rw [if_neg (by omega)]
    refine bind_ok.mpr ⟨total + length, checkedPlus_ok.mpr ⟨rfl, by omega⟩, ?_⟩
    rw [if_neg (by omega)]

end Streams

section Objects
variable {z : Decoder} {input : List UInt8} {position : Nat}

theorem header_nibbles (first : UInt8) : first.toNat >>> 4 &&& 7 = first.toNat / 16 % 8 ∧ first.toNat &&& 15 = first.toNat % 16 := by
  rw [Nat.shiftRight_eq_div_pow]
  exact ⟨Nat.and_two_pow_sub_one_eq_mod _ 3, Nat.and_two_pow_sub_one_eq_mod _ 4⟩

theorem header_ok (short : input.length < wordBound) {first : UInt8} {after length stop : Nat} (small : length ≤ maxDocumentBytes) :
    byte input position = .ok (first, after) ∧
      lengthFrom input (List.range' 4 9 7) first (first.toNat % 16) after = .ok (length, stop) ↔
    ∃ header, Reads input position header ∧ Header header (first.toNat / 16 % 8) length ∧ header.head? = some first ∧
      after = position + 1 ∧ stop = position + header.length := by
  have word : maxDocumentBytes < wordBound := by decide
  constructor
  · rintro ⟨read, rest⟩
    obtain ⟨reads, rfl⟩ := (byte_ok short).mp read
    by_cases one : first.toNat < 128
    · rw [lengthFrom_small one] at rest
      cases rest
      exact ⟨[first], reads, .short one, rfl, rfl, rfl⟩
    · obtain ⟨bytes, others, continued, few, rfl, -, rfl⟩ := (@lengthFrom_ok input short 9 0 _ _ _ _ _ (by omega) (by omega)).mp rest
      refine ⟨first :: bytes, Reads.cons.mpr ⟨reads, others⟩, .long (by omega) continued few, rfl, rfl, ?_⟩
      rw [List.length_cons]
      omega
  · rintro ⟨header, reads, head, same, rfl, rfl⟩
    generalize first.toNat / 16 % 8 = kind at head
    cases head with
    | short one =>
      cases same
      exact ⟨(byte_ok short).mpr ⟨reads, rfl⟩, lengthFrom_small one⟩
    | @long _ bytes large continued few =>
      cases same
      obtain ⟨reads, others⟩ := Reads.cons.mp reads
      refine ⟨(byte_ok short).mpr ⟨reads, rfl⟩, (@lengthFrom_ok input short 9 0 _ _ _ _ _ (by omega) large).mpr
        ⟨bytes, others, continued, few, rfl, by omega, ?_⟩⟩
      rw [List.length_cons]
      omega

theorem Reads.split {bytes : List UInt8} (reads : Reads input position bytes) :
    input.drop position = bytes ++ input.drop (position + bytes.length) := by
  obtain ⟨rest, split⟩ := reads
  rw [← List.drop_drop, split, List.drop_left]

theorem Reads.inside {bytes : List UInt8} (reads : Reads input position bytes) (inside : position ≤ input.length) :
    position + bytes.length ≤ input.length := by
  have length := congrArg List.length reads.split
  rw [List.length_drop, List.length_append, List.length_drop] at length
  omega

/-- What one turn of the loop has done when it succeeds. -/
theorem object_ok (short : input.length < wordBound) (inside : position ≤ input.length) {inflated resolved next inflated' resolved' : Nat} :
    object z input position inflated resolved = .ok (next, inflated', resolved') ↔
      ∃ used length result, Framed z (input.drop position) used length result ∧ next = position + used ∧
        (inflated' = inflated + length ∧ length ≤ maxDocumentBytes ∧ inflated' ≤ maxPackBytes) ∧
        resolved' = resolved + result ∧ result ≤ maxDocumentBytes ∧ resolved' ≤ maxPackBytes := by
  have word : maxDocumentBytes < wordBound := by decide
  unfold object
  constructor
  · intro h
    obtain ⟨⟨first, after⟩, read, h⟩ := bind_ok.mp h
    dsimp only at h
    rw [(header_nibbles first).1, (header_nibbles first).2] at h
    obtain ⟨⟨length, stop⟩, rest, h⟩ := bind_ok.mp h
    obtain ⟨_, sum, h⟩ := bind_ok.mp h
    obtain ⟨rfl, small, below⟩ := add_ok.mp sum
    obtain ⟨header, reads, head, -, rfl, rfl⟩ := (header_ok short small).mp ⟨read, rest⟩
    obtain ⟨_, skipped, h⟩ := bind_ok.mp h
    obtain ⟨base, reads', based, rfl⟩ := (skipBase_ok short (reads.inside inside)).mp skipped
    split at h
    · cases h
    obtain ⟨⟨s, kept, decoded⟩, inflate, h⟩ := bind_ok.mp h
    obtain ⟨data, inflates, same, count, -⟩ := inflateFrom_ok _ inflate (Nat.zero_le _)
    dsimp only at h
    split at h
    · cases h
    next declared =>
    split at h
    · cases h
    split at h
    · cases h
    next some_ =>
    obtain ⟨_, moved, h⟩ := bind_ok.mp h
    obtain ⟨rfl, within⟩ := (skip_ok short).mp moved
    obtain ⟨result, gives, h⟩ := bind_ok.mp h
    obtain ⟨_, sum', h⟩ := bind_ok.mp h
    obtain ⟨rfl, small', below'⟩ := add_ok.mp sum'
    cases h
    have length_ : data.length = length := by omega
    rw [same, List.nil_append, List.length_nil, Nat.sub_zero, ← length_] at gives
    refine ⟨_, length, result, .object ?_ head based inflates length_ (Nat.pos_of_ne_zero some_) ?_ (resultSize_ok.mp gives), ?_,
      ⟨rfl, small, below⟩, rfl, small', below'⟩
    · rw [reads.split, reads'.split]
    · rw [List.length_drop]
      omega
    · omega
  · rintro ⟨_, length, result, ⟨split, head, based, inflates, declared, some_, within, gives⟩, rfl, ⟨rfl, small, below⟩, rfl, small', below'⟩
    rename_i header base body data kind consumed
    have reads : Reads input position header := ⟨_, split⟩
    have behind := reads.split
    rw [split] at behind
    have reads' : Reads input (position + header.length) base := ⟨body, (List.append_cancel_left behind).symm⟩
    have last := reads'.split
    rw [← List.append_cancel_left behind] at last
    have body_ := List.append_cancel_left last
    have inside' := reads.inside inside
    have inside'' := reads'.inside inside'
    have size := congrArg List.length body_
    rw [List.length_drop] at size
    obtain ⟨first, top⟩ : ∃ first, header.head? = some first := by cases head <;> exact ⟨_, rfl⟩
    obtain rfl : kind = first.toNat / 16 % 8 := by cases head <;> cases top <;> rfl
    obtain ⟨read, rest⟩ := (header_ok short small).mpr ⟨header, reads, head, top, rfl, rfl⟩
    refine bind_ok.mpr ⟨_, read, ?_⟩
    dsimp only
    rw [(header_nibbles first).1, (header_nibbles first).2]
    refine bind_ok.mpr ⟨_, rest, bind_ok.mpr ⟨_, add_ok.mpr ⟨rfl, small, below⟩, bind_ok.mpr
      ⟨_, (skipBase_ok short inside').mpr ⟨base, reads', based, rfl⟩, ?_⟩⟩⟩
    rw [if_neg (by omega), ← body_]
    obtain ⟨s, inflate, total⟩ := @inflateFrom_inflates z length _ _ _ inflates (length + 1) 0 [] (by omega) (by omega) (Nat.zero_le _) (by omega)
    refine bind_ok.mpr ⟨_, inflate, ?_⟩
    dsimp only
    rw [if_neg (by omega), total, if_neg (by omega), if_neg (by omega)]
    refine bind_ok.mpr ⟨_, (skip_ok short).mpr ⟨rfl, by omega⟩, bind_ok.mpr ⟨result, ?_, bind_ok.mpr ⟨_, add_ok.mpr ⟨rfl, small', below'⟩, ?_⟩⟩⟩
    · rw [List.nil_append, List.length_nil, Nat.sub_zero, ← declared]
      exact resultSize_ok.mpr gives
    · rw [Nat.add_assoc, Nat.add_assoc, ← Nat.add_assoc header.length]

theorem framed_inside {used length result : Nat} (framed : Framed z input used length result) : used ≤ input.length := by
  obtain ⟨split, -, -, -, -, -, within, -⟩ := framed
  have size := congrArg List.length split
  rw [List.length_append, List.length_append] at size
  omega

/-- The loop ends at the end of the input when the objects fill it and stay within the rest of the budget. -/
theorem objects_ok (short : input.length < wordBound) (count : Nat) : ∀ {position inflated resolved : Nat}, position ≤ input.length →
    inflated ≤ maxPackBytes → resolved ≤ maxPackBytes → (objects z input count position inflated resolved = .ok input.length ↔
      ∃ sizes, Objects z count (input.drop position) sizes ∧ (∀ s ∈ sizes, s.1 ≤ maxDocumentBytes ∧ s.2 ≤ maxDocumentBytes) ∧
        inflated + (sizes.map Prod.fst).sum ≤ maxPackBytes ∧ resolved + (sizes.map Prod.snd).sum ≤ maxPackBytes) := by
  induction count with
  | zero =>
    intro position inflated resolved inside below below'
    rw [objects]
    constructor
    · intro h
      cases h
      refine ⟨[], ?_, fun s mem => absurd mem List.not_mem_nil, below, below'⟩
      rw [List.drop_length]
      exact .none
    · rintro ⟨sizes, rest, -⟩
      generalize found : input.drop position = bytes at rest
      cases rest
      have size := congrArg List.length found
      rw [List.length_drop, List.length_nil] at size
      rw [show position = input.length by omega]
  | succ count ih =>
    intro position inflated resolved inside below below'
    rw [objects]
    constructor
    · intro h
      obtain ⟨⟨next, inflated', resolved'⟩, one, h⟩ := bind_ok.mp h
      obtain ⟨used, length, result, framed, rfl, ⟨rfl, small, fits⟩, rfl, small', fits'⟩ := (object_ok short inside).mp one
      have within := framed_inside framed
      rw [List.length_drop] at within
      obtain ⟨sizes, others, documents, sums, sums'⟩ := (ih (by omega) fits fits').mp h
      refine ⟨(length, result) :: sizes, .next framed ?_, ?_, ?_, ?_⟩
      · rw [List.drop_drop]
        exact others
      · intro s mem
        rcases List.mem_cons.mp mem with rfl | mem
        · exact ⟨small, small'⟩
        · exact documents s mem
      all_goals
        rw [List.map_cons, List.sum_cons]
        omega
    · rintro ⟨_, (_ | ⟨framed, others⟩), documents, sums, sums'⟩
      rename_i used length result sizes
      have within := framed_inside framed
      rw [List.length_drop] at within
      rw [List.map_cons, List.sum_cons] at sums sums'
      dsimp only at sums sums'
      obtain ⟨small, small'⟩ := documents _ List.mem_cons_self
      refine bind_ok.mpr ⟨(position + used, inflated + length, resolved + result), (object_ok short inside).mpr
        ⟨used, length, result, framed, rfl, ⟨rfl, small, by omega⟩, rfl, small', by omega⟩, ?_⟩
      refine (ih (by omega) (by omega) (by omega)).mpr ⟨sizes, ?_, fun s mem => documents s (List.mem_cons_of_mem _ mem), by omega, by omega⟩
      rw [← List.drop_drop]
      exact others

end Objects

section Packs
variable {z : Decoder} {pack : List UInt8}

theorem slice_ok {start stop : Nat} (inside : start ≤ stop ∧ stop ≤ pack.length) : slice pack start stop = .ok ((pack.take stop).drop start) :=
  if_pos inside

theorem slice_append {start stop : Nat} (inside : start ≤ stop ∧ stop ≤ pack.length) :
    (pack.take stop).drop start ++ pack.drop stop = pack.drop start := by
  rw [← List.drop_append_of_le_length (by rw [List.length_take]; omega), List.take_append_drop]

theorem pack_parts (long : 32 ≤ pack.length) : pack = pack.take 4 ++ ((pack.take 8).drop 4 ++ ((pack.take 12).drop 8 ++
    ((pack.take (pack.length - 20)).drop 12 ++ pack.drop (pack.length - 20)))) := by
  rw [slice_append (by omega), slice_append (by omega), slice_append (by omega), List.take_append_drop]

theorem bounded_parts (bounded : Bounded z pack) : ∃ signature version number body trailer sizes,
    pack = signature ++ (version ++ (number ++ (body ++ trailer))) ∧ signature.length = 4 ∧
      (version.length = 4 ∧ (bigEndian version = 2 ∨ bigEndian version = 3)) ∧
      (number.length = 4 ∧ 1 ≤ bigEndian number ∧ bigEndian number ≤ 512) ∧ Objects z (bigEndian number) body sizes ∧ Budgeted sizes ∧
      trailer.length = 20 := by
  obtain ⟨four, versioned, numbered, objects, budgeted, trailing⟩ := bounded
  exact ⟨_, _, _, _, _, _, rfl, four, versioned, numbered, objects, budgeted, trailing⟩

theorem check_ok (short : pack.length < wordBound) : check z pack = .ok () ↔ Bounded z pack := by
  have lengths : 32 ≤ pack.length → (pack.take 4).length = 4 ∧ ((pack.take 8).drop 4).length = 4 ∧ ((pack.take 12).drop 8).length = 4 ∧
      (pack.take (pack.length - 20)).length = pack.length - 20 ∧ (pack.drop (pack.length - 20)).length = 20 := by
    intro long
    simp only [List.length_take, List.length_drop]
    omega
  unfold check
  constructor
  · intro h
    split at h
    · cases h
    next long =>
    have long : 32 ≤ pack.length := by omega
    obtain ⟨first, second, third, inner, last⟩ := lengths long
    rw [slice_ok (by omega), slice_ok (by omega)] at h
    obtain ⟨_, same, h⟩ := bind_ok.mp h
    cases same
    split at h
    · cases h
    next version =>
    obtain ⟨_, same, h⟩ := bind_ok.mp h
    cases same
    dsimp only at h
    split at h
    · cases h
    next number =>
    obtain ⟨_, same, h⟩ := bind_ok.mp h
    cases (if_pos (by omega) : minus pack.length 20 = .ok (pack.length - 20)).symm.trans same
    rw [slice_ok (by omega)] at h
    obtain ⟨_, same, h⟩ := bind_ok.mp h
    cases same
    obtain ⟨position, loop, h⟩ := bind_ok.mp h
    split at h
    · cases h
    next stop =>
    have stop : position = pack.length - 20 := not_not.mp stop
    have filled : objects z (pack.take (pack.length - 20)) (bigEndian ((pack.take 12).drop 8)) 12 0 0 =
        .ok (pack.take (pack.length - 20)).length := by
      rw [List.drop_zero, stop] at loop
      rw [inner]
      exact loop
    obtain ⟨sizes, objects, documents, sums, sums'⟩ :=
      (objects_ok (by omega) _ (by omega) (Nat.zero_le _) (Nat.zero_le _)).mp filled
    rw [pack_parts long]
    refine .pack first ⟨second, by tauto⟩ ⟨third, by omega⟩ objects ⟨documents, by omega, by omega⟩ last
  · intro h
    obtain ⟨signature, version_, number, body, trailer, sizes, same, four, ⟨four', version⟩, ⟨four'', some_, few⟩, objects,
      ⟨documents, sums, sums'⟩, trailing⟩ := bounded_parts h
    have long : 32 ≤ pack.length := by
      rw [same]
      simp only [List.length_append]
      omega
    obtain ⟨first, second, third, inner, last⟩ := lengths long
    have parts := (pack_parts long).symm.trans same
    obtain ⟨-, parts⟩ := List.append_inj parts (by omega)
    obtain ⟨is_version, parts⟩ := List.append_inj parts (by omega)
    obtain ⟨is_number, parts⟩ := List.append_inj parts (by omega)
    obtain ⟨is_body, -⟩ := List.append_inj' parts (by omega)
    rw [← is_version] at version
    rw [← is_number] at some_ few objects
    rw [← is_body] at objects
    rw [if_neg (by omega), slice_ok (by omega), slice_ok (by omega)]
    refine bind_ok.mpr ⟨_, rfl, ?_⟩
    rw [if_neg (by omega)]
    refine bind_ok.mpr ⟨_, rfl, ?_⟩
    dsimp only
    rw [if_neg (by omega)]
    refine bind_ok.mpr ⟨pack.length - 20, if_pos (by omega), ?_⟩
    rw [slice_ok (by omega), List.drop_zero]
    refine bind_ok.mpr ⟨_, rfl, bind_ok.mpr ⟨pack.length - 20, ?_, ?_⟩⟩
    · have loop := (@objects_ok z _ (by omega) (bigEndian ((pack.take 12).drop 8)) 12 0 0 (by omega) (Nat.zero_le _) (Nat.zero_le _)).mpr
        ⟨sizes, objects, documents, by omega, by omega⟩
      rw [inner] at loop
      exact loop
    · rw [if_neg (not_not.mpr rfl)]

end Packs

def Safe {α : Type} (r : Checked α) : Prop := r ≠ .error .panicked

section Safety
variable {z : Decoder} {input : List UInt8} {position : Nat}

theorem safe_ok {α : Type} (a : α) : Safe (.ok a) := by
  intro h
  cases h

theorem safe_capacity {α : Type} : Safe (.error .capacity : Checked α) := by
  intro h
  cases h

theorem safe_protocol {α : Type} : Safe (.error .protocol : Checked α) := by
  intro h
  cases h

theorem Safe.bind {α β : Type} {first : Checked α} {next : α → Checked β} (safe : Safe first) (others : ∀ a, first = .ok a → Safe (next a)) :
    Safe (first >>= next) := by
  intro h
  rcases bind_error.mp h with h | ⟨a, made, h⟩
  · exact safe h
  · exact others a made h

theorem plus_safe {a b : Nat} (fits : a + b < wordBound) : Safe (plus a b) := by
  rw [plus, if_pos fits]
  exact safe_ok _

theorem checkedPlus_safe (a b : Nat) {error : PackError} (known : error ≠ .panicked) : Safe (checkedPlus a b error) := by
  unfold checkedPlus
  split
  · exact safe_ok _
  · intro h
    cases h
    exact known rfl

theorem checkedTimes_safe (a b : Nat) {error : PackError} (known : error ≠ .panicked) : Safe (checkedTimes a b error) := by
  unfold checkedTimes
  split
  · exact safe_ok _
  · intro h
    cases h
    exact known rfl

theorem checkedShift_safe (a shift : Nat) {error : PackError} (known : error ≠ .panicked) : Safe (checkedShift a shift error) := by
  unfold checkedShift
  split
  · exact safe_ok _
  · intro h
    cases h
    exact known rfl

theorem byte_safe (short : input.length < wordBound) : Safe (byte input position) := by
  unfold byte
  split
  · exact safe_protocol
  · next found =>
    obtain ⟨inside, -⟩ := List.getElem?_eq_some_iff.mp found
    exact (plus_safe (by omega)).bind fun _ _ => safe_ok _

theorem sizeFrom_safe (short : input.length < wordBound) (shifts : List Nat) : ∀ {result position}, (∀ s ∈ shifts, s < 64) →
    Safe (sizeFrom input shifts result position) := by
  induction shifts with
  | nil => exact fun _ => safe_capacity
  | cons shift rest ih =>
    intro result position small
    refine (byte_safe short).bind fun ⟨value, next⟩ _ => ?_
    have inside : Safe (shiftedLeft (value.toNat &&& 127) shift) := by
      rw [shiftedLeft, if_pos (small shift List.mem_cons_self)]
      exact safe_ok _
    refine inside.bind fun part _ => ?_
    split
    · exact safe_ok _
    · exact ih fun s mem => small s (List.mem_cons_of_mem _ mem)

theorem size_safe (short : input.length < wordBound) : Safe (size input position) := sizeFrom_safe short _ (by decide)

theorem lengthFrom_safe (short : input.length < wordBound) (shifts : List Nat) : ∀ {next length position},
    Safe (lengthFrom input shifts next length position) := by
  induction shifts with
  | nil =>
    intro next length position
    unfold lengthFrom
    split
    · exact safe_ok _
    · exact safe_capacity
  | cons shift rest ih =>
    intro next length position
    unfold lengthFrom
    split
    · exact safe_ok _
    · refine (byte_safe short).bind fun ⟨value, after⟩ _ => (checkedShift_safe _ _ (by decide)).bind fun unit _ =>
        (checkedTimes_safe _ _ (by decide)).bind fun part _ => (checkedPlus_safe _ _ (by decide)).bind fun sum _ => ?_
      exact ih

theorem offsetFrom_safe (short : input.length < wordBound) (k : Nat) : ∀ {position}, Safe (offsetFrom input k position) := by
  induction k with
  | zero => exact fun {position} => safe_ok position
  | succ k ih =>
    intro position
    refine (byte_safe short).bind fun ⟨value, next⟩ _ => ?_
    dsimp only
    split
    · exact safe_ok _
    split
    · exact safe_capacity
    · exact ih

theorem skip_safe {count : Nat} : Safe (skip input position count) := by
  refine (checkedPlus_safe _ _ (by decide)).bind fun next _ => ?_
  split
  · exact safe_ok _
  · exact safe_protocol

theorem skipBase_safe (short : input.length < wordBound) {kind : Nat} : Safe (skipBase input kind position) := by
  unfold skipBase
  split
  · exact safe_ok _
  split
  · exact offsetFrom_safe short 10
  split
  · exact skip_safe
  · exact safe_protocol

theorem inflateFrom_safe {length : Nat} (fuel : Nat) : ∀ {s : z.State} {kept : List UInt8} {decoded : Nat}, decoded ≤ length →
    length < fuel + decoded → kept.length ≤ 18 → Safe (inflateFrom z length fuel s kept decoded) := by
  induction fuel with
  | zero =>
    intro s kept decoded within enough
    omega
  | succ fuel ih =>
    intro s kept decoded within enough few
    unfold inflateFrom
    split
    · exact safe_protocol
    · exact safe_ok _
    · next first rest s' read =>
      refine (checkedPlus_safe _ _ (by decide)).bind fun sum added => ?_
      obtain ⟨rfl, -⟩ := checkedPlus_ok.mp added
      rw [List.length_cons]
      split
      · exact safe_capacity
      have room : minus 18 kept.length = .ok (18 - kept.length) := if_pos few
      rw [room]
      refine (safe_ok _).bind fun left same => ?_
      cases same
      refine ih (by omega) (by omega) ?_
      rw [List.length_append, List.length_take]
      omega

theorem resultSize_safe {kind length : Nat} {kept : List UInt8} (few : kept.length ≤ 18) : Safe (resultSize kind length kept) := by
  have short : kept.length < wordBound := Nat.lt_of_le_of_lt few (by decide)
  unfold resultSize
  split
  · refine (size_safe short).bind fun ⟨base, cursor⟩ _ => ?_
    dsimp only
    split
    · exact safe_capacity
    · exact (size_safe short).bind fun _ _ => safe_ok _
  · exact safe_ok _

theorem add_safe (total length : Nat) : Safe (add total length) := by
  unfold add
  split
  · exact safe_capacity
  · refine (checkedPlus_safe _ _ (by decide)).bind fun sum _ => ?_
    split
    · exact safe_capacity
    · exact safe_ok _

theorem object_safe (short : input.length < wordBound) (inflated resolved : Nat) : Safe (object z input position inflated resolved) := by
  refine (byte_safe short).bind fun ⟨first, after⟩ _ => (lengthFrom_safe short _).bind fun ⟨length, stop⟩ _ =>
    (add_safe _ _).bind fun _ _ => (skipBase_safe short).bind fun behind _ => ?_
  dsimp only
  split
  · exact safe_protocol
  refine (inflateFrom_safe (length + 1) (Nat.zero_le _) (by omega) (Nat.zero_le _)).bind fun ⟨s, kept, decoded⟩ made => ?_
  obtain ⟨data, -, same, -, -⟩ := inflateFrom_ok _ made (Nat.zero_le _)
  dsimp only
  split
  · exact safe_protocol
  split
  · exact safe_capacity
  split
  · exact safe_protocol
  refine skip_safe.bind fun _ _ => (resultSize_safe ?_).bind fun _ _ => (add_safe _ _).bind fun _ _ => safe_ok _
  rw [same, List.nil_append, List.length_take]
  exact Nat.min_le_left _ _

theorem objects_safe (short : input.length < wordBound) (count : Nat) : ∀ {position inflated resolved},
    Safe (objects z input count position inflated resolved) := by
  induction count with
  | zero => exact fun {position _ _} => safe_ok position
  | succ count ih => exact (object_safe short _ _).bind fun _ _ => ih

theorem check_safe {pack : List UInt8} (short : pack.length < wordBound) : Safe (check z pack) := by
  unfold check
  split
  · exact safe_protocol
  rw [slice_ok (by omega), slice_ok (by omega)]
  refine (safe_ok _).bind fun version _ => ?_
  split
  · exact safe_protocol
  refine (safe_ok _).bind fun number _ => ?_
  dsimp only
  split
  · exact safe_capacity
  have stop : minus pack.length 20 = .ok (pack.length - 20) := if_pos (by omega)
  rw [stop]
  refine (safe_ok _).bind fun stop same => ?_
  cases same
  rw [slice_ok (by omega)]
  refine (safe_ok _).bind fun inner same => ?_
  cases same
  refine (objects_safe ?_ _).bind fun position _ => ?_
  · rw [List.drop_zero, List.length_take]
    omega
  · split
    · exact safe_protocol
    · exact safe_ok _

end Safety

/-- The preflight accepts exactly the packs within their budget, and fails only by its own errors; their signature is looked at before it. -/
theorem check_accepts_iff (z : Decoder) (pack : List UInt8) (short : pack.length < wordBound) :
    (check z pack = .ok () ↔ Bounded z pack) ∧ check z pack ≠ .error .panicked ∧
      (preflight z pack = .ok () ↔ pack.length ≤ maxPackBytes ∧ pack.take 4 = [0x50, 0x41, 0x43, 0x4b] ∧ Bounded z pack) := by
  refine ⟨check_ok short, check_safe short, ?_⟩
  unfold preflight
  constructor
  · intro h
    split at h
    · cases h
    next asked =>
    obtain ⟨small, signed⟩ := not_or.mp asked
    exact ⟨Nat.le_of_not_lt small, not_not.mp signed, (check_ok short).mp h⟩
  · rintro ⟨small, signed, bounded⟩
    rw [if_neg (not_or.mpr ⟨Nat.not_lt.mpr small, not_not.mpr signed⟩)]
    exact (check_ok short).mpr bounded

section Samples

def sampleStream : List UInt8 := [0x78, 0x01, 0x01, 3, 0, 0xfc, 0xff, 97, 98, 99, 0x02, 0x4d, 0x01, 0x27]

/-- A decoder that knows this stream only. -/
def sampleDecoder : Decoder where
  State := List UInt8 × Nat
  start input := (input, 0)
  read s :=
    if s.2 = 0 then if sampleStream.isPrefixOf s.1 then some ([97, 98, 99], (s.1, 14)) else none
    else some ([], s)
  totalIn s := s.2

def samplePack (signature : List UInt8) : List UInt8 :=
  signature ++ [0, 0, 0, 2, 0, 0, 0, 1] ++ [0x33] ++ sampleStream ++ List.replicate 20 0

/-- The preflight alone does not look at the signature. -/
theorem unsigned_accepted : check sampleDecoder (samplePack [0x4a, 0x55, 0x4e, 0x4b]) = .ok () ∧
    (samplePack [0x4a, 0x55, 0x4e, 0x4b]).take 4 ≠ [0x50, 0x41, 0x43, 0x4b] := by decide

theorem check_accepts_sample : Bounded sampleDecoder (samplePack [0x50, 0x41, 0x43, 0x4b]) :=
  (check_accepts_iff sampleDecoder _ (by decide)).1.mp (by decide)

end Samples

end RssMdmAgent.PackBudget
