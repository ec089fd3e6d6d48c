import RssMdmAgent.PrivateLink

set_option autoImplicit false

/-! # The frames of the private link -/

namespace RssMdmAgent.PrivateLink
open StreamFraming TransitionRuns

section Words

theorem readUInt32BE_write {n : Nat} (small : n < 4294967296) (rest : Bytes) :
    readUInt32BE (writeUInt32BE n ++ rest) = n := by
  unfold writeUInt32BE
  simp only [List.cons_append, List.nil_append, readUInt32BE, UInt8.toNat_ofNat']
  omega

theorem writeUInt32BE_read {bytes : Bytes} (long : 4 ≤ bytes.length) : writeUInt32BE (readUInt32BE bytes) = bytes.take 4 := by
  match bytes, long with
  | a :: b :: c :: d :: rest, _ =>
    have bounds := And.intro a.toNat_lt (And.intro b.toNat_lt (And.intro c.toNat_lt d.toNat_lt))
    have value : readUInt32BE (a :: b :: c :: d :: rest) = a.toNat * 16777216 + b.toNat * 65536 + c.toNat * 256 + d.toNat := rfl
    have byte (x : UInt8) (n : Nat) (same : n % 256 = x.toNat) : UInt8.ofNat n = x := by
      apply UInt8.toNat_inj.mp
      rw [UInt8.toNat_ofNat', ← same]
    rw [value]
    unfold writeUInt32BE
    rw [byte a, byte b, byte c, byte d]
    · rfl
    all_goals omega

theorem length_writeUInt32BE (n : Nat) : (writeUInt32BE n).length = 4 := rfl

end Words

structure Frame.Valid (lanes : Nat) (f : Frame) : Prop where
  lane : f.lane < lanes
  some : f.payload ≠ []
  small : f.payload.length ≤ maxFrame

theorem length_encode (f : Frame) : f.encode.length = f.payload.length + headerBytes := by
  unfold Frame.encode magic headerBytes
  simp only [List.cons_append, List.nil_append, List.length_cons, List.length_append, length_writeUInt32BE]
  omega

section Scan
variable {lanes : Nat} {f : Frame} {buffer rest : Bytes}

theorem scan_encode (few : lanes ≤ 256) (rest : Bytes) (valid : f.Valid lanes) : scan lanes (f.encode ++ rest) = .frame f rest := by
  have length : (f.encode ++ rest).length = f.payload.length + headerBytes + rest.length := by
    rw [List.length_append, length_encode]
  have front : f.encode ++ rest = 82 :: 83 :: 83 :: 1 :: UInt8.ofNat f.lane :: (writeUInt32BE f.payload.length ++ (f.payload ++ rest)) := by
    unfold Frame.encode magic
    simp
  have lane := valid.lane
  have small := valid.small
  have id : (UInt8.ofNat f.lane).toNat = f.lane := by
    rw [UInt8.toNat_ofNat']
    omega
  have size : readUInt32BE ((f.encode ++ rest).drop 5) = f.payload.length := by
    rw [front]
    exact readUInt32BE_write (by unfold maxFrame at small; omega) _
  have magic' : (f.encode ++ rest).take 4 = magic := by
    rw [front]
    rfl
  have head : ((f.encode ++ rest).drop 4).headD 0 = UInt8.ofNat f.lane := by
    rw [front]
    rfl
  have tail : (f.encode ++ rest).drop headerBytes = f.payload ++ rest := by
    rw [front]
    rfl
  have some : f.payload.length ≠ 0 := fun none => valid.some (List.eq_nil_of_length_eq_zero none)
  unfold scan
  dsimp only
  rw [if_neg (by rw [length]; omega), if_neg (not_not.mpr magic'), head, id, size, if_neg (by omega), length,
    if_neg (by omega), tail, List.take_left, Nat.add_comm, ← List.drop_drop, tail, List.drop_left]

def header (id size : Nat) : Bytes := magic ++ UInt8.ofNat id :: writeUInt32BE size

theorem encode_header (id : Nat) (payload : Bytes) : Frame.encode ⟨id, payload⟩ = header id payload.length ++ payload := by
  unfold Frame.encode header
  simp

theorem header_of (long : headerBytes ≤ buffer.length) (same : buffer.take 4 = magic) :
    buffer = header ((buffer.drop 4).headD 0).toNat (readUInt32BE (buffer.drop 5)) ++ buffer.drop headerBytes := by
  unfold headerBytes at long ⊢
  have four : 4 ≤ (buffer.drop 5).length := by
    rw [List.length_drop]
    omega
  have some : 0 < (buffer.drop 4).length := by
    rw [List.length_drop]
    omega
  have head : buffer.drop 4 = (buffer.drop 4).headD 0 :: buffer.drop 5 := by
    obtain ⟨first, rest, cons⟩ := List.exists_cons_of_length_pos some
    rw [show buffer.drop 5 = (buffer.drop 4).drop 1 by rw [List.drop_drop], cons]
    rfl
  unfold header
  rw [writeUInt32BE_read four, UInt8.ofNat_toNat, ← same]
  calc buffer = buffer.take 4 ++ buffer.drop 4 := (List.take_append_drop 4 buffer).symm
    _ = buffer.take 4 ++ (buffer.drop 4).headD 0 :: buffer.drop 5 := by rw [← head]
    _ = buffer.take 4 ++ (buffer.drop 4).headD 0 :: ((buffer.drop 5).take 4 ++ buffer.drop 9) := by
      rw [show buffer.drop 9 = (buffer.drop 5).drop 4 by rw [List.drop_drop], List.take_append_drop]
    _ = _ := by simp

theorem scan_sound (h : scan lanes buffer = .frame f rest) : f.Valid lanes ∧ buffer = f.encode ++ rest := by
  unfold scan at h
  split at h
  · cases h
  rename_i long
  split at h
  · cases h
  rename_i same
  dsimp only at h
  split at h
  · cases h
  rename_i bounds
  split at h
  · cases h
  rename_i whole
  injection h with frame tail
  subst frame tail
  have front := header_of (Nat.le_of_not_lt long) (not_not.mp same)
  have length : ((buffer.drop headerBytes).take (readUInt32BE (buffer.drop 5))).length = readUInt32BE (buffer.drop 5) := by
    rw [List.length_take, List.length_drop]
    omega
  refine ⟨⟨?_, ?_, ?_⟩, ?_⟩
  · dsimp only
    omega
  · intro empty
    have none := congrArg List.length empty
    dsimp only at none
    rw [length, List.length_nil] at none
    omega
  · dsimp only
    omega
  · rw [encode_header, length, Nat.add_comm, ← List.drop_drop, List.append_assoc, List.take_append_drop]
    exact front

theorem scan_nil : scan lanes [] = .more := rfl

/-- The frames of a number of lanes that a byte can name. -/
def framing (lanes : Nat) (few : lanes ≤ 256) : Framing UInt8 Frame where
  Valid := Frame.Valid lanes
  encode := Frame.encode
  scan := scan lanes
  scan_nil := scan_nil
  scan_encode rest valid := scan_encode few rest valid
  scan_sound := scan_sound

theorem scan_bad (back : Bytes) (bad : scan lanes buffer = .bad) : scan lanes (buffer ++ back) = .bad := by
  unfold scan at bad ⊢
  split at bad
  · cases bad
  rename_i long
  have long' : ¬ (buffer ++ back).length < headerBytes := by
    rw [List.length_append]
    omega
  rw [if_neg long']
  unfold headerBytes at long
  have take4 : (buffer ++ back).take 4 = buffer.take 4 := List.take_append_of_le_length (by omega)
  have drop4 : (buffer ++ back).drop 4 = buffer.drop 4 ++ back := List.drop_append_of_le_length (by omega)
  have drop5 : (buffer ++ back).drop 5 = buffer.drop 5 ++ back := List.drop_append_of_le_length (by omega)
  have head : (buffer.drop 4 ++ back).headD 0 = (buffer.drop 4).headD 0 := by
    have some : 0 < (buffer.drop 4).length := by
      rw [List.length_drop]
      omega
    obtain ⟨first, rest, cons⟩ := List.exists_cons_of_length_pos some
    rw [cons]
    rfl
  have word : readUInt32BE (buffer.drop 5 ++ back) = readUInt32BE (buffer.drop 5) := by
    have four : 4 ≤ (buffer.drop 5).length := by
      rw [List.length_drop]
      omega
    match buffer.drop 5, four with
    | a :: b :: c :: d :: rest, _ => rfl
  rw [take4]
  split at bad
  · rename_i differ
    rw [if_pos differ]
  · rename_i same
    rw [if_neg same]
    dsimp only at bad ⊢
    rw [drop4, drop5, head, word]
    split at bad
    · rename_i outside
      rw [if_pos outside]
    · split at bad <;> cases bad

/-- What waits for more is short, or the front of one frame. -/
theorem scan_more (more : scan lanes buffer = .more) : buffer.length < headerBytes ∨
    ∃ f : Frame, f.Valid lanes ∧ buffer.length < f.encode.length ∧ buffer.IsPrefix f.encode := by
  unfold scan at more
  split at more
  · rename_i short
    exact .inl short
  rename_i long
  split at more
  · cases more
  rename_i same
  dsimp only at more
  split at more
  · cases more
  rename_i bounds
  split at more
  · rename_i part
    have front := header_of (Nat.le_of_not_lt long) (not_not.mp same)
    obtain ⟨size, word⟩ : ∃ size, readUInt32BE (buffer.drop 5) = size := ⟨_, rfl⟩
    obtain ⟨id, lane⟩ : ∃ id, ((buffer.drop 4).headD 0).toNat = id := ⟨_, rfl⟩
    rw [word, lane] at bounds front
    rw [word] at part
    obtain ⟨payload, filled⟩ : ∃ payload, buffer.drop headerBytes ++ List.replicate (size + headerBytes - buffer.length) 0 = payload :=
      ⟨_, rfl⟩
    have length : payload.length = size := by
      rw [← filled, List.length_append, List.length_drop, List.length_replicate]
      omega
    have encoded : Frame.encode ⟨id, payload⟩ = buffer ++ List.replicate (size + headerBytes - buffer.length) 0 := by
      rw [encode_header, length, ← filled, ← List.append_assoc, ← front]
    refine .inr ⟨⟨id, payload⟩, ⟨?_, fun empty => ?_, ?_⟩, ?_, ?_⟩
    · dsimp only
      omega
    · dsimp only at empty
      rw [empty, List.length_nil] at length
      omega
    · dsimp only
      omega
    · rw [length_encode]
      dsimp only
      omega
    · exact ⟨_, encoded.symm⟩
  · cases more

end Scan

end RssMdmAgent.PrivateLink
