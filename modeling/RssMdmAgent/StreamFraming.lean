import Mathlib.Data.List.Infix
import Mathlib.Tactic.Linarith

set_option autoImplicit false

/-! # Frames in a stream of bytes -/

namespace RssMdmAgent.StreamFraming

inductive Scan (Byte Frame : Type) where
  | more
  | bad
  | frame (frame : Frame) (rest : List Byte)

/-- An encoding of valid frames whose scan reads exactly one of them. -/
structure Framing (Byte Frame : Type) where
  Valid : Frame → Prop
  encode : Frame → List Byte
  scan : List Byte → Scan Byte Frame
  scan_nil : scan [] = .more
  scan_encode : ∀ {f} rest, Valid f → scan (encode f ++ rest) = .frame f rest
  scan_sound : ∀ {bytes f rest}, scan bytes = .frame f rest → Valid f ∧ bytes = encode f ++ rest

section Rules
variable {Byte Frame : Type} (F : Framing Byte Frame)

def Framing.AllValid (frames : List Frame) : Prop := ∀ f ∈ frames, F.Valid f

def Framing.encodeAll (frames : List Frame) : List Byte := frames.flatMap F.encode

def Framing.Encoded (bytes : List Byte) : Prop := ∃ frames, F.AllValid frames ∧ bytes.IsPrefix (F.encodeAll frames)

variable {F} {f : Frame} {frames others : List Frame} {bytes rest : List Byte}

theorem Framing.encodeAll_nil : F.encodeAll [] = [] := rfl

theorem Framing.encodeAll_cons : F.encodeAll (f :: frames) = F.encode f ++ F.encodeAll frames := List.flatMap_cons

theorem Framing.encodeAll_append : F.encodeAll (frames ++ others) = F.encodeAll frames ++ F.encodeAll others :=
  List.flatMap_append

theorem Framing.AllValid.nil : F.AllValid [] := fun _ mem => absurd mem List.not_mem_nil

theorem Framing.AllValid.append (first : F.AllValid frames) (second : F.AllValid others) : F.AllValid (frames ++ others) := by
  intro f mem
  rcases List.mem_append.mp mem with mem | mem
  · exact first f mem
  · exact second f mem

theorem Framing.allValid_cons : F.AllValid (f :: frames) ↔ F.Valid f ∧ F.AllValid frames := List.forall_mem_cons

theorem Framing.scan_encodeAll (rest : List Byte) (valid : F.AllValid (f :: frames)) :
    F.scan (F.encodeAll (f :: frames) ++ rest) = .frame f (F.encodeAll frames ++ rest) := by
  rw [encodeAll_cons, List.append_assoc, F.scan_encode _ (allValid_cons.mp valid).1]

theorem Framing.cancel (valid : F.AllValid frames) (valid' : F.AllValid others)
    (same : F.encodeAll frames ++ rest = F.encodeAll others) :
    ∃ later, others = frames ++ later ∧ rest = F.encodeAll later := by
  induction frames generalizing others with
  | nil => exact ⟨others, rfl, same⟩
  | cons f frames ih =>
    have scanned := scan_encodeAll rest valid
    rw [same] at scanned
    cases others with
    | nil =>
      rw [encodeAll_nil, F.scan_nil] at scanned
      cases scanned
    | cons g others =>
      have other := scan_encodeAll [] valid'
      rw [List.append_nil, List.append_nil, scanned] at other
      injection other with head tail
      subst head
      obtain ⟨later, equal, left⟩ := ih (allValid_cons.mp valid).2 (allValid_cons.mp valid').2 tail
      exact ⟨later, by rw [equal]; rfl, left⟩

theorem Framing.Encoded.cons (valid : F.AllValid frames) (encoded : F.Encoded rest) : F.Encoded (F.encodeAll frames ++ rest) := by
  obtain ⟨others, valid', more, same⟩ := encoded
  refine ⟨frames ++ others, valid.append valid', more, ?_⟩
  rw [List.append_assoc, same, encodeAll_append]

theorem Framing.Encoded.not_bad (persists : ∀ {front} back, F.scan front = .bad → F.scan (front ++ back) = .bad)
    (encoded : F.Encoded bytes) : F.scan bytes ≠ .bad := by
  intro bad
  obtain ⟨frames, valid, more, same⟩ := encoded
  have failed := persists more bad
  rw [same] at failed
  cases frames with
  | nil =>
    rw [encodeAll_nil, F.scan_nil] at failed
    cases failed
  | cons f frames =>
    have scanned := scan_encodeAll [] valid
    rw [List.append_nil, failed] at scanned
    cases scanned

end Rules

end RssMdmAgent.StreamFraming
