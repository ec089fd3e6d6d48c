import Mathlib.Data.List.TakeWhile
import Mathlib.Tactic.Linarith

set_option autoImplicit false

/-! # Quoted arguments of a Windows command line -/

namespace RssMdmAgent.WindowsArgv

/-! ## Quoting -/

def quoteFrom (slashes : Nat) : List Char → List Char
  | [] => List.replicate (slashes * 2) '\\' ++ ['"']
  | character :: rest =>
    if character = '\\' then quoteFrom (slashes + 1) rest
    else List.replicate (if character = '"' then slashes * 2 + 1 else slashes) '\\' ++ character :: quoteFrom 0 rest

def quote (value : String) : String := String.ofList ('"' :: quoteFrom 0 value.toList)

/-! ## The splitter of the runtime -/

inductive Doubled where
  | opens
  | stays
  | closes
  deriving DecidableEq, Repr

inductive Mode where
  | outside
  | quoted
  | closed
  deriving DecidableEq, Repr

def isBlank (c : Char) : Bool := c = ' ' || c = '\t'

/-- The mode and the character that a quote behind an even number of backslashes gives. -/
def quoteMark (doubled : Doubled) : Mode → Mode × List Char
  | .outside => (.quoted, [])
  | .quoted => (.closed, [])
  | .closed =>
    match doubled with
    | .opens => (.quoted, [])
    | .stays => (.quoted, ['"'])
    | .closes => (.outside, ['"'])

def Mode.passed : Mode → Mode
  | .closed => .outside
  | mode => mode

/-- Backslashes count only before a quote, blanks end an argument outside of quoted parts. -/
def scan (doubled : Doubled) (mode : Mode) (slashes : Nat) (word : Option (List Char)) : List Char → List (List Char)
  | [] => if word = none ∧ slashes = 0 then [] else [word.getD [] ++ List.replicate slashes '\\']
  | c :: rest =>
    if c = '\\' then scan doubled mode.passed (slashes + 1) (some (word.getD [])) rest
    else if c = '"' then
      let word := word.getD [] ++ List.replicate (slashes / 2) '\\'
      if slashes % 2 = 1 then scan doubled mode 0 (some (word ++ ['"'])) rest
      else scan doubled (quoteMark doubled mode).1 0 (some (word ++ (quoteMark doubled mode).2)) rest
    else if isBlank c ∧ mode ≠ .quoted then
      match word with
      | none => scan doubled .outside 0 none rest
      | some word => (word ++ List.replicate slashes '\\') :: scan doubled .outside 0 none rest
    else scan doubled mode.passed 0 (some (word.getD [] ++ List.replicate slashes '\\' ++ [c])) rest

def split (doubled : Doubled) (line : String) : List String :=
  (scan doubled .outside 0 none (line.toList.takeWhile (· ≠ '\x00'))).map String.ofList

/-! ## Round trip -/

section Scanning
variable (doubled : Doubled) {mode : Mode} {slashes : Nat} {word tail : List Char}

theorem scan_slashes (open_ : mode.passed = mode) (n : Nat) :
    scan doubled mode slashes (some word) (List.replicate n '\\' ++ tail) = scan doubled mode (slashes + n) (some word) tail := by
  induction n generalizing slashes with
  | zero => rfl
  | succ n ih =>
    rw [List.replicate_succ, List.cons_append, scan, if_pos rfl, open_]
    exact ih.trans (by rw [Nat.add_right_comm, Nat.add_assoc])

theorem scan_quoteFrom (value : List Char) (n : Nat) :
    scan doubled .quoted 0 (some word) (quoteFrom n value ++ tail) =
      scan doubled .closed 0 (some (word ++ List.replicate n '\\' ++ value)) tail := by
  induction value generalizing n word with
  | nil =>
    rw [quoteFrom, List.append_assoc, scan_slashes doubled rfl, List.cons_append, scan, if_neg (by decide), if_pos rfl,
      if_neg (by omega)]
    simp [quoteMark]
  | cons c rest ih =>
    rw [quoteFrom]
    by_cases slash : c = '\\'
    · rw [if_pos slash, ih (n + 1), slash]
      simp [List.replicate_succ']
    · rw [if_neg slash, List.append_assoc, scan_slashes doubled rfl, List.cons_append, scan, if_neg slash]
      by_cases mark : c = '"'
      · have odd : (0 + (n * 2 + 1)) % 2 = 1 := by omega
        have half : (0 + (n * 2 + 1)) / 2 = n := by omega
        rw [if_pos mark, if_pos mark, odd, half]
        simp only [if_true]
        rw [ih 0, mark]
        simp
      · rw [if_neg mark, if_neg mark, if_neg (by simp)]
        change scan doubled .quoted 0 _ _ = _
        rw [ih 0]
        simp

theorem scan_quoted (value : List Char) (tail : List Char) (ends : tail = [] ∨ ∃ rest, tail = ' ' :: rest) :
    scan doubled .outside 0 none ('"' :: quoteFrom 0 value ++ tail) = value :: scan doubled .outside 0 none tail := by
  rw [List.cons_append, scan, if_neg (by decide), if_pos rfl]
  change scan doubled .quoted 0 (some []) _ = _
  rw [scan_quoteFrom doubled]
  rcases ends with rfl | ⟨rest, rfl⟩
  · simp [scan]
  · simp [scan, isBlank]

end Scanning

def behind (arguments : List String) : List Char := arguments.flatMap fun argument => ' ' :: (quote argument).toList

theorem behind_cons (argument : String) (more : List String) :
    behind (argument :: more) = ' ' :: '"' :: quoteFrom 0 argument.toList ++ behind more := by
  simp [behind, quote]

theorem behind_ends (arguments : List String) : behind arguments = [] ∨ ∃ rest, behind arguments = ' ' :: rest := by
  cases arguments with
  | nil => exact .inl rfl
  | cons argument more => exact .inr ⟨_, behind_cons argument more⟩

theorem scan_behind (doubled : Doubled) (arguments : List String) :
    scan doubled .outside 0 none (behind arguments) = arguments.map String.toList := by
  induction arguments with
  | nil => rfl
  | cons argument more ih =>
    calc scan doubled .outside 0 none (behind (argument :: more))
        = scan doubled .outside 0 none ('"' :: quoteFrom 0 argument.toList ++ behind more) := by
          rw [behind_cons, List.cons_append, scan, if_neg (by decide), if_neg (by decide), if_pos (by decide)]
      _ = argument.toList :: scan doubled .outside 0 none (behind more) :=
          scan_quoted doubled argument.toList (behind more) (behind_ends more)
      _ = (argument :: more).map String.toList := by rw [ih, List.map_cons]

theorem intercalate_toList (argument : String) (more : List String) :
    (String.intercalate " " ((argument :: more).map quote)).toList = '"' :: quoteFrom 0 argument.toList ++ behind more := by
  rw [String.toList_intercalate]
  induction more generalizing argument with
  | nil => simp [quote, behind]
  | cons next others ih =>
    have step := ih next
    simp only [List.map_cons, List.intercalate_cons_cons] at step ⊢
    rw [step, behind_cons]
    simp [quote]

theorem quoteFrom_clean (value : List Char) (slashes : Nat) (clean : '\x00' ∉ value) : '\x00' ∉ quoteFrom slashes value := by
  induction value generalizing slashes with
  | nil => simp [quoteFrom]
  | cons c rest ih =>
    rw [List.mem_cons, not_or] at clean
    unfold quoteFrom
    split
    · exact ih _ clean.2
    · simp [clean.1, ih _ clean.2]

theorem behind_clean (arguments : List String) (clean : ∀ argument ∈ arguments, '\x00' ∉ argument.toList) :
    '\x00' ∉ behind arguments := by
  induction arguments with
  | nil => simp [behind]
  | cons argument more ih =>
    rw [behind_cons]
    have this := quoteFrom_clean argument.toList 0 (clean argument List.mem_cons_self)
    have others := ih fun other mem => clean other (List.mem_cons_of_mem _ mem)
    simp [this, others]

/-- The runtime splits quoted arguments into the arguments that were quoted. -/
theorem split_quoted (doubled : Doubled) (arguments : List String) (clean : ∀ argument ∈ arguments, '\x00' ∉ argument.toList) :
    split doubled (String.intercalate " " (arguments.map quote)) = arguments := by
  cases arguments with
  | nil => rfl
  | cons argument more =>
    have whole : '\x00' ∉ behind (argument :: more) := behind_clean _ clean
    rw [behind_cons, List.cons_append, List.mem_cons, not_or] at whole
    have kept : ('"' :: quoteFrom 0 argument.toList ++ behind more).takeWhile (· ≠ '\x00') =
        '"' :: quoteFrom 0 argument.toList ++ behind more := by
      refine List.takeWhile_eq_self_iff.mpr fun c mem => decide_eq_true ?_
      rintro rfl
      exact whole.2 mem
    unfold split
    rw [intercalate_toList, kept, scan_quoted doubled _ _ (behind_ends more), scan_behind]
    simp

theorem split_quoted_mixed : split .stays (String.intercalate " " (["", "a b\\", "\\\"c"].map quote)) = ["", "a b\\", "\\\"c"] :=
  split_quoted .stays ["", "a b\\", "\\\"c"] (by decide)

end RssMdmAgent.WindowsArgv
