import Mathlib.Data.List.Induction
import Mathlib.Tactic.Linarith

set_option autoImplicit false

/-! # Labelled runs and their invariants -/

namespace RssMdmAgent.TransitionRuns

variable {State Label : Type}

inductive Runs (step : State → Label → State → Prop) (s : State) : List Label → State → Prop where
  | refl : Runs step s [] s
  | next {labels : List Label} {t u : State} {label : Label} (earlier : Runs step s labels t)
      (h : step t label u) : Runs step s (labels ++ [label]) u

section Rules
variable {step : State → Label → State → Prop} {s t u : State} {labels later : List Label}

theorem Runs.one {label : Label} (h : step s label t) : Runs step s [label] t :=
  .next .refl h

theorem Runs.trans (first : Runs step s labels t) (second : Runs step t later u) :
    Runs step s (labels ++ later) u := by
  induction second with
  | refl => rwa [List.append_nil]
  | next _ h ih =>
    rw [← List.append_assoc]
    exact .next ih h

theorem Runs.mono {larger : State → Label → State → Prop} (run : Runs step s labels t)
    (contained : ∀ t label u, step t label u → larger t label u) : Runs larger s labels t := by
  induction run with
  | refl => exact .refl
  | next _ h ih => exact .next ih (contained _ _ _ h)

theorem Runs.history (I : List Label → State → Prop) (run : Runs step s labels t)
    (start : I [] s) (preserved : ∀ done t label u, I done t → step t label u →
      I (done ++ [label]) u) : I labels t := by
  induction run with
  | refl => exact start
  | next _ h ih => exact preserved _ _ _ _ ih h

theorem Runs.invariant (I : State → Prop) (run : Runs step s labels t) (start : I s)
    (preserved : ∀ t label u, I t → step t label u → I u) : I t :=
  run.history (fun _ t => I t) start fun _ t label u h => preserved t label u h

theorem Runs.relates (R : State → State → Prop) (run : Runs step s labels t) (refl : ∀ s, R s s)
    (trans : ∀ {s t u}, R s t → R t u → R s u) (contains : ∀ t label u, step t label u → R t u) :
    R s t :=
  run.invariant (R s) (refl s) fun t label u h now => trans h (contains t label u now)

theorem Runs.step_of_mem {label : Label} (run : Runs step s labels t) (mem : label ∈ labels) :
    ∃ t u, step t label u := by
  induction run with
  | refl => cases mem
  | next _ h ih =>
    rcases List.mem_append.mp mem with mem | mem
    · exact ih mem
    · rw [List.mem_singleton.mp mem]
      exact ⟨_, _, h⟩

theorem Runs.last {label : Label} (run : Runs step s (labels ++ [label]) u) :
    ∃ t, Runs step s labels t ∧ step t label u := by
  generalize same : labels ++ [label] = all at run
  cases run with
  | refl => simp at same
  | next earlier h =>
    obtain ⟨rfl, last⟩ := List.append_inj' same rfl
    cases List.singleton_inj.mp last
    exact ⟨_, earlier, h⟩

theorem Runs.split (later : List Label) : ∀ {labels : List Label} {u : State},
    Runs step s (labels ++ later) u → ∃ t, Runs step s labels t ∧ Runs step t later u := by
  induction later using List.reverseRecOn with
  | nil =>
    intro labels u run
    rw [List.append_nil] at run
    exact ⟨u, run, .refl⟩
  | append_singleton front label ih =>
    intro labels u run
    rw [← List.append_assoc] at run
    obtain ⟨t, run, h⟩ := run.last
    obtain ⟨middle, first, second⟩ := ih run
    exact ⟨middle, first, .next second h⟩

theorem Runs.around {label : Label} (run : Runs step s (labels ++ label :: later) u) :
    ∃ t v, Runs step s labels t ∧ step t label v ∧ Runs step v later u := by
  rw [List.append_cons] at run
  obtain ⟨v, run, rest⟩ := run.split later
  obtain ⟨t, run, h⟩ := run.last
  exact ⟨t, v, run, h, rest⟩

theorem Runs.of_foldlM {Input : Type} (advance : State → Input → Option State)
    (label : Input → Label)
    (sound : ∀ s input t, advance s input = some t → step s (label input) t) (inputs : List Input) :
    ∀ {t : State}, inputs.foldlM advance s = some t → Runs step s (inputs.map label) t := by
  induction inputs using List.reverseRecOn with
  | nil =>
    intro t h
    cases h
    exact .refl
  | append_singleton front input ih =>
    intro t h
    rw [List.foldlM_append] at h
    obtain ⟨middle, first, last⟩ := Option.bind_eq_some_iff.mp h
    rw [List.foldlM_cons] at last
    obtain ⟨next, step, rest⟩ := Option.bind_eq_some_iff.mp last
    cases rest
    rw [List.map_append]
    exact .next (ih first) (sound middle input _ step)

end Rules

section Observed
variable {α : Type} {observe : Label → Option α} {labels : List Label} {label : Label}

theorem observed_none (silent : observe label = none) :
    (labels ++ [label]).filterMap observe = labels.filterMap observe := by
  simp [silent]

theorem observed_some {a : α} (seen : observe label = some a) :
    (labels ++ [label]).filterMap observe = labels.filterMap observe ++ [a] := by
  simp [seen]

theorem observed_nodup {a : α} {seen : List α} (nodup : seen.Nodup) (fresh : a ∉ seen) :
    (seen ++ [a]).Nodup := by
  rw [List.nodup_append]
  refine ⟨nodup, by simp, fun b mem c same => ?_⟩
  rw [List.mem_singleton.mp same]
  rintro rfl
  exact fresh mem

end Observed

end RssMdmAgent.TransitionRuns
