import RssMdmAgent.LifecycleSettled

set_option autoImplicit false

/-! # A finished execution begins nothing more -/

namespace RssMdmAgent.LifecycleEnds
open BoundedArithmetic ContractIdentity ContractPlan LifecycleModel LifecycleState LifecycleSteps LifecycleRuns LifecycleAdvances
open LifecycleSettled TransitionRuns

variable {e e' start : Execution} {label : Label} {directive : Directive} {now opened : Nat} {plan : FrozenExecution} {limits : Limits}
  {earlier later : List Label}

inductive Ended (cancelled : Bool) (a : AttemptSnapshot) : Prop where
  | satisfied (effect : AttemptSnapshot.effectAssessment a = some .satisfied)
  | idle (cancel : cancelled = true) (none : AttemptSnapshot.noEffect a = true)
  | judged (cancel : cancelled = true) (assessed : (AttemptSnapshot.effectAssessment a).isSome = true)

def Finished (s : Snapshot) : Prop :=
  match s.attempt with
  | none => s.cancelRequested = true
  | some a => a.termination.isSome = true ∧ Ended s.cancelRequested a

theorem finished_of_done (done : e.directive now = .ok .done) : Finished e.snapshot := by
  unfold Execution.directive at done
  dsimp only at done
  split at done
  · cases done
  have done := Except.ok.inj done
  unfold Finished
  cases attempt : e.snapshot.attempt with
  | none =>
    rw [attempt] at done
    dsimp only at done ⊢
    by_contra running
    rw [if_neg running] at done
    split at done
    · cases done
    · split at done <;> cases done
  | some a =>
    rw [attempt] at done
    dsimp only at done ⊢
    cases ended : a.termination with
    | none =>
      rw [ended] at done
      dsimp only at done
      split at done
      · cases done
      split at done
      · cases done
      · split at done <;> cases done
    | some t =>
      rw [ended] at done
      dsimp only at done
      refine ⟨rfl, ?_⟩
      by_cases concluded : AttemptSnapshot.effectAssessment a = some .satisfied ∨
          (e.snapshot.cancelRequested = true ∧ AttemptSnapshot.noEffect a = true)
      · rcases concluded with effect | ⟨cancel, none⟩
        · exact .satisfied effect
        · exact .idle cancel none
      rw [if_neg concluded] at done
      split at done
      · cases done
      split at done
      · split at done
        · cases done
        · split at done <;> cases done
      · split at done <;> cases done

/-- What a finished execution is advised: it is done, or a cancelled attempt that was judged later is reviewed by hand. -/
theorem finished_advice (finished : Finished e.snapshot) (advised : e.directive now = .ok directive) :
    directive = .done ∨ (e.snapshot.cancelRequested = true ∧ directive = .manualReview) := by
  unfold Execution.directive at advised
  dsimp only at advised
  split at advised
  · cases advised
  have advised := Except.ok.inj advised
  unfold Finished at finished
  cases attempt : e.snapshot.attempt with
  | none =>
    rw [attempt] at finished advised
    dsimp only at finished advised
    rw [if_pos finished] at advised
    exact .inl advised.symm
  | some a =>
    rw [attempt] at finished advised
    dsimp only at finished advised
    obtain ⟨concluded, ended⟩ := finished
    obtain ⟨t, termination⟩ := Option.isSome_iff_exists.mp concluded
    rw [termination] at advised
    dsimp only at advised
    cases ended with
    | satisfied effect =>
      rw [if_pos (.inl effect)] at advised
      exact .inl advised.symm
    | idle cancel none =>
      rw [if_pos (.inr ⟨cancel, none⟩)] at advised
      exact .inl advised.symm
    | judged cancel assessed =>
      split at advised
      · exact .inl advised.symm
      · rename_i open_
        have effective : AttemptSnapshot.noEffect a = false := by
          rw [← Bool.not_eq_true]
          exact fun none => open_ (.inr ⟨cancel, none⟩)
        rw [effective] at advised
        simp at advised
        exact .inr ⟨cancel, advised.symm⟩

theorem updates_ended {input : Input} {a a' : AttemptSnapshot} {cancelled : Bool} (updates : Updates e input now a a')
    (concluded : a.termination.isSome = true) (ended : Ended cancelled a) : a'.termination.isSome = true ∧ Ended cancelled a' := by
  have same : a'.termination = a.termination → a'.assessment = a.assessment → a'.termination.isSome = true ∧ Ended cancelled a' := by
    intro termination assessment
    have effect : AttemptSnapshot.effectAssessment a' = AttemptSnapshot.effectAssessment a := by
      unfold AttemptSnapshot.effectAssessment
      rw [assessment]
    have idle : AttemptSnapshot.noEffect a' = AttemptSnapshot.noEffect a := by
      unfold AttemptSnapshot.noEffect
      rw [effect, termination]
    refine ⟨termination ▸ concluded, ?_⟩
    cases ended with
    | satisfied found => exact .satisfied (effect ▸ found)
    | idle cancel none => exact .idle cancel (idle ▸ none)
    | judged cancel assessed => exact .judged cancel (effect ▸ assessed)
  cases updates with
  | kept => exact ⟨concluded, ended⟩
  | dispatched | uncertain | unconfirmed | stopped | counted => exact same rfl rfl
  | ended observed running =>
    rw [running] at concluded
    cases concluded
  | @assessed o t observed found effect ordered revisable =>
    refine ⟨concluded, ?_⟩
    have judged : (AttemptSnapshot.effectAssessment { a with assessment := some o }).isSome = true := by
      unfold AttemptSnapshot.effectAssessment
      dsimp only
      cases observation : o.observation with
      | effect assessment => rfl
      | _ =>
        rw [observation] at effect
        cases effect
    cases ended with
    | idle cancel => exact .judged cancel judged
    | judged cancel => exact .judged cancel judged
    | satisfied before =>
      -- A satisfied effect is settled, so nothing is recorded over it.
      exfalso
      unfold AttemptSnapshot.effectAssessment at before
      cases assessment : a.assessment with
      | none =>
        rw [assessment] at before
        cases before
      | some p =>
        rw [assessment] at before
        dsimp only at before
        have settled := (revisable p assessment).2
        split at before
        · rename_i observation
          cases before
          rw [observation] at settled
          cases settled
        · cases before

/-- A finished execution stays finished, and no attempt begins. -/
theorem step_finished (step : Step e label e') (finished : Finished e.snapshot) : Finished e'.snapshot ∧ label.begun = none := by
  cases step with
  | unchanged | rejected => exact ⟨finished, rfl⟩
  | restored stored =>
    obtain ⟨-, snapshot, -⟩ := restore_ok stored
    exact ⟨snapshot ▸ finished, rfl⟩
  | @applied input now ev offer evaluated offered =>
    obtain ⟨directive, next, advised, advances, -, stored⟩ := evaluateInput_advances evaluated offered
    have barred : ¬(directive = .ready ∨ directive = .retryEligible) := by
      rcases finished_advice finished advised with rfl | ⟨-, rfl⟩ <;> simp
    have quiet : (Label.applied input.record now).begun = none := by
      obtain ⟨directive', snapshot, advised', applies, -⟩ := (evaluateInput_transition evaluated offered).2.2.applied
      cases advised.symm.trans advised'
      cases applies with
      | @prepared event _ command =>
        rcases event with ⟨id, revision, _⟩
        rcases command with rfl | rfl <;> rfl
      | begun _ eligible => exact absurd eligible barred
      | @cancelled event command | @recovered event command =>
        rcases event with ⟨id, revision, _⟩
        cases command
        rfl
      | @updated input _ _ _ _ other =>
        rcases input with ⟨id, revision, command⟩ | event
        · cases command with
          | beginAttempt attemptId runner mode => exact absurd rfl ((other _ rfl).2 attemptId runner mode)
          | _ => rfl
        · rfl
    refine ⟨?_, quiet⟩
    rw [stored]
    unfold Finished committed at *
    cases advances with
    | prepared preparation idle open_ =>
      rw [idle] at finished
      rw [open_] at finished
      cases finished
    | begun source command eligible => exact absurd eligible barred
    | cancelled =>
      dsimp only
      cases attempt : e.snapshot.attempt with
      | none => rfl
      | some a =>
        rw [attempt] at finished
        obtain ⟨concluded, ended⟩ := finished
        refine ⟨concluded, ?_⟩
        cases ended with
        | satisfied effect => exact .satisfied effect
        | idle cancel none => exact .idle rfl none
        | judged cancel assessed => exact .judged rfl assessed
    | recovered => exact finished
    | updated found updates =>
      rw [found] at finished
      exact updates_ended updates finished.1 finished.2

/-- A done execution is final: no attempt begins any more, at whatever times and with whatever inputs, and from then on the
advice is that it is done, or that a cancelled attempt which was judged later is reviewed by hand. -/
theorem done_final (done : e.directive now = .ok .done) (run : Runs Step e later e') : begins later = [] ∧
    ∀ now directive, e'.directive now = .ok directive → directive = .done ∨
      (e'.snapshot.cancelRequested = true ∧ directive = .manualReview) := by
  have kept : Finished e'.snapshot ∧ begins later = [] := by
    refine run.history (fun labels e' => Finished e'.snapshot ∧ begins labels = []) ⟨finished_of_done done, rfl⟩ ?_
    rintro labels f label g ⟨finished, none⟩ step
    obtain ⟨further, silent⟩ := step_finished step finished
    refine ⟨further, ?_⟩
    rw [begins_append, none, silent]
    rfl
  exact ⟨kept.2, fun now directive => finished_advice kept.1⟩

section Sample

def cancelled : List (Input × Nat) := [commandInput "event-0" (.refl true) 0 .cancel 1]

def recovered : List (Input × Nat) := [commandInput "event-1" (.refl true) 1 .recover 2]

/-- An execution that is cancelled before its first attempt is done, also after a recovery. -/
theorem done_final_sample : ∃ e e' : Execution, e.directive 1 = .ok .done ∧ e'.snapshot.revision = 2 ∧
    begins (recovered.map fun input => .applied input.1.record input.2) = [] ∧
    ∀ now directive, e'.directive now = .ok directive → directive = .done ∨
      (e'.snapshot.cancelRequested = true ∧ directive = .manualReview) := by
  have computed : ((Execution.create processPlan 0 processLimits).toOption.bind fun start => (advanceAll start cancelled).bind fun e =>
      (advanceAll e recovered).map fun e' => ((e.directive 1).toOption, e'.snapshot.revision)) = some (some .done, 2) := by
    decide +kernel
  obtain ⟨start, e, e', -, -, rest, before, after⟩ :=
    computed_runs _ _ (fun e => (e.directive 1).toOption) (·.snapshot.revision) computed
  have done := toOption_ok before
  exact ⟨e, e', done, after, done_final done rest⟩

end Sample

end RssMdmAgent.LifecycleEnds
