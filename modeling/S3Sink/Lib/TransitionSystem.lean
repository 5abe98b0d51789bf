import Mathlib.Data.List.Basic

/-!
# TransitionSystem — labelled transition systems and their histories

A transition system is given by its initial states and a labelled step relation.  A *history* is
the list of labels of a run, **newest first**, so that what is true "since the last event of some
kind" is a structural recursion on the history.

We provide:

* `Run M h s` — some run of `M` with history `h` ends in `s`;
* the invariant rule `Run.invariant`, for predicates that may read the history;
* the simulation rule `Run.simulate`, for a relation that maps each label to zero or one labels;
* the lockstep rule `Run.lockstep`, for systems whose steps and labels are related one to one.
-/

universe u v u' v'

/-- A labelled transition system with states `σ` and labels `ε`. -/
structure TransitionSystem (σ : Type u) (ε : Type v) where
  init : σ → Prop
  step : σ → ε → σ → Prop

namespace TransitionSystem

variable {σ : Type u} {ε : Type v} {σ' : Type u'} {ε' : Type v'}

/-! ## Runs -/

/-- `Run M h s`: a run of `M` from an initial state ends in `s` after the labels of `h`,
the newest label first. -/
inductive Run (M : TransitionSystem σ ε) : List ε → σ → Prop
  | start {s : σ} : M.init s → Run M [] s
  | step {h : List ε} {s s' : σ} {e : ε} : Run M h s → M.step s e s' → Run M (e :: h) s'

namespace Run

variable {M : TransitionSystem σ ε} {h : List ε} {s s' : σ} {e : ε}

theorem cons_iff : Run M (e :: h) s' ↔ ∃ s, Run M h s ∧ M.step s e s' := by
  constructor
  · intro hrun
    cases hrun with
    | step hprev hstep => exact ⟨_, hprev, hstep⟩
  · rintro ⟨s, hprev, hstep⟩
    exact Run.step hprev hstep

/-- The invariant rule: what holds initially and is preserved by every step of a run holds at
the end of every run. -/
theorem invariant {Inv : List ε → σ → Prop}
    (hinit : ∀ s, M.init s → Inv [] s)
    (hstep : ∀ h s e s', Run M h s → Inv h s → M.step s e s' → Inv (e :: h) s')
    (hrun : Run M h s) : Inv h s := by
  induction hrun with
  | start hs => exact hinit _ hs
  | step hprev hs ih => exact hstep _ _ _ _ hprev ih hs

/-- What a run did first is a run. -/
theorem of_suffix {h₀ : List ε} (hrun : Run M h s) (hsuffix : h₀ <:+ h) : ∃ s₀, Run M h₀ s₀ := by
  induction hrun with
  | start hs =>
      rw [List.suffix_nil.1 hsuffix]
      exact ⟨_, Run.start hs⟩
  | step hprev hs ih =>
      rcases List.suffix_cons_iff.1 hsuffix with rfl | hold
      · exact ⟨_, Run.step hprev hs⟩
      · exact ih hold

/-- Every event of a run was a step from the end of the run before it. -/
theorem step_of_mem (hrun : Run M h s) (hmem : e ∈ h) :
    ∃ h₀ s₀ s₁, e :: h₀ <:+ h ∧ Run M h₀ s₀ ∧ M.step s₀ e s₁ := by
  induction hrun with
  | start hs => exact absurd hmem List.not_mem_nil
  | step hprev hs ih =>
      rcases List.mem_cons.1 hmem with heq | hold
      · subst heq
        exact ⟨_, _, _, List.suffix_rfl, hprev, hs⟩
      · obtain ⟨h₀, s₀, s₁, hsuffix, hrun₀, hstep₀⟩ := ih hold
        exact ⟨h₀, s₀, s₁, hsuffix.trans (List.suffix_cons _ _), hrun₀, hstep₀⟩

/-- The simulation rule: a relation `R` between the states that is preserved by every step, where
a label `e` of `M` is matched by the labels `f e` of `N` (at most one), carries runs of `M` to runs
of `N`. -/
theorem simulate {N : TransitionSystem σ' ε'} {R : σ → σ' → Prop} {f : ε → Option ε'}
    (hinit : ∀ s, M.init s → ∃ t, N.init t ∧ R s t)
    (hstep : ∀ s e s' t, M.step s e s' → R s t →
      match f e with
      | none => R s' t
      | some e' => ∃ t', N.step t e' t' ∧ R s' t')
    (hrun : Run M h s) : ∃ t, Run N (h.filterMap f) t ∧ R s t := by
  induction hrun with
  | start hs =>
      obtain ⟨t, ht, hR⟩ := hinit _ hs
      exact ⟨t, Run.start ht, hR⟩
  | @step h s s' e hprev hs ih =>
      obtain ⟨t, hrunN, hR⟩ := ih
      -- the step is matched by one step of the other system, or by none
      have hmatch := hstep s e s' t hs hR
      cases hf : f e with
      | none =>
          rw [hf] at hmatch
          exact ⟨t, by simpa [List.filterMap_cons, hf] using hrunN, hmatch⟩
      | some e' =>
          rw [hf] at hmatch
          obtain ⟨t', hstepN, hR'⟩ := hmatch
          refine ⟨t', ?_, hR'⟩
          simpa [List.filterMap_cons, hf] using Run.step hrunN hstepN

/-- The lockstep rule: every step is matched by a step with a related label.  `P` speaks of the
end of the run, and if it holds there it has held all along. -/
theorem lockstep {N : TransitionSystem σ' ε'} {P : σ → Prop} {R : σ → σ' → Prop}
    {E : ε → ε' → Prop}
    (hinit : ∀ s, M.init s → ∃ t, N.init t ∧ R s t)
    (hback : ∀ s e s', M.step s e s' → P s' → P s)
    (hstep : ∀ s e s' t, M.step s e s' → P s' → R s t →
      ∃ e' t', N.step t e' t' ∧ R s' t' ∧ E e e')
    (hrun : Run M h s) (hs : P s) : ∃ h' t, Run N h' t ∧ R s t ∧ List.Forall₂ E h h' := by
  induction hrun with
  | start hs₀ =>
      obtain ⟨t, ht, hR⟩ := hinit _ hs₀
      exact ⟨[], t, Run.start ht, hR, List.Forall₂.nil⟩
  | step _ hs' ih =>
      obtain ⟨h', t, hrunN, hR, hlabels⟩ := ih (hback _ _ _ hs' hs)
      obtain ⟨e', t', hstepN, hR', he⟩ := hstep _ _ _ t hs' hs hR
      exact ⟨e' :: h', t', Run.step hrunN hstepN, hR', List.Forall₂.cons he hlabels⟩

end Run

end TransitionSystem
