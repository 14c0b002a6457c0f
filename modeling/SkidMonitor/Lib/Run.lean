import Mathlib

/-! Finite runs of a labelled step function. Every choice is part of the label, so
a run is determined by its first state and its labels, and can be replayed. -/
namespace Runs

open List

variable {σ ℓ : Type*} {step : σ → ℓ → Option σ} {s t u : σ} {a : ℓ} {as bs : List ℓ}

/-- The state after a list of labels, if each of them is enabled in its turn. -/
def run (step : σ → ℓ → Option σ) : σ → List ℓ → Option σ
  | s, [] => some s
  | s, a :: as => (step s a).bind (run step · as)

/-- A state some run leads to from a state satisfying `init`. -/
def Reachable (step : σ → ℓ → Option σ) (init : σ → Prop) (t : σ) : Prop :=
  ∃ s as, init s ∧ run step s as = some t

@[simp] theorem run_nil : run step s [] = some s := rfl

theorem run_cons : run step s (a :: as) = some t ↔
    ∃ u, step s a = some u ∧ run step u as = some t :=
  Option.bind_eq_some_iff

theorem run_append : run step s (as ++ bs) = some t ↔
    ∃ u, run step s as = some u ∧ run step u bs = some t := by
  induction as generalizing s with
  | nil => simp
  | cons a as ih =>
    simp only [cons_append, run_cons, ih]
    constructor
    · rintro ⟨v, hv, u, hu, ht⟩
      exact ⟨u, ⟨v, hv, hu⟩, ht⟩
    · rintro ⟨u, ⟨v, hv, hu⟩, ht⟩
      exact ⟨v, hv, u, hu, ht⟩

/-- What every step preserves holds along every run. -/
theorem run_invariant {I : σ → Prop} (hstep : ∀ s a t, I s → step s a = some t → I t)
    (hr : run step s as = some t) (hs : I s) : I t := by
  induction as generalizing s with
  | nil =>
    cases hr
    exact hs
  | cons a as ih =>
    obtain ⟨u, hu, ht⟩ := run_cons.mp hr
    exact ih ht (hstep s a u hs hu)

/-- An invariant that may speak of the labels behind it. -/
theorem run_history {I : List ℓ → σ → Prop} (hnil : I [] s)
    (hstep : ∀ as u a v, run step s as = some u → I as u → step u a = some v → I (as ++ [a]) v)
    (hr : run step s as = some t) : I as t := by
  induction as using List.reverseRecOn generalizing t with
  | nil =>
    cases hr
    exact hnil
  | append_singleton as a ih =>
    obtain ⟨u, hu, ht⟩ := run_append.mp hr
    obtain ⟨v, hv, hnil⟩ := run_cons.mp ht
    cases hnil
    exact hstep as u a _ hu (ih hu) hv

theorem reachable_invariant {I init : σ → Prop} (hinit : ∀ s, init s → I s)
    (hstep : ∀ s a t, I s → step s a = some t → I t)
    (h : Reachable step init t) : I t := by
  obtain ⟨s, as, hs, hr⟩ := h
  exact run_invariant hstep hr (hinit s hs)

theorem reachable_run {init : σ → Prop} (h : Reachable step init s)
    (hr : run step s as = some t) : Reachable step init t := by
  obtain ⟨s₀, bs, hs, hb⟩ := h
  exact ⟨s₀, bs ++ as, hs, run_append.mpr ⟨s, hb, hr⟩⟩

theorem reachable_step {init : σ → Prop} (h : Reachable step init s) (hs : step s a = some t) :
    Reachable step init t :=
  reachable_run h (run_cons.mpr ⟨t, hs, run_nil⟩)

/-- A reflexive and transitive relation that holds across each step, in states
satisfying an invariant, holds across each run. -/
theorem run_rel {I : σ → Prop} {R : σ → σ → Prop} (hrefl : ∀ s, R s s)
    (htrans : ∀ s t u, R s t → R t u → R s u)
    (hinv : ∀ s a t, I s → step s a = some t → I t)
    (hstep : ∀ s a t, I s → step s a = some t → R s t)
    (hs : I s) (hr : run step s as = some t) : R s t := by
  induction as generalizing s with
  | nil =>
    cases hr
    exact hrefl _
  | cons a as ih =>
    obtain ⟨u, hu, ht⟩ := run_cons.mp hr
    exact htrans s u t (hstep s a u hs hu) (ih (hinv s a u hs hu) ht)

/-- If a predicate turns false along a run, one of its steps made it false. -/
theorem run_change {P : σ → Prop} (hr : run step s as = some t) (hs : P s) (ht : ¬ P t) :
    ∃ pre a post u v, as = pre ++ a :: post ∧ run step s pre = some u ∧ step u a = some v ∧
      run step v post = some t ∧ P u ∧ ¬ P v := by
  induction as generalizing s with
  | nil =>
    cases hr
    exact (ht hs).elim
  | cons a as ih =>
    obtain ⟨u, hu, hrest⟩ := run_cons.mp hr
    by_cases hp : P u
    · obtain ⟨pre, b, post, v, w, rfl, hpre, hstep, hpost, hv, hw⟩ := ih hrest hp
      exact ⟨a :: pre, b, post, v, w, rfl, run_cons.mpr ⟨u, hu, hpre⟩, hstep, hpost, hv, hw⟩
    · exact ⟨[], a, as, s, u, rfl, rfl, hu, hrest, hs, hp⟩

/-- Every state the run passes through satisfies `P`. -/
def Along (step : σ → ℓ → Option σ) (P : σ → Prop) (s : σ) (as : List ℓ) : Prop :=
  ∀ pre post u, as = pre ++ post → run step s pre = some u → P u

theorem along_head {P : σ → Prop} (h : Along step P s as) : P s := h [] as s rfl rfl

theorem along_tail {P : σ → Prop} (h : Along step P s (a :: as)) (hs : step s a = some u) :
    Along step P u as := by
  rintro pre post v rfl hv
  exact h (a :: pre) post v rfl (run_cons.mpr ⟨u, hs, hv⟩)

theorem along_append {P : σ → Prop} (h : Along step P s (as ++ bs)) : Along step P s as := by
  rintro pre post u rfl hu
  exact h pre (post ++ bs) u (append_assoc _ _ _) hu

theorem along_nil {P : σ → Prop} (h : P s) : Along step P s [] := by
  intro pre post u he hu
  obtain ⟨rfl, _⟩ := append_eq_nil_iff.mp he.symm
  cases hu
  exact h

theorem along_cons {P : σ → Prop} (h : P s) (hrest : ∀ u, step s a = some u → Along step P u as) :
    Along step P s (a :: as) := by
  intro pre post u he hu
  cases pre with
  | nil =>
    cases hu
    exact h
  | cons b pre =>
    obtain ⟨rfl, hpost⟩ := List.cons.inj he
    obtain ⟨v, hv, hu⟩ := run_cons.mp hu
    exact hrest v hv pre post u hpost hu

theorem along_concat {P : σ → Prop} (h : Along step P s as) (hr : run step s as = some t)
    (hs : step t a = some u) (hu : P u) : Along step P s (as ++ [a]) := by
  intro pre post v he hv
  rcases eq_nil_or_concat post with rfl | ⟨post', b, rfl⟩
  · rw [append_nil] at he
    subst he
    have hrun := run_append.mpr ⟨t, hr, run_cons.mpr ⟨u, hs, run_nil⟩⟩
    rw [hv] at hrun
    cases hrun
    exact hu
  · rw [concat_eq_append, ← append_assoc] at he
    exact h pre post' v (append_inj' he rfl).1 hv

theorem along_mono {P Q : σ → Prop} (h : Along step P s as)
    (hPQ : ∀ pre u, run step s pre = some u → P u → Q u) : Along step Q s as :=
  fun pre post u he hu => hPQ pre u hu (h pre post u he hu)

/-- Every step of the run meets `C`, in the state it is made in. -/
def Meets (step : σ → ℓ → Option σ) (C : σ → ℓ → Prop) (s : σ) (as : List ℓ) : Prop :=
  ∀ pre a post u, as = pre ++ a :: post → run step s pre = some u → C u a

theorem meets_nil {C : σ → ℓ → Prop} : Meets step C s [] := by
  intro pre a post u h
  simp at h

theorem meets_cons {C : σ → ℓ → Prop} (hs : step s a = some u) :
    Meets step C s (a :: as) ↔ C s a ∧ Meets step C u as := by
  constructor
  · intro h
    refine ⟨h [] a as s rfl rfl, ?_⟩
    rintro pre b post v rfl hv
    exact h (a :: pre) b post v rfl (run_cons.mpr ⟨u, hs, hv⟩)
  · rintro ⟨ha, h⟩ pre b post v heq hv
    cases pre with
    | nil =>
      obtain ⟨rfl, _⟩ := List.cons.inj heq
      cases hv
      exact ha
    | cons c pre =>
      obtain ⟨rfl, htail⟩ := List.cons.inj heq
      obtain ⟨w, hw, hv⟩ := run_cons.mp hv
      rw [hs] at hw
      cases hw
      exact h pre b post v htail hv

/-- What the steps that meet `C` preserve holds along every run in which all steps do. -/
theorem run_meets {I : σ → Prop} {C : σ → ℓ → Prop}
    (hstep : ∀ s a t, I s → C s a → step s a = some t → I t) (hmeets : Meets step C s as)
    (hr : run step s as = some t) (hs : I s) : I t := by
  induction as generalizing s with
  | nil =>
    cases hr
    exact hs
  | cons a as ih =>
    obtain ⟨u, hu, ht⟩ := run_cons.mp hr
    obtain ⟨ha, hrest⟩ := (meets_cons hu).mp hmeets
    exact ih hrest ht (hstep s a u hs ha hu)

/-- If it is just the steps that meet `C` that preserve `P`, then `P` holds along a run just if all
its steps do. -/
theorem along_iff_meets {P : σ → Prop} {C : σ → ℓ → Prop}
    (hstep : ∀ s a t, P s → step s a = some t → (P t ↔ C s a)) (hs : P s)
    (hr : run step s as = some t) : Along step P s as ↔ Meets step C s as := by
  induction as generalizing s with
  | nil => exact iff_of_true (along_nil hs) meets_nil
  | cons a as ih =>
    obtain ⟨u, hu, ht⟩ := run_cons.mp hr
    rw [meets_cons hu, ← hstep s a u hs hu]
    constructor
    · intro h
      have hrest := along_tail h hu
      exact ⟨along_head hrest, (ih (along_head hrest) ht).mp hrest⟩
    · rintro ⟨hPu, hrest⟩
      refine along_cons hs fun v hv => ?_
      rw [hu] at hv
      cases hv
      exact (ih hPu ht).mpr hrest

/-- A budget that no step raises, and every step of a kind lowers, bounds the steps of that kind. -/
theorem run_budget {I : σ → Prop} {p : ℓ → Bool} {budget : σ → ℕ}
    (hinv : ∀ s a t, I s → step s a = some t → I t)
    (hstep : ∀ s a t, I s → step s a = some t → budget t + (if p a then 1 else 0) ≤ budget s)
    (hs : I s) (hr : run step s as = some t) : budget t + as.countP p ≤ budget s := by
  induction as generalizing s with
  | nil =>
    cases hr
    exact Nat.le_refl _
  | cons a as ih =>
    obtain ⟨u, hu, ht⟩ := run_cons.mp hr
    have hfirst := hstep s a u hs hu
    have hrest := ih (hinv s a u hs hu) ht
    rw [countP_cons]
    omega

end Runs
