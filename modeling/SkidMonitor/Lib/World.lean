import SkidMonitor.Lib.Prog

/-! Programs run against a world that others change meanwhile. Every choice of the world
is part of the events of an execution, so that an execution can be replayed. -/

/-- What happens while a program runs: others act, or its next operation is performed. -/
inductive Event (μ χ : Type) where
  | disturb (m : μ)
  | perform (c : χ)

/-- How operations `s : S` act on a world `σ`, by a choice `c : χ` of the world, and how
others change it. A choice that `s` does not leave open gives no answer. -/
structure World (S : Type) (R : S → Type) (χ μ σ : Type) where
  perform : (s : S) → χ → σ → Option (R s × σ)
  disturb : μ → σ → σ

namespace World

variable {S : Type} {R : S → Type} {χ μ σ ε α : Type}

/-- The result and the world left by a program that the events bring to its end. -/
def execute (W : World S R χ μ σ) :
    List (Event μ χ) → Prog S R ε α → σ → Option (Except ε α × σ)
  | [], .ok a, w => some (.ok a, w)
  | [], .err e, w => some (.error e, w)
  | [], .query _ _, _ => none
  | .disturb m :: es, p, w => W.execute es p (W.disturb m w)
  | .perform c :: es, .query s k, w => do
    let (r, w') ← W.perform s c w
    W.execute es (k r) w'
  | .perform _ :: _, _, _ => none

/-- The world after changes by others. -/
def after (W : World S R χ μ σ) (ms : List μ) (w : σ) : σ := ms.foldl (fun w m => W.disturb m w) w

variable {W : World S R χ μ σ} {es : List (Event μ χ)} {w w' : σ} {out : Except ε α}

/-- A program that has ended only waits. -/
theorem execute_ofExcept {res : Except ε α} (h : W.execute es (.ofExcept res) w = some (out, w')) :
    ∃ ms, es = ms.map .disturb ∧ out = res ∧ w' = W.after ms w := by
  induction es generalizing w with
  | nil =>
    cases res <;> cases h <;> exact ⟨[], rfl, rfl, rfl⟩
  | cons e es ih =>
    cases e with
    | disturb m =>
      obtain ⟨ms, rfl, hout, hw⟩ := ih h
      exact ⟨m :: ms, rfl, hout, hw⟩
    | perform c => cases res <;> cases h

/-- An execution splits at the first operation of the program. -/
theorem execute_query {s : S} {k : R s → Prog S R ε α}
    (h : W.execute es (.query s k) w = some (out, w')) :
    ∃ ms c rest r v, es = ms.map .disturb ++ .perform c :: rest ∧
      W.perform s c (W.after ms w) = some (r, v) ∧ W.execute rest (k r) v = some (out, w') := by
  induction es generalizing w with
  | nil => cases h
  | cons e es ih =>
    cases e with
    | disturb m =>
      obtain ⟨ms, c, rest, r, v, rfl, hp, hrest⟩ := ih h
      exact ⟨m :: ms, c, rest, r, v, rfl, hp, hrest⟩
    | perform c =>
      obtain ⟨x, hx, hrest⟩ := Option.bind_eq_some_iff.mp h
      exact ⟨[], c, es, x.1, x.2, rfl, hx, hrest⟩

/-- An execution of `p >>= f` first executes `p`, whose error ends it. -/
theorem execute_bind {β : Type} {p : Prog S R ε β} {f : β → Prog S R ε α}
    (h : W.execute es (p >>= f) w = some (out, w')) :
    ∃ e₁ e₂ res v, es = e₁ ++ e₂ ∧ W.execute e₁ p w = some (res, v) ∧
      W.execute e₂ (.ofExcept res >>= f) v = some (out, w') := by
  induction es generalizing p w with
  | nil =>
    cases p with
    | ok b => exact ⟨[], [], .ok b, w, rfl, rfl, h⟩
    | err e => exact ⟨[], [], .error e, w, rfl, rfl, h⟩
    | query s k => cases h
  | cons e es ih =>
    cases e with
    | disturb m =>
      obtain ⟨e₁, e₂, res, v, rfl, hp, hf⟩ := ih h
      exact ⟨.disturb m :: e₁, e₂, res, v, rfl, hp, hf⟩
    | perform c =>
      cases p with
      | ok b => exact ⟨[], _, .ok b, w, rfl, rfl, h⟩
      | err e => exact ⟨[], _, .error e, w, rfl, rfl, h⟩
      | query s k =>
        obtain ⟨⟨r, u⟩, hx, hrest⟩ := Option.bind_eq_some_iff.mp h
        obtain ⟨e₁, e₂, res, v, rfl, hp, hf⟩ := ih hrest
        exact ⟨.perform c :: e₁, e₂, res, v, rfl, Option.bind_eq_some_iff.mpr ⟨_, hx, hp⟩, hf⟩

end World
