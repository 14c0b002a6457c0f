import Mathlib

/-! Calls of a database client: trees of statements, whose continuations read the
answers, that end in a value or an error. Nothing here says what a statement means. -/

/-- `S` is the type of statements, and `R s` the type of the answers to `s`. -/
inductive Prog (S : Type) (R : S → Type) (ε α : Type) where
  | ok (a : α)
  | err (e : ε)
  | query (s : S) (k : R s → Prog S R ε α)

namespace Prog

variable {S : Type} {R : S → Type} {ε α β G : Type}

def bind : Prog S R ε α → (α → Prog S R ε β) → Prog S R ε β
  | ok a, f => f a
  | err e, _ => err e
  | query s k, f => query s fun r => (k r).bind f

instance : Monad (Prog S R ε) where
  pure := ok
  bind := bind

instance : MonadExcept ε (Prog S R ε) where
  throw := err
  -- No modelled call recovers from an error, so a handler is never reached.
  tryCatch p _ := p

/-- A pure check inside a call: its error ends the call. -/
def ofExcept : Except ε α → Prog S R ε α
  | .ok a => ok a
  | .error e => err e

instance : MonadLift (Except ε) (Prog S R ε) := ⟨ofExcept⟩

/-- One statement, returning its answer. -/
def send (s : S) : Prog S R ε (R s) := query s ok

theorem bind_eq (p : Prog S R ε α) (f : α → Prog S R ε β) : p.bind f = p >>= f := rfl
@[simp] theorem ok_bind (a : α) (f : α → Prog S R ε β) : (ok a >>= f) = f a := rfl
@[simp] theorem err_bind (e : ε) (f : α → Prog S R ε β) : (err e >>= f) = err e := rfl
@[simp] theorem send_bind (s : S) (f : R s → Prog S R ε β) : (send s >>= f) = query s f := rfl
@[simp] theorem query_bind (s : S) (k : R s → Prog S R ε α) (f : α → Prog S R ε β) :
    (query s k >>= f) = query s fun r => k r >>= f := rfl
@[simp] theorem ofExcept_ok (a : α) : (ofExcept (.ok a) : Prog S R ε α) = ok a := rfl
@[simp] theorem ofExcept_error (e : ε) : (ofExcept (.error e) : Prog S R ε α) = err e := rfl
@[simp] theorem liftM_eq (x : Except ε α) : (liftM x : Prog S R ε α) = ofExcept x := rfl
@[simp] theorem map_eq (f : α → β) (p : Prog S R ε α) : f <$> p = p >>= fun a => ok (f a) := rfl

theorem bind_assoc {γ : Type} (p : Prog S R ε α) (f : α → Prog S R ε β) (g : β → Prog S R ε γ) :
    p >>= f >>= g = p >>= fun a => f a >>= g := by
  induction p with
  | ok | err => rfl
  | query s k ih => exact congrArg (query s) (funext ih)

/-- Every statement the call can send, whatever the answers, satisfies `P`. -/
def All (P : S → Prop) : Prog S R ε α → Prop
  | ok _ => True
  | err _ => True
  | query s k => P s ∧ ∀ r, (k r).All P

theorem All.bind {P : S → Prop} {p : Prog S R ε α} {f : α → Prog S R ε β}
    (hp : p.All P) (hf : ∀ a, (f a).All P) : (p >>= f).All P := by
  induction p with
  | ok a => exact hf a
  | err e => trivial
  | query s k ih => exact ⟨hp.1, fun r => ih r (hp.2 r)⟩

theorem All.mono {P Q : S → Prop} {p : Prog S R ε α} (h : ∀ s, P s → Q s) (hp : p.All P) :
    p.All Q := by
  induction p with
  | ok | err => trivial
  | query s k ih => exact ⟨h s hp.1, fun r => ih r (hp.2 r)⟩

theorem all_ofExcept {P : S → Prop} (x : Except ε α) : (ofExcept x : Prog S R ε α).All P := by
  cases x <;> trivial

theorem all_check {P : S → Prop} {x : Except ε α} {f : α → Prog S R ε β} (hf : ∀ a, (f a).All P) :
    (ofExcept x >>= f).All P := (all_ofExcept x).bind hf

/-- No path through the call sends more than `n` statements of the kind `d`. -/
def AtMost (d : S → Bool) : Prog S R ε α → ℕ → Prop
  | ok _, _ => True
  | err _, _ => True
  | query s k, n => (d s = true → 0 < n) ∧ ∀ r, (k r).AtMost d (if d s then n - 1 else n)

theorem atMost_of_all {d : S → Bool} {p : Prog S R ε α} (h : p.All fun s => d s = false) (n : ℕ) :
    p.AtMost d n := by
  induction p with
  | ok | err => trivial
  | query s k ih =>
    obtain ⟨hs, hk⟩ := h
    exact ⟨by simp [hs], fun r => by simpa [hs] using ih r (hk r)⟩

theorem All.bind_atMost {d : S → Bool} {p : Prog S R ε α} {f : α → Prog S R ε β} {n : ℕ}
    (hp : p.All fun s => d s = false) (hf : ∀ a, (f a).AtMost d n) : (p >>= f).AtMost d n := by
  induction p with
  | ok a => exact hf a
  | err e => trivial
  | query s k ih =>
    obtain ⟨hs, hk⟩ := hp
    refine ⟨by simp [hs], fun r => ?_⟩
    simp only [hs, Bool.false_eq_true, if_false]
    exact ih r (hk r)

theorem AtMost.map {d : S → Bool} {p : Prog S R ε α} {n : ℕ} (hp : p.AtMost d n) (f : α → β) :
    (f <$> p).AtMost d n := by
  induction p generalizing n with
  | ok | err => trivial
  | query s k ih => exact ⟨hp.1, fun r => ih r (hp.2 r)⟩

/-- The call moves through the stages of a protocol: in stage `g` each answer `r` to
its next statement `s` leads to a stage allowed by `Move g s r`, and it ends only as
`Fin` allows in its last stage. -/
def Follows (Move : G → (s : S) → R s → G → Prop) (Fin : G → Except ε α → Prop) :
    Prog S R ε α → G → Prop
  | ok a, g => Fin g (.ok a)
  | err e, g => Fin g (.error e)
  | query s k, g => ∀ r, ∃ g', Move g s r g' ∧ (k r).Follows Move Fin g'

section
variable {Move : G → (s : S) → R s → G → Prop} {Fin : G → Except ε α → Prop} {g : G}

@[simp] theorem follows_query (s : S) (k : R s → Prog S R ε α) :
    (query s k).Follows Move Fin g ↔
      ∀ r, ∃ g', Move g s r g' ∧ (k r).Follows Move Fin g' := .rfl

/-- A check leaves a call in its stage, or ends it there. -/
theorem follows_check {x : Except ε β} {f : β → Prog S R ε α}
    (herr : ∀ e, x = .error e → Fin g (.error e))
    (hok : ∀ b, x = .ok b → (f b).Follows Move Fin g) :
    (ofExcept x >>= f).Follows Move Fin g := by
  cases x with
  | error e => exact herr e rfl
  | ok b => exact hok b rfl

end

end Prog
