import SkidMonitor.Lib.Table

/-! Computations that fail with an error: what a success says about their parts. -/
namespace Fallible

open List

variable {ε α β : Type}

/-- The value, or this error. -/
def orError (e : ε) : Option α → Except ε α
  | some a => .ok a
  | none => .error e

theorem orError_ok {e : ε} {x : Option α} {a : α} : orError e x = .ok a ↔ x = some a := by
  cases x <;> simp [orError]

theorem ok_bind {a : α} {f : α → Except ε β} : (Except.ok a >>= f) = f a := rfl

theorem exists_ok {x : Except ε α} (h : x.isOk = true) : ∃ a, x = .ok a := by
  cases x with
  | ok a => exact ⟨a, rfl⟩
  | error e => cases h

theorem bind_ok {x : Except ε α} {f : α → Except ε β} {b : β}
    (h : (x >>= f) = .ok b) : ∃ a, x = .ok a ∧ f a = .ok b := by
  cases x with
  | error e => cases h
  | ok a => exact ⟨a, rfl, h⟩

theorem bind_error {x : Except ε α} {f : α → Except ε β} {e : ε}
    (h : (x >>= f) = .error e) : x = .error e ∨ ∃ a, x = .ok a ∧ f a = .error e := by
  cases x with
  | error e' =>
    cases h
    exact Or.inl rfl
  | ok a => exact Or.inr ⟨a, rfl, h⟩

theorem mapError_ok {ε' : Type} {x : Except ε α} {f : ε → ε'} {a : α}
    (h : x.mapError f = .ok a) : x = .ok a := by
  cases x with
  | error e => cases h
  | ok b => exact congrArg Except.ok (Except.ok.inj h)

theorem map_bind {γ : Type} (x : Except ε α) (f : α → Except ε β) (g : β → γ) :
    (x >>= f).map g = x >>= fun a => (f a).map g := by
  cases x <;> rfl

theorem bind_map {γ : Type} (x : Except ε α) (f : β → Except ε γ) (g : α → β) :
    (x.map g >>= f) = x >>= fun a => f (g a) := by
  cases x <;> rfl

theorem mapM_ok {f : α → Except ε β} {as : List α} {bs : List β}
    (h : as.mapM f = .ok bs) : List.Forall₂ (fun a b => f a = .ok b) as bs := by
  induction as generalizing bs with
  | nil =>
    cases h
    exact .nil
  | cons a as ih =>
    rw [mapM_cons] at h
    obtain ⟨b, hb, h⟩ := bind_ok h
    obtain ⟨bs', hbs, h⟩ := bind_ok h
    cases h
    exact .cons hb (ih hbs)

/-- Inputs and results renamed alike. -/
theorem mapM_map {γ δ : Type} {f : α → Except ε β} {f' : γ → Except ε δ} {r : α → γ} {g : β → δ}
    (h : ∀ a, f' (r a) = (f a).map g) (as : List α) :
    (as.map r).mapM f' = (as.mapM f).map (List.map g) := by
  induction as with
  | nil => rfl
  | cons a as ih =>
    rw [map_cons, mapM_cons, mapM_cons, h, ih, bind_map, map_bind]
    simp only [bind_map, map_bind]
    rfl

/-- Two maps that succeed alike, the second without a reason for its failure. -/
theorem mapM_ok_iff {f : α → Except ε β} {g : α → Option β} (h : ∀ a b, f a = .ok b ↔ g a = some b)
    {as : List α} {bs : List β} : as.mapM f = .ok bs ↔ as.mapM g = some bs := by
  induction as generalizing bs with
  | nil => exact ⟨fun h => by cases h; rfl, fun h => by cases h; rfl⟩
  | cons a as ih =>
    rw [mapM_cons, mapM_cons]
    constructor
    · intro hok
      obtain ⟨b, hb, hok⟩ := bind_ok hok
      obtain ⟨bs', hbs, hok⟩ := bind_ok hok
      cases hok
      rw [(h a b).mp hb, ih.mp hbs]
      rfl
    · intro hsome
      obtain ⟨b, hb, hsome⟩ := Option.bind_eq_some_iff.mp hsome
      obtain ⟨bs', hbs, hsome⟩ := Option.bind_eq_some_iff.mp hsome
      cases hsome
      rw [(h a b).mpr hb, ih.mpr hbs]
      rfl

theorem mapM_error {f : α → Except ε β} {as : List α} {e : ε} (h : as.mapM f = .error e) :
    ∃ a ∈ as, f a = .error e := by
  induction as with
  | nil => cases h
  | cons a as ih =>
    rw [mapM_cons] at h
    rcases bind_error h with h | ⟨b, _, h⟩
    · exact ⟨a, mem_cons_self, h⟩
    · rcases bind_error h with h | ⟨bs, _, h⟩
      · obtain ⟨a', ha', h⟩ := ih h
        exact ⟨a', mem_cons_of_mem a ha', h⟩
      · cases h

theorem forM_ok_iff {f : α → Except ε Unit} {as : List α} :
    as.forM f = .ok () ↔ ∀ a ∈ as, f a = .ok () := by
  induction as with
  | nil => exact ⟨fun _ _ h => absurd h not_mem_nil, fun _ => rfl⟩
  | cons a as ih =>
    rw [forall_mem_cons, ← ih]
    change (f a >>= fun _ => as.forM f) = _ ↔ _
    constructor
    · intro h
      obtain ⟨_, ha, has⟩ := bind_ok h
      exact ⟨ha, has⟩
    · rintro ⟨ha, has⟩
      rw [ha]
      exact has

/-- A fold that keeps some of its items and never fails. -/
theorem foldlM_push {γ : Type} {f : List γ → α → Except ε (List γ)} {keep : α → Bool} {g : α → γ}
    {as : List α}
    (h : ∀ a ∈ as, ∀ found, f found a = .ok (if keep a then found ++ [g a] else found))
    (found : List γ) : as.foldlM f found = .ok (found ++ (as.filter keep).map g) := by
  induction as generalizing found with
  | nil => rw [filter_nil, map_nil, append_nil, foldlM_nil]; rfl
  | cons a as ih =>
    obtain ⟨hfirst, hrest⟩ := forall_mem_cons.mp h
    rw [foldlM_cons, hfirst, ok_bind, ih hrest, filter_cons]
    split_ifs <;> simp

end Fallible
