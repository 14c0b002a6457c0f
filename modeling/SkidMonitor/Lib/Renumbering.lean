import Mathlib

/-! Numbers given out in increasing order, and other numbers given out in their place. -/
namespace Renumbering

/-- A renaming of the numbers below `bound` that keeps their order. Numbers up to `last` have been
given out before and stay; those in `drawn` stay apart from all before them. -/
structure Renames (last bound : ℤ) (drawn : ℤ → Prop) (f : ℤ → ℤ) : Prop where
  mono : Monotone f
  strict : ∀ {c x}, drawn c → x < c → f x < f c
  old : ∀ {x}, x ≤ last → f x = x
  bounded : ∀ {x}, x < bound → f x < bound
  beyond : ∀ {x}, bound ≤ x → f x = x

variable {last bound : ℤ} {drawn : ℤ → Prop} {f g : ℤ → ℤ}

theorem Renames.lt_iff (hf : Renames last bound drawn f) {c x : ℤ} (hc : c ≤ last ∨ drawn c) :
    f x < f c ↔ x < c := by
  constructor
  · exact fun h => hf.mono.reflect_lt h
  · intro h
    rcases hc with hc | hc
    · rw [hf.old hc, hf.old (h.le.trans hc)]
      exact h
    · exact hf.strict hc h

theorem Renames.nonneg_iff (hf : Renames last bound drawn f) (hlast : 0 ≤ last) (x : ℤ) :
    0 ≤ f x ↔ 0 ≤ x := by
  have hzero : f 0 = 0 := hf.old hlast
  constructor
  · intro h
    by_contra hneg
    have := hf.old (x := x) (by omega)
    omega
  · intro h
    have := hf.mono h
    omega

theorem Renames.lt_bound_iff (hf : Renames last bound drawn f) (x : ℤ) :
    f x < bound ↔ x < bound := by
  constructor
  · intro h
    by_contra hge
    have := hf.beyond (x := x) (by omega)
    omega
  · exact hf.bounded

/-- Numbers that may be given out in place of those drawn. -/
structure Redraws (last bound : ℤ) (drawn : ℤ → Prop) (g : ℤ → ℤ) : Prop where
  increasing : ∀ {c c'}, drawn c → drawn c' → c < c' → g c < g c'
  new : ∀ {c}, drawn c → last < g c
  bounded : ∀ {c}, drawn c → g c < bound

/-- The numbers given out in place of those up to `x`. -/
def handed (last : ℤ) (drawn : ℤ → Prop) (g : ℤ → ℤ) (x : ℤ) : Set ℤ :=
  insert last (Set.image g {c | drawn c ∧ c ≤ x})

theorem handed_nonempty (x : ℤ) : (handed last drawn g x).Nonempty := ⟨last, Set.mem_insert _ _⟩

theorem handed_bddAbove (hg : Redraws last bound drawn g) (x : ℤ) :
    BddAbove (handed last drawn g x) := by
  refine ⟨max last (bound), ?_⟩
  rintro y (rfl | ⟨c, ⟨hc, _⟩, rfl⟩)
  · exact le_max_left _ _
  · exact (hg.bounded hc).le.trans (le_max_right _ _)

theorem sSup_handed_mem (hg : Redraws last bound drawn g) (x : ℤ) :
    sSup (handed last drawn g x) ∈ handed last drawn g x :=
  Int.csSup_mem (handed_nonempty x) (handed_bddAbove hg x)

open Classical in
/-- What is given out in place of the numbers drawn extends to a renaming. -/
theorem exists_renames (hg : Redraws last bound drawn g)
    (hdrawn : ∀ c, drawn c → last < c ∧ c < bound) (hlast : last < bound) :
    ∃ f, Renames last bound drawn f ∧ ∀ c, drawn c → f c = g c := by
  let f : ℤ → ℤ := fun x =>
    if x ≤ last then x else if bound ≤ x then x else sSup (handed last drawn g x)
  have hmid : ∀ {x}, last < x → x < bound → f x = sSup (handed last drawn g x) := by
    intro x hlo hhi
    simp only [f, if_neg (not_le.mpr hlo), if_neg (not_le.mpr hhi)]
  have hold : ∀ {x}, x ≤ last → f x = x := fun hx => if_pos hx
  have hbeyond : ∀ {x}, bound ≤ x → f x = x := by
    intro x hx
    simp only [f, if_neg (not_le.mpr (hlast.trans_le hx)), if_pos hx]
  have hlow : ∀ x, last ≤ sSup (handed last drawn g x) := fun x =>
    le_csSup (handed_bddAbove hg x) (Set.mem_insert _ _)
  have hhigh : ∀ x, sSup (handed last drawn g x) < bound := by
    intro x
    rcases sSup_handed_mem hg x with h | ⟨c, ⟨hc, _⟩, h⟩
    · rw [h]
      exact hlast
    · rw [← h]
      exact hg.bounded hc
  have heq : ∀ c, drawn c → f c = g c := by
    intro c hc
    rw [hmid (hdrawn c hc).1 (hdrawn c hc).2]
    apply le_antisymm
    · rcases sSup_handed_mem hg c with h | ⟨c', ⟨hc', hle⟩, h⟩
      · rw [h]
        exact (hg.new hc).le
      · rw [← h]
        rcases hle.lt_or_eq with hlt | rfl
        · exact (hg.increasing hc' hc hlt).le
        · exact le_refl _
    · exact le_csSup (handed_bddAbove hg c) (Or.inr ⟨c, ⟨hc, le_refl c⟩, rfl⟩)
  have hbounded : ∀ {x}, x < bound → f x < bound := by
    intro x hx
    by_cases hlo : x ≤ last
    · rw [hold hlo]
      exact hx
    · rw [hmid (not_le.mp hlo) hx]
      exact hhigh x
  have hmono : Monotone f := by
    intro x y hxy
    by_cases hx : x ≤ last
    · rw [hold hx]
      by_cases hy : y ≤ last
      · rw [hold hy]
        exact hxy
      · by_cases hy' : y < bound
        · rw [hmid (not_le.mp hy) hy']
          exact hx.trans (hlow y)
        · rw [hbeyond (not_lt.mp hy')]
          exact hxy
    · by_cases hy : y < bound
      · rw [hmid (not_le.mp hx) (hxy.trans_lt hy), hmid ((not_le.mp hx).trans_le hxy) hy]
        refine csSup_le_csSup (handed_bddAbove hg y) (handed_nonempty x) ?_
        exact Set.insert_subset_insert (Set.image_mono fun c hc => ⟨hc.1, hc.2.trans hxy⟩)
      · rw [hbeyond (not_lt.mp hy)]
        by_cases hx' : x < bound
        · exact (hbounded hx').le.trans (not_lt.mp hy)
        · rw [hbeyond (not_lt.mp hx')]
          exact hxy
  refine ⟨f, ⟨hmono, ?_, hold, hbounded, hbeyond⟩, heq⟩
  intro c x hc hx
  rw [heq c hc]
  by_cases hlo : x ≤ last
  · rw [hold hlo]
    exact hlo.trans_lt (hg.new hc)
  · rw [hmid (not_le.mp hlo) (hx.trans (hdrawn c hc).2)]
    rcases sSup_handed_mem hg x with h | ⟨c', ⟨hc', hle⟩, h⟩
    · rw [h]
      exact hg.new hc
    · rw [← h]
      exact hg.increasing hc' hc (hle.trans_lt hx)

end Renumbering
