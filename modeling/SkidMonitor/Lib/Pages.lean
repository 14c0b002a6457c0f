import Mathlib

/-! A list read page by page, where each page has a limit on its items and a budget for their
sizes. -/
namespace Pages

open List

variable {α : Type} {size : α → ℕ} {limit budget k : ℕ} {items page : List α}
  {calls : List (ℕ × ℕ)} {pages : List (List α)}

def Fits (size : α → ℕ) (limit budget : ℕ) (page : List α) : Prop :=
  page.length ≤ limit ∧ (page.map size).sum ≤ budget

/-- The longest run of next items that fits, or else the next item alone. -/
structure IsPage (size : α → ℕ) (limit budget : ℕ) (items page : List α) : Prop where
  first : page <+: items
  nonempty : items ≠ [] → page ≠ []
  longest : (Fits size limit budget page ∧
      ∀ run, run <+: items → Fits size limit budget run → run.length ≤ page.length) ∨
    (page.length = 1 ∧ ¬ Fits size limit budget page)

/-- Pages one after the other, each from where the one before it ended. -/
inductive Paged (size : α → ℕ) : List α → List (ℕ × ℕ) → List (List α) → Prop where
  | nil {items : List α} : Paged size items [] []
  | cons {items page rest : List α} {limit budget : ℕ} {calls : List (ℕ × ℕ)}
      {pages : List (List α)} (hpage : IsPage size limit budget items page)
      (hitems : items = page ++ rest) (hrest : Paged size rest calls pages) :
      Paged size items ((limit, budget) :: calls) (page :: pages)

theorem isPage_take (hk : k ≤ limit) (hlen : k ≤ items.length)
    (hpos : items ≠ [] → 1 ≤ k) (hfit : 2 ≤ k → ((items.take k).map size).sum ≤ budget)
    (hmax : ∀ j, j ≤ limit → j ≤ items.length → ((items.take j).map size).sum ≤ budget → j ≤ k) :
    IsPage size limit budget items (items.take k) := by
  have htake : (items.take k).length = k := by
    rw [length_take]
    omega
  refine ⟨⟨_, take_append_drop k items⟩, fun hne => ?_, ?_⟩
  · refine ne_nil_of_length_pos ?_
    have := hpos hne
    omega
  · by_cases hbudget : ((items.take k).map size).sum ≤ budget
    · refine .inl ⟨⟨by omega, hbudget⟩, fun run hrun hfits => ?_⟩
      have heq := prefix_iff_eq_take.mp hrun
      rw [htake]
      exact hmax run.length hfits.1 hrun.length_le (heq ▸ hfits.2)
    · refine .inr ⟨?_, fun hfits => hbudget hfits.2⟩
      have hk0 : k ≠ 0 := by
        rintro rfl
        exact hbudget (by simp)
      have hk2 : ¬ 2 ≤ k := fun h => hbudget (hfit h)
      omega

theorem Paged.flatten_isPrefix (h : Paged size items calls pages) : pages.flatten <+: items := by
  induction h with
  | nil => exact nil_prefix
  | cons hpage hitems hrest ih =>
    subst hitems
    rw [flatten_cons]
    exact (prefix_append_right_inj _).mpr ih

/-- Each page takes something, so enough of them take everything. -/
theorem Paged.flatten_eq (h : Paged size items calls pages) (hlen : items.length ≤ calls.length) :
    pages.flatten = items := by
  induction h with
  | nil => exact (eq_nil_of_length_eq_zero (Nat.le_zero.mp hlen)).symm
  | @cons items page rest limit budget calls pages hpage hitems hrest ih =>
    subst hitems
    rw [flatten_cons, ih]
    rw [length_append, length_cons] at hlen
    cases hrest : rest with
    | nil => simp
    | cons x rest' =>
      have hne : page ++ rest ≠ [] := by simp [hrest]
      have hpos := length_pos_iff.mpr (hpage.nonempty hne)
      rw [hrest] at hlen
      omega

end Pages
