import Mathlib

/-! The first elements by a key, and the groups of the elements that share one. -/
namespace Grouping

open List

variable {α κ : Type} [DecidableEq κ] {key : α → κ} {as : List α} {ks : List κ} {a : α} {k : κ}

/-- The elements whose key has not come before. -/
def firsts (key : α → κ) : List α → List α
  | [] => []
  | a :: as => a :: (firsts key as).filter fun b => key b ≠ key a

theorem mem_keys_firsts : k ∈ (firsts key as).map key ↔ k ∈ as.map key := by
  induction as with
  | nil => rfl
  | cons a as ih =>
    rw [firsts, map_cons, map_cons, mem_cons, mem_cons, ← ih]
    by_cases hk : k = key a
    · simp [hk]
    · simp only [hk, false_or, mem_map, mem_filter, decide_eq_true_eq]
      constructor
      · rintro ⟨b, ⟨hb, _⟩, rfl⟩
        exact ⟨b, hb, rfl⟩
      · rintro ⟨b, hb, rfl⟩
        exact ⟨b, ⟨hb, hk⟩, rfl⟩

theorem firsts_concat : firsts key (as ++ [a]) =
    if key a ∈ as.map key then firsts key as else firsts key as ++ [a] := by
  induction as with
  | nil => rfl
  | cons b as ih =>
    rw [cons_append, firsts, ih, map_cons, firsts]
    by_cases hb : key a = key b
    · split_ifs <;> simp_all
    · by_cases ha : key a ∈ as.map key
      · rw [if_pos ha, if_pos (mem_cons_of_mem _ ha)]
      · rw [if_neg ha, if_neg (by rw [mem_cons, not_or]; exact ⟨hb, ha⟩)]
        simp [hb]

theorem nodup_keys_firsts : ((firsts key as).map key).Nodup := by
  induction as with
  | nil => exact nodup_nil
  | cons a as ih =>
    rw [firsts, map_cons, nodup_cons]
    refine ⟨?_, (filter_sublist.map key).nodup ih⟩
    simp

theorem firsts_of_nodup (h : (as.map key).Nodup) : firsts key as = as := by
  induction as with
  | nil => rfl
  | cons a as ih =>
    obtain ⟨hnew, hrest⟩ := nodup_cons.mp h
    rw [firsts, ih hrest, filter_eq_self.mpr]
    intro b hb
    exact decide_eq_true fun heq => hnew (heq ▸ mem_map_of_mem hb)

/-- The groups by all the keys hold every element once. -/
theorem perm_groups (hks : ks.Nodup) (hall : ∀ a ∈ as, key a ∈ ks) :
    (ks.flatMap fun k => as.filter fun a => key a = k).Perm as := by
  induction ks generalizing as with
  | nil =>
    cases as with
    | nil => exact List.Perm.nil
    | cons a as => cases hall a mem_cons_self
  | cons k ks ih =>
    obtain ⟨hnew, hrest⟩ := nodup_cons.mp hks
    have hothers : (ks.flatMap fun j => as.filter fun a => key a = j) =
        ks.flatMap fun j => (as.filter fun a => !decide (key a = k)).filter fun a => key a = j := by
      refine flatMap_congr fun j hj => ?_
      rw [filter_filter]
      refine filter_congr fun a _ => ?_
      by_cases ha : key a = j
      · have hne : key a ≠ k := fun h => hnew (h ▸ ha ▸ hj)
        simp [ha, ha ▸ hne]
      · simp [ha]
    rw [flatMap_cons, hothers]
    refine ((ih hrest fun a ha => ?_).append_left _).trans (filter_append_perm _ as)
    obtain ⟨hmem, hne⟩ := mem_filter.mp ha
    rcases mem_cons.mp (hall a hmem) with heq | hin
    · simp [heq] at hne
    · exact hin

end Grouping
