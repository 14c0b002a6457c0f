import Mathlib

/-! Items with at most one parent each, and the chain of the parents of an item. -/
namespace Ancestry

open Relation List

variable (up : ℕ → Option ℕ)

def Parent (child parent : ℕ) : Prop := up child = some parent

/-- An item and its ancestors from the nearest one on, as far as so many rounds look. -/
def chain : ℕ → Option ℕ → List ℕ
  | 0, _ => []
  | _ + 1, none => []
  | rounds + 1, some item => item :: chain rounds (up item)

/-- No item is its own ancestor. -/
def Acyclic : Prop := ∀ a, ¬ TransGen (Parent up) a a

variable {up} {rounds count : ℕ} {start : Option ℕ} {a b : ℕ}

theorem mem_chain (h : b ∈ chain up rounds start) :
    ∃ a, start = some a ∧ ReflTransGen (Parent up) a b := by
  induction rounds generalizing start with
  | zero => cases h
  | succ rounds ih =>
    cases start with
    | none => cases h
    | some a =>
      refine ⟨a, rfl, ?_⟩
      rcases mem_cons.mp h with rfl | h
      · exact .refl
      · obtain ⟨p, hp, hpb⟩ := ih h
        exact .head hp hpb

/-- A longer look finds the same, and maybe more. -/
theorem take_chain {fewer : ℕ} (h : fewer ≤ rounds) :
    (chain up rounds start).take fewer = chain up fewer start := by
  induction rounds generalizing fewer start with
  | zero =>
    obtain rfl := Nat.le_zero.mp h
    rfl
  | succ rounds ih =>
    cases fewer with
    | zero => rfl
    | succ fewer =>
      cases start with
      | none => rfl
      | some a => rw [chain, chain, take_succ_cons, ih (Nat.le_of_succ_le_succ h)]

theorem chain_nodup (h : Acyclic up) : (chain up rounds start).Nodup := by
  induction rounds generalizing start with
  | zero => exact nodup_nil
  | succ rounds ih =>
    cases start with
    | none => exact nodup_nil
    | some a =>
      refine nodup_cons.mpr ⟨fun hmem => ?_, ih⟩
      obtain ⟨p, hp, hpa⟩ := mem_chain hmem
      exact h a (.head' hp hpa)

theorem exists_mem_chain (h : ReflTransGen (Parent up) a b) :
    ∃ rounds, b ∈ chain up rounds (some a) := by
  induction h using ReflTransGen.head_induction_on with
  | refl => exact ⟨1, mem_cons_self⟩
  | head hac _ ih =>
    obtain ⟨rounds, hmem⟩ := ih
    refine ⟨rounds + 1, mem_cons_of_mem _ ?_⟩
    rw [hac]
    exact hmem

/-- As many rounds as there are items find all that a longer look finds: the chain has distinct
items. -/
theorem chain_prefix (hacyclic : Acyclic up) (hup : ∀ a b, up a = some b → b < count)
    (hstart : ∀ a, start = some a → a < count) :
    chain up rounds start <+: chain up count start := by
  have hlength : (chain up rounds start).length ≤ count := by
    have hsub : chain up rounds start ⊆ List.range count := by
      intro x hx
      obtain ⟨a, ha, hax⟩ := mem_chain hx
      rcases ReflTransGen.cases_tail hax with rfl | ⟨y, -, hyx⟩
      · exact mem_range.mpr (hstart _ ha)
      · exact mem_range.mpr (hup y x hyx)
    simpa using (subperm_of_subset (chain_nodup hacyclic) hsub).length_le
  rcases Nat.le_total rounds count with hle | hle
  · rw [← take_chain hle]
    exact take_prefix _ _
  · have heq : chain up count start = chain up rounds start :=
      (take_chain hle).symm.trans (take_of_length_le hlength)
    exact heq ▸ prefix_refl _

theorem mem_chain_iff (hacyclic : Acyclic up) (hup : ∀ a b, up a = some b → b < count)
    (ha : a < count) : b ∈ chain up count (some a) ↔ ReflTransGen (Parent up) a b := by
  refine ⟨fun h => ?_, fun h => ?_⟩
  · obtain ⟨c, hc, hcb⟩ := mem_chain h
    exact Option.some.inj hc ▸ hcb
  · obtain ⟨rounds, hmem⟩ := exists_mem_chain h
    have hchain : chain up rounds (some a) <+: chain up count (some a) :=
      chain_prefix hacyclic hup fun _ h => Option.some.inj h ▸ ha
    exact hchain.subset hmem

theorem acyclic_of_lt (h : ∀ a b, up a = some b → b < a) : Acyclic up := by
  intro a hcycle
  have hlt : ∀ {a b : ℕ}, TransGen (Parent up) a b → b < a := by
    intro a b hab
    induction hab with
    | single hab => exact h _ _ hab
    | tail _ hbc ih => exact (h _ _ hbc).trans ih
  exact Nat.lt_irrefl a (hlt hcycle)

end Ancestry
