import Mathlib

/-! Values that are put under keys of their own and dropped again: what a sequence of writes
leaves, and lists of just that. -/
namespace Latest

open List

variable {K V : Type} [DecidableEq K] (key : V → K)

inductive Write (K V : Type) where
  | put (v : V)
  | drop (k : K)

def Write.under : Write K V → K
  | .put v => key v
  | .drop k => k

def Write.value : Write K V → Option V
  | .put v => some v
  | .drop _ => none

/-- The value last put under a key, if it was not dropped since. -/
def latest (ws : List (Write K V)) (k : K) : Option V :=
  (ws.filter fun w => w.under key = k).getLast?.bind Write.value

/-- The keys that have a value. -/
def live (ws : List (Write K V)) : List K :=
  (ws.map (Write.under key)).dedup.filter fun k => (latest key ws k).isSome

/-- The list has the value of each key, each once. -/
structure Lists (ws : List (Write K V)) (vs : List V) : Prop where
  nodup : (vs.map key).Nodup
  mem : ∀ v, v ∈ vs ↔ latest key ws (key v) = some v

variable {key} {ws : List (Write K V)} {vs vs' : List V} {w : Write K V} {k : K} {v : V}

theorem latest_concat : latest key (ws ++ [w]) k =
    if w.under key = k then w.value else latest key ws k := by
  unfold latest
  by_cases h : w.under key = k
  · simp [h]
  · simp [h]

theorem latest_key (h : latest key ws k = some v) : key v = k := by
  obtain ⟨w, hw, hv⟩ := Option.bind_eq_some_iff.mp h
  have hmem := mem_filter.mp (mem_of_getLast? hw)
  have hkey : w.under key = k := of_decide_eq_true hmem.2
  cases w with
  | put v' =>
    cases hv
    exact hkey
  | drop k' => cases hv

theorem mem_live (h : latest key ws k = some v) : k ∈ live key ws := by
  refine mem_filter.mpr ⟨mem_dedup.mpr ?_, by rw [h]; rfl⟩
  obtain ⟨w, hw, _⟩ := Option.bind_eq_some_iff.mp h
  have hmem := mem_filter.mp (mem_of_getLast? hw)
  exact mem_map.mpr ⟨w, hmem.1, of_decide_eq_true hmem.2⟩

namespace Lists

theorem nil : Lists key [] [] := ⟨nodup_nil, fun v => by simp [latest]⟩

theorem length_le (h : Lists key ws vs) : vs.length ≤ (live key ws).length := by
  rw [← length_map (f := key)]
  refine (h.nodup.subperm fun k hk => ?_).length_le
  obtain ⟨v, hv, rfl⟩ := mem_map.mp hk
  exact mem_live ((h.mem v).mp hv)

theorem perm (h : Lists key ws vs) (hperm : vs'.Perm vs) : Lists key ws vs' :=
  ⟨(hperm.map key).nodup_iff.mpr h.nodup, fun v => hperm.mem_iff.trans (h.mem v)⟩

theorem put (h : Lists key ws vs) (hnodup : (vs'.map key).Nodup)
    (hmem : ∀ v', v' ∈ vs' ↔ v' = v ∨ v' ∈ vs ∧ key v' ≠ key v) :
    Lists key (ws ++ [.put v]) vs' := by
  refine ⟨hnodup, fun v' => ?_⟩
  rw [hmem, latest_concat, h.mem]
  change _ ↔ (if key v = key v' then some v else _) = some v'
  by_cases hkey : key v = key v'
  · rw [if_pos hkey, Option.some.injEq]
    constructor
    · rintro (rfl | ⟨_, hne⟩)
      · rfl
      · exact absurd hkey.symm hne
    · exact fun heq => .inl heq.symm
  · rw [if_neg hkey]
    constructor
    · rintro (rfl | ⟨hv, _⟩)
      · exact absurd rfl hkey
      · exact hv
    · exact fun hv => .inr ⟨hv, Ne.symm hkey⟩

theorem drop (h : Lists key ws vs) (k : K) :
    Lists key (ws ++ [.drop k]) (vs.filter fun v => key v ≠ k) := by
  refine ⟨(filter_sublist.map key).nodup h.nodup, fun v => ?_⟩
  rw [mem_filter, decide_eq_true_eq, h.mem, latest_concat]
  change _ ↔ (if k = key v then none else _) = some v
  by_cases hkey : k = key v
  · rw [if_pos hkey]
    exact iff_of_false (fun hv => hv.2 hkey.symm) nofun
  · rw [if_neg hkey]
    exact ⟨fun hv => hv.1, fun hv => ⟨hv, Ne.symm hkey⟩⟩

end Lists

end Latest
