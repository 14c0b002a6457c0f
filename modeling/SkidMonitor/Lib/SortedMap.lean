import Mathlib

/-! Maps as lists of entries with increasing keys. -/

structure SortedMap (K V : Type) [LinearOrder K] where
  entries : List (K × V)
  sorted : entries.Pairwise (·.1 < ·.1)
  deriving DecidableEq

namespace SortedMap

open List

variable {K V : Type} [LinearOrder K]

def empty : SortedMap K V := ⟨[], List.Pairwise.nil⟩

/-- Replaces the value of `k`, or enters one, by what `f` makes of the old value. -/
def upsertEntries (k : K) (f : Option V → V) : List (K × V) → List (K × V)
  | [] => [(k, f none)]
  | (l, v) :: es =>
    if k < l then (k, f none) :: (l, v) :: es
    else if k = l then (l, f (some v)) :: es
    else (l, v) :: upsertEntries k f es

theorem mem_upsertEntries {k : K} {f : Option V → V} {es : List (K × V)} {e : K × V}
    (h : e ∈ upsertEntries k f es) : e.1 = k ∨ ∃ e' ∈ es, e'.1 = e.1 := by
  induction es with
  | nil =>
    simp only [upsertEntries, mem_singleton] at h
    exact Or.inl (by rw [h])
  | cons d es ih =>
    unfold upsertEntries at h
    split_ifs at h with hlt heq
    · rcases mem_cons.mp h with rfl | h
      · exact Or.inl rfl
      · exact Or.inr ⟨e, h, rfl⟩
    · rcases mem_cons.mp h with rfl | h
      · exact Or.inl heq.symm
      · exact Or.inr ⟨e, mem_cons_of_mem d h, rfl⟩
    · rcases mem_cons.mp h with rfl | h
      · exact Or.inr ⟨d, mem_cons_self, rfl⟩
      · obtain hk | ⟨e', he', hk⟩ := ih h
        · exact Or.inl hk
        · exact Or.inr ⟨e', mem_cons_of_mem d he', hk⟩

theorem sorted_upsertEntries (k : K) (f : Option V → V) {es : List (K × V)}
    (h : es.Pairwise (·.1 < ·.1)) : (upsertEntries k f es).Pairwise (·.1 < ·.1) := by
  induction es with
  | nil => exact pairwise_singleton _ _
  | cons d es ih =>
    obtain ⟨hd, hes⟩ := pairwise_cons.mp h
    unfold upsertEntries
    split_ifs with hlt heq
    · refine pairwise_cons.mpr ⟨?_, h⟩
      intro e he
      rcases mem_cons.mp he with rfl | he
      · exact hlt
      · exact hlt.trans (hd e he)
    · exact pairwise_cons.mpr ⟨hd, hes⟩
    · refine pairwise_cons.mpr ⟨?_, ih hes⟩
      intro e he
      obtain hk | ⟨e', he', hk⟩ := mem_upsertEntries he
      · have hle : d.1 ≤ k := not_lt.mp hlt
        exact hk ▸ hle.lt_of_ne (Ne.symm heq)
      · exact hk ▸ hd e' he'

def upsert (m : SortedMap K V) (k : K) (f : Option V → V) : SortedMap K V :=
  ⟨upsertEntries k f m.entries, sorted_upsertEntries k f m.sorted⟩

def lookup (m : SortedMap K V) (k : K) : Option V := (m.entries.find? (·.1 = k)).map Prod.snd

def insert (m : SortedMap K V) (k : K) (v : V) : SortedMap K V := m.upsert k fun _ => v

def erase (m : SortedMap K V) (k : K) : SortedMap K V :=
  ⟨m.entries.filter (·.1 ≠ k), m.sorted.filter _⟩

/-- Every value is replaced by what `g` makes of it. -/
def map {W : Type} (m : SortedMap K V) (g : V → W) : SortedMap K W :=
  ⟨m.entries.map fun e => (e.1, g e.2), pairwise_map.mpr m.sorted⟩

def values (m : SortedMap K V) : List V := m.entries.map Prod.snd

/-- Entries are entered one after another; the last one of a key stays. -/
def ofList (es : List (K × V)) : SortedMap K V := es.foldl (fun m e => m.insert e.1 e.2) empty

section Lookup

variable {m m' : SortedMap K V} {k j : K} {v : V} {f : Option V → V} {es : List (K × V)}

theorem keys_nodup (m : SortedMap K V) : (m.entries.map Prod.fst).Nodup :=
  pairwise_map.mpr (m.sorted.imp fun h => h.ne)

theorem mem_entries : (k, v) ∈ m.entries ↔ m.lookup k = some v := by
  unfold lookup
  constructor
  · intro h
    cases hfind : m.entries.find? (·.1 = k) with
    | none => exact absurd (find?_eq_none.mp hfind _ h) (by simp)
    | some e =>
      have hk : e.1 = k := by simpa using find?_some hfind
      have he := mem_of_find?_eq_some hfind
      rw [inj_on_of_nodup_map m.keys_nodup he h hk]
      rfl
  · intro h
    obtain ⟨e, he, rfl⟩ := Option.map_eq_some_iff.mp h
    have hk : e.1 = k := by simpa using find?_some he
    rw [← hk]
    exact mem_of_find?_eq_some he

theorem mem_values : v ∈ m.values ↔ ∃ k, m.lookup k = some v := by
  simp [values, ← mem_entries]

theorem find?_eq_none_of_lt {d : K × V} (hlt : k < d.1) (h : (d :: es).Pairwise (·.1 < ·.1)) :
    (d :: es).find? (·.1 = k) = none := by
  refine find?_eq_none.mpr fun e he => ?_
  have hke : k < e.1 := by
    rcases mem_cons.mp he with rfl | he
    · exact hlt
    · exact hlt.trans ((pairwise_cons.mp h).1 e he)
  simpa using hke.ne'

theorem find?_upsertEntries_self (h : es.Pairwise (·.1 < ·.1)) :
    (upsertEntries k f es).find? (·.1 = k) = some (k, f ((es.find? (·.1 = k)).map Prod.snd)) := by
  induction es with
  | nil => simp [upsertEntries]
  | cons d es ih =>
    obtain ⟨hd, hes⟩ := pairwise_cons.mp h
    unfold upsertEntries
    split_ifs with hlt heq
    · rw [find?_eq_none_of_lt hlt h]
      simp
    · simp [heq]
    · have hne : ¬ d.1 = k := fun h => heq h.symm
      simpa [find?_cons, hne] using ih hes

theorem find?_upsertEntries_of_ne (h : j ≠ k) :
    (upsertEntries k f es).find? (·.1 = j) = es.find? (·.1 = j) := by
  induction es with
  | nil => simp [upsertEntries, h.symm]
  | cons d es ih =>
    unfold upsertEntries
    split_ifs with hlt heq
    · simp [find?_cons, h.symm]
    · simp [← heq, h.symm]
    · simp only [find?_cons, ih]

@[simp] theorem lookup_upsert_self : (m.upsert k f).lookup k = some (f (m.lookup k)) := by
  simp only [lookup, upsert, find?_upsertEntries_self m.sorted, Option.map_some]

theorem lookup_upsert_of_ne (h : j ≠ k) : (m.upsert k f).lookup j = m.lookup j := by
  simp only [lookup, upsert, find?_upsertEntries_of_ne h]

@[simp] theorem lookup_insert_self : (m.insert k v).lookup k = some v := lookup_upsert_self

theorem lookup_insert_of_ne (h : j ≠ k) : (m.insert k v).lookup j = m.lookup j :=
  lookup_upsert_of_ne h

@[simp] theorem lookup_erase_self : (m.erase k).lookup k = none := by
  simp only [lookup, erase, Option.map_eq_none_iff]
  refine find?_eq_none.mpr fun e he => ?_
  simpa using (mem_filter.mp he).2

theorem lookup_erase_of_ne (h : j ≠ k) : (m.erase k).lookup j = m.lookup j := by
  cases hj : m.lookup j with
  | some v =>
    rw [← mem_entries] at hj ⊢
    exact mem_filter.mpr ⟨hj, by simpa using h⟩
  | none =>
    by_contra hne
    obtain ⟨v, hv⟩ := Option.ne_none_iff_exists'.mp hne
    rw [← mem_entries] at hv
    rw [mem_entries.mp (mem_filter.mp hv).1] at hj
    cases hj

theorem lookup_insert_some {w : V} (h : (m.insert k v).lookup j = some w) :
    j = k ∧ w = v ∨ m.lookup j = some w := by
  by_cases hj : j = k
  · rw [hj, lookup_insert_self] at h
    exact .inl ⟨hj, (Option.some.inj h).symm⟩
  · rw [lookup_insert_of_ne hj] at h
    exact .inr h

theorem lookup_erase_some {w : V} (h : (m.erase k).lookup j = some w) :
    j ≠ k ∧ m.lookup j = some w := by
  by_cases hj : j = k
  · rw [hj, lookup_erase_self] at h
    cases h
  · rw [lookup_erase_of_ne hj] at h
    exact ⟨hj, h⟩

theorem isSome_lookup_insert (h : (m.lookup j).isSome) : ((m.insert k v).lookup j).isSome := by
  by_cases hj : j = k
  · rw [hj, lookup_insert_self]
    rfl
  · rwa [lookup_insert_of_ne hj]

@[simp] theorem lookup_map {W : Type} (g : V → W) : (m.map g).lookup k = (m.lookup k).map g := by
  simp only [lookup, map, find?_map, Option.map_map]
  rfl

theorem values_map {W : Type} (m : SortedMap K V) (g : V → W) :
    (m.map g).values = m.values.map g := by
  rw [values, map, map_map, values, map_map]
  rfl

theorem lookup_foldl_notMem (h : k ∉ es.map Prod.fst) (m : SortedMap K V) :
    (es.foldl (fun m e => m.insert e.1 e.2) m).lookup k = m.lookup k := by
  induction es generalizing m with
  | nil => rfl
  | cons e es ih =>
    rw [map_cons, mem_cons, not_or] at h
    rw [foldl_cons, ih h.2, lookup_insert_of_ne h.1]

theorem lookup_foldl_mem (hkeys : (es.map Prod.fst).Nodup) (h : (k, v) ∈ es)
    (m : SortedMap K V) : (es.foldl (fun m e => m.insert e.1 e.2) m).lookup k = some v := by
  induction es generalizing m with
  | nil => cases h
  | cons e es ih =>
    obtain ⟨hnew, hrest⟩ := nodup_cons.mp hkeys
    rw [foldl_cons]
    rcases mem_cons.mp h with rfl | h
    · rw [lookup_foldl_notMem hnew, lookup_insert_self]
    · exact ih hrest h _

/-- A map is what can be looked up in it. -/
theorem ext_lookup {m m' : SortedMap K V} (h : ∀ k, m.lookup k = m'.lookup k) : m = m' := by
  have hmem : ∀ e, e ∈ m.entries ↔ e ∈ m'.entries := by
    rintro ⟨k, v⟩
    rw [mem_entries, mem_entries, h]
  have hperm : m.entries.Perm m'.entries :=
    (perm_ext_iff_of_nodup m.keys_nodup.of_map m'.keys_nodup.of_map).mpr hmem
  have heq : m.entries = m'.entries := by
    refine hperm.eq_of_pairwise (fun a b _ _ hab hba => ?_) m.sorted m'.sorted
    exact absurd hba hab.asymm
  cases m
  cases m'
  cases heq
  rfl

theorem upsert_comm {f g : Option V → V} (h : j ≠ k) :
    (m.upsert j f).upsert k g = (m.upsert k g).upsert j f := by
  refine ext_lookup fun i => ?_
  by_cases hk : i = k
  · subst hk
    rw [lookup_upsert_self, lookup_upsert_of_ne (Ne.symm h), lookup_upsert_of_ne (Ne.symm h),
      lookup_upsert_self]
  · by_cases hj : i = j
    · subst hj
      rw [lookup_upsert_of_ne hk, lookup_upsert_self, lookup_upsert_self, lookup_upsert_of_ne hk]
    · rw [lookup_upsert_of_ne hk, lookup_upsert_of_ne hj, lookup_upsert_of_ne hj,
        lookup_upsert_of_ne hk]

theorem upsert_upsert {f g : Option V → V} :
    (m.upsert k f).upsert k g = m.upsert k fun old => g (some (f old)) := by
  refine ext_lookup fun i => ?_
  by_cases hi : i = k
  · subst hi
    rw [lookup_upsert_self, lookup_upsert_self, lookup_upsert_self]
  · rw [lookup_upsert_of_ne hi, lookup_upsert_of_ne hi, lookup_upsert_of_ne hi]

end Lookup

/-- The sum over all values. -/
def total (m : SortedMap K V) (g : V → ℕ) : ℕ := (m.values.map g).sum

theorem total_upsert (m : SortedMap K V) (k : K) (f : Option V → V) (g : V → ℕ) :
    (m.upsert k f).total g + (m.lookup k).elim 0 g = m.total g + g (f (m.lookup k)) := by
  obtain ⟨es, hsorted⟩ := m
  simp only [total, values, upsert, lookup, map_map]
  induction es with
  | nil => simp [upsertEntries]
  | cons d es ih =>
    obtain ⟨hd, hes⟩ := pairwise_cons.mp hsorted
    unfold upsertEntries
    split_ifs with hlt heq
    · rw [find?_eq_none_of_lt hlt hsorted]
      simp [Nat.add_comm]
    · simp [← heq]
      omega
    · have hne : ¬ d.1 = k := fun h => heq h.symm
      have hrest := ih hes
      simp only [find?_cons, hne, map_cons, sum_cons, Function.comp_apply,
        decide_false] at hrest ⊢
      omega

theorem elim_lookup_le_total (m : SortedMap K V) (k : K) (g : V → ℕ) :
    (m.lookup k).elim 0 g ≤ m.total g := by
  cases h : m.lookup k with
  | none => exact Nat.zero_le _
  | some v =>
    have hv : g v ∈ m.values.map g := mem_map_of_mem (mem_values.mpr ⟨k, h⟩)
    exact le_sum_of_mem hv

theorem length_insert {m : SortedMap K V} {k : K} (h : m.lookup k = none) (v : V) :
    (m.insert k v).values.length = m.values.length + 1 := by
  have hone : ∀ m : SortedMap K V, m.total (fun _ => 1) = m.values.length := fun m => by
    simp [total]
  have htotal := m.total_upsert k (fun _ => v) fun _ => 1
  rw [h, hone, hone] at htotal
  exact htotal

theorem length_erase_lt {m : SortedMap K V} {k : K} {v : V} (h : m.lookup k = some v) :
    (m.erase k).values.length < m.values.length := by
  rw [values, values, length_map, length_map]
  exact length_filter_lt_length_iff_exists.mpr ⟨(k, v), mem_entries.mpr h, by simp⟩

end SortedMap
