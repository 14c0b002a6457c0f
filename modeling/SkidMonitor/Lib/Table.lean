import Mathlib

/-! Tables as lists of rows: updates row by row, and what they leave in a selection. -/
namespace Table

open List

variable {ρ : Type} {p q : ρ → Bool} {f : ρ → ρ} {rows : List ρ}

/-- Changes the rows that satisfy `p`. -/
def modify (p : ρ → Bool) (f : ρ → ρ) (rows : List ρ) : List ρ :=
  rows.map fun r => if p r then f r else r

theorem mem_modify {r : ρ} : r ∈ modify p f rows ↔ ∃ o ∈ rows, (if p o then f o else o) = r := by
  simp [modify]

/-- An update leaves a column alone that it does not write. -/
theorem map_modify {β : Type} {g : ρ → β} (hg : ∀ r, g (f r) = g r) :
    (modify p f rows).map g = rows.map g := by
  rw [modify, map_map]
  apply map_congr_left
  intro r _
  simp only [Function.comp_apply]
  split
  · exact hg r
  · rfl

theorem filter_modify (hq : ∀ r, q (f r) = q r) :
    (modify p f rows).filter q = modify p f (rows.filter q) := by
  have hcomp : (q ∘ fun r => if p r then f r else r) = q := by
    funext r
    simp only [Function.comp_apply]
    split
    · exact hq r
    · rfl
  rw [modify, filter_map, hcomp]
  rfl

theorem find?_modify (hq : ∀ r, q (f r) = q r) :
    (modify p f rows).find? q = (rows.find? q).map fun r => if p r then f r else r := by
  have hcomp : (q ∘ fun r => if p r then f r else r) = q := by
    funext r
    simp only [Function.comp_apply]
    split
    · exact hq r
    · rfl
  rw [modify, find?_map, hcomp]

/-- An update of rows outside a selection does not change the selection. -/
theorem modify_eq_self (h : ∀ r ∈ rows, p r = false) : modify p f rows = rows := by
  rw [modify]
  exact (map_congr_left fun r hr => by simp [h r hr]).trans (map_id rows)

/-- An update that takes rows out of a selection makes it no longer, -/
theorem length_filter_modify_le (h : ∀ r, q (f r) = false) :
    ((modify p f rows).filter q).length ≤ (rows.filter q).length := by
  induction rows with
  | nil => exact Nat.le_refl _
  | cons r rows ih =>
    simp only [modify, map_cons] at ih ⊢
    by_cases hp : p r = true
    · rw [if_pos hp, filter_cons_of_neg (by simp [h r])]
      exact Nat.le_trans ih ((sublist_cons_self r rows).filter q).length_le
    · rw [if_neg hp, filter_cons, filter_cons]
      split
      · exact Nat.succ_le_succ ih
      · exact ih

/-- and shorter if it takes out one. -/
theorem length_filter_modify_lt {o : ρ} (h : ∀ r, q (f r) = false) (ho : o ∈ rows)
    (hp : p o = true) (hq : q o = true) :
    ((modify p f rows).filter q).length < (rows.filter q).length := by
  induction rows with
  | nil => cases ho
  | cons r rows ih =>
    have hle : ((modify p f rows).filter q).length ≤ _ := length_filter_modify_le h
    simp only [modify, map_cons] at ih hle ⊢
    rcases mem_cons.mp ho with rfl | ho
    · rw [if_pos hp, filter_cons_of_neg (by simp [h o]), filter_cons_of_pos hq]
      exact Nat.lt_succ_of_le hle
    · have hlt := ih ho
      by_cases hr : p r = true
      · rw [if_pos hr, filter_cons_of_neg (by simp [h r])]
        exact Nat.lt_of_lt_of_le hlt ((sublist_cons_self r rows).filter q).length_le
      · rw [if_neg hr, filter_cons, filter_cons]
        split
        · exact Nat.succ_lt_succ hlt
        · exact hlt

/-- Changes the rows that satisfy `p`, or adds a row if there is none. -/
def upsert (p : ρ → Bool) (f : ρ → ρ) (row : ρ) (rows : List ρ) : List ρ :=
  if rows.any p then modify p f rows else rows ++ [row]

theorem filter_modify_ne (hq : ∀ r, q (f r) = q r) (h : ∀ r, p r = true → q r = false) :
    (modify p f rows).filter q = rows.filter q := by
  rw [filter_modify hq]
  apply modify_eq_self
  intro r hr
  by_contra hp
  rw [Bool.not_eq_false] at hp
  have := of_mem_filter hr
  rw [h r hp] at this
  cases this

theorem filter_upsert_ne {row : ρ} (hq : ∀ r, q (f r) = q r) (h : ∀ r, p r = true → q r = false)
    (hrow : q row = false) : (upsert p f row rows).filter q = rows.filter q := by
  unfold upsert
  split
  · exact filter_modify_ne hq h
  · simp [filter_append, hrow]

theorem filter_upsert {row : ρ} (hq : ∀ r, q (f r) = q r) (h : ∀ r, p r = true → q r = true)
    (hrow : q row = true) : (upsert p f row rows).filter q = upsert p f row (rows.filter q) := by
  have hany : (rows.filter q).any p = rows.any p := by
    rw [any_filter]
    congr 1
    funext r
    cases hp : p r with
    | false => simp
    | true => simp [h r hp]
  unfold upsert
  rw [hany]
  split
  · exact filter_modify hq
  · simp [filter_append, hrow]

theorem find?_modify_ne (hq : ∀ r, q (f r) = q r) (h : ∀ r, q r = true → p r = false) :
    (modify p f rows).find? q = rows.find? q := by
  rw [find?_modify hq]
  cases hfind : rows.find? q with
  | none => rfl
  | some r => simp [h r (find?_some hfind)]

theorem find?_upsert_ne {row : ρ} (hq : ∀ r, q (f r) = q r) (h : ∀ r, q r = true → p r = false)
    (hrow : q row = false) : (upsert p f row rows).find? q = rows.find? q := by
  unfold upsert
  split
  · exact find?_modify_ne hq h
  · simp [find?_append, hrow]

theorem find?_upsert {row : ρ} (hp : ∀ r, p (f r) = p r) (hrow : p row = true) :
    (upsert p f row rows).find? p = some (((rows.find? p).map f).getD row) := by
  unfold upsert
  cases hfind : rows.find? p with
  | none =>
    have hany : rows.any p = false := by simpa using find?_eq_none.mp hfind
    simp [hany, find?_append, hfind, hrow]
  | some r =>
    have hany : rows.any p = true :=
      any_eq_true.mpr ⟨r, mem_of_find?_eq_some hfind, find?_some hfind⟩
    simp [hany, find?_modify hp, hfind, find?_some hfind]

/-- A selection finds what the whole table has there. -/
theorem find?_filter (h : ∀ r, p r = true → q r = true) :
    (rows.filter q).find? p = rows.find? p := by
  rw [List.find?_filter]
  congr 1
  funext r
  cases hp : p r with
  | false => simp
  | true => simp [h r hp]

/-- In a table sorted by a key the rows up to a bound come first. -/
theorem filter_le_prefix {κ : Type} [LinearOrder κ] (key : ρ → κ) (z : κ)
    (h : rows.Pairwise fun r r' => key r < key r') :
    rows.filter (fun r => key r ≤ z) <+: rows := by
  induction rows with
  | nil => exact prefix_rfl
  | cons r rows ih =>
    obtain ⟨hr, hrows⟩ := pairwise_cons.mp h
    by_cases hz : key r ≤ z
    · rw [filter_cons_of_pos (by simpa using hz)]
      exact (prefix_cons_inj r).mpr (ih hrows)
    · rw [filter_cons_of_neg (by simpa using hz), filter_eq_nil_iff.mpr]
      · exact nil_prefix
      · intro r' hr' hle
        exact hz (le_trans (le_of_lt (hr r' hr')) (by simpa using hle))

/-- Of rows that exclude each other one is selected at most. -/
theorem length_filter_le_one (h : rows.Pairwise fun r r' => p r = true → p r' = true → False) :
    (rows.filter p).length ≤ 1 := by
  induction rows with
  | nil => exact Nat.zero_le 1
  | cons r rows ih =>
    obtain ⟨hr, hrows⟩ := pairwise_cons.mp h
    by_cases hp : p r = true
    · have hnone : rows.filter p = [] := filter_eq_nil_iff.mpr fun r' hr' hp' => hr r' hr' hp hp'
      simp [hp, hnone]
    · rw [filter_cons_of_neg hp]
      exact ih hrows

theorem eq_of_length_le_one (h : rows.length ≤ 1) {r r' : ρ} (hr : r ∈ rows) (hr' : r' ∈ rows) :
    r = r' := by
  match rows with
  | [] => cases hr
  | [o] => exact (mem_singleton.mp hr).trans (mem_singleton.mp hr').symm
  | _ :: _ :: _ => simp at h

section Positions

variable {i : ℕ} {a : ρ}

/-- An update of one row leaves a count alone if the row counts as before, -/
theorem countP_modify_eq (h : ∀ a, rows[i]? = some a → p (f a) = p a) :
    (rows.modify i f).countP p = rows.countP p := by
  induction rows generalizing i with
  | nil => simp
  | cons b rows ih =>
    cases i with
    | zero => simp [countP_cons, h b rfl]
    | succ i => simp [countP_cons, ih h]

/-- and lowers it by one if the row counts no more. -/
theorem countP_modify_add_one (ha : rows[i]? = some a) (hp : p a = true) (hf : p (f a) = false) :
    (rows.modify i f).countP p + 1 = rows.countP p := by
  induction rows generalizing i with
  | nil => simp at ha
  | cons b rows ih =>
    cases i with
    | zero =>
      cases ha
      simp [hf, hp]
    | succ i =>
      have hrest := ih ha
      simp only [modify_succ_cons, countP_cons]
      omega

theorem map_modify_eq {κ : Type} {key : ρ → κ} (h : ∀ a, key (f a) = key a) :
    (rows.modify i f).map key = rows.map key := by
  induction rows generalizing i with
  | nil => simp
  | cons b rows ih =>
    cases i with
    | zero => simp [h b]
    | succ i => simp [ih]

/-- The row at a place after an update of one row, -/
theorem of_getElem?_modify {j : ℕ} (h : (rows.modify i f)[j]? = some a) :
    ∃ b, rows[j]? = some b ∧ a = if i = j then f b else b := by
  rw [getElem?_modify] at h
  obtain ⟨b, hb, rfl⟩ := Option.map_eq_some_iff.mp h
  exact ⟨b, hb, rfl⟩

/-- and after a row was added. -/
theorem of_getElem?_concat {b : ρ} (h : (rows ++ [b])[i]? = some a) :
    rows[i]? = some a ∨ i = rows.length ∧ a = b := by
  rcases Nat.lt_trichotomy i rows.length with hlt | rfl | hlt
  · rw [getElem?_append_left hlt] at h
    exact .inl h
  · rw [getElem?_concat_length] at h
    exact .inr ⟨rfl, (Option.some.inj h).symm⟩
  · rw [getElem?_eq_none (by rw [length_append, length_singleton]; omega)] at h
    cases h

end Positions

section Collected

variable {κ α : Type} [DecidableEq κ] {entries : List (κ × α)} {k : κ} {a : α}

/-- The map rows are collected into: the last row of a key counts. -/
def collect (entries : List (κ × α)) : AList fun _ : κ => α :=
  entries.foldl (fun map entry => map.insert entry.1 entry.2) ∅

theorem collect_concat {entry : κ × α} :
    collect (entries ++ [entry]) = (collect entries).insert entry.1 entry.2 := by
  rw [collect, foldl_append]
  rfl

theorem mem_of_lookup_collect (h : (collect entries).lookup k = some a) : (k, a) ∈ entries := by
  induction entries using List.reverseRecOn with
  | nil => cases h
  | append_singleton entries entry ih =>
    rw [collect_concat] at h
    by_cases hk : k = entry.1
    · subst hk
      rw [AList.lookup_insert] at h
      cases h
      simp
    · rw [AList.lookup_insert_ne hk] at h
      exact mem_append_left _ (ih h)

theorem lookup_collect_of_mem (h : (k, a) ∈ entries) : ∃ b, (collect entries).lookup k = some b := by
  induction entries using List.reverseRecOn with
  | nil => cases h
  | append_singleton entries entry ih =>
    rw [collect_concat]
    by_cases hk : k = entry.1
    · subst hk
      exact ⟨_, AList.lookup_insert _⟩
    · rw [AList.lookup_insert_ne hk]
      rcases mem_append.mp h with h | h
      · exact ih h
      · exact absurd (congrArg Prod.fst (mem_singleton.mp h)) hk

end Collected

section Keyed

variable {κ : Type} [DecidableEq κ] {key : ρ → κ} {k : κ} {r : ρ}

theorem exists_find? (h : k ∈ rows.map key) :
    ∃ r, rows.find? (fun r => key r = k) = some r ∧ key r = k := by
  obtain ⟨r, hr, hkey⟩ := mem_map.mp h
  have hsome : (rows.find? fun r => key r = k).isSome :=
    find?_isSome.mpr ⟨r, hr, decide_eq_true hkey⟩
  obtain ⟨found, hfound⟩ := Option.isSome_iff_exists.mp hsome
  exact ⟨found, hfound, of_decide_eq_true (find?_some hfound :)⟩

/-- Where keys are not repeated, a row is found by its key. -/
theorem find?_iff_mem (h : (rows.map key).Nodup) :
    rows.find? (fun r => key r = k) = some r ↔ r ∈ rows ∧ key r = k := by
  constructor
  · intro hfind
    exact ⟨mem_of_find?_eq_some hfind, of_decide_eq_true (find?_some hfind :)⟩
  · rintro ⟨hr, rfl⟩
    have hkeys : key r ∈ rows.map key := mem_map_of_mem hr
    obtain ⟨found, hfind, hkey⟩ := exists_find? hkeys
    rw [hfind, inj_on_of_nodup_map h (mem_of_find?_eq_some hfind) hr hkey]

end Keyed

section Keys

variable {κ α : Type} [BEq κ] [LawfulBEq κ] {entries : List (κ × α)} {k : κ} {a : α}

theorem mem_of_lookup (h : entries.lookup k = some a) : (k, a) ∈ entries := by
  obtain ⟨l, l', rfl, _⟩ := lookup_eq_some_iff.mp h
  simp

theorem lookup_iff_mem (h : (entries.map Prod.fst).Nodup) :
    entries.lookup k = some a ↔ (k, a) ∈ entries := by
  refine ⟨mem_of_lookup, fun hmem => ?_⟩
  have hsome : (entries.lookup k).isSome := lookup_isSome_iff.mpr ⟨_, hmem, by simp⟩
  obtain ⟨b, hb⟩ := Option.isSome_iff_exists.mp hsome
  have heq : (k, b) = (k, a) := inj_on_of_nodup_map h (mem_of_lookup hb) hmem rfl
  rw [hb]
  exact congrArg (fun entry => some entry.2) heq

theorem lookup_filter {p : κ → Bool} (h : p k = true) :
    (entries.filter fun entry => p entry.1).lookup k = entries.lookup k := by
  induction entries with
  | nil => rfl
  | cons entry entries ih =>
    by_cases hentry : p entry.1 = true
    · rw [filter_cons, if_pos hentry, lookup_cons, lookup_cons, ih]
    · have hne : k ≠ entry.1 := fun heq => hentry (heq ▸ h)
      rw [filter_cons, if_neg hentry, ih, lookup_cons, beq_eq_false_iff_ne.mpr hne]

/-- Where one element alone gives a value, it is the first value found iff nothing stands before. -/
theorem findSome?_iff_takeWhile {β : Type} [DecidableEq α] {f : α → Option β} {b : β}
    (hf : ∀ x, f x = some b ↔ x = a) (as : List α) :
    as.findSome? f = some b ↔ a ∈ as ∧ ∀ x ∈ as.takeWhile (· ≠ a), f x = none := by
  induction as with
  | nil => simp
  | cons x as ih =>
    by_cases hx : x = a
    · subst hx
      simp [(hf x).mpr rfl]
    · have hne : f x ≠ some b := fun h => hx ((hf x).mp h)
      cases hfx : f x with
      | none => simp [hfx, ih, hx, Ne.symm hx]
      | some c =>
        have hc : c ≠ b := fun h => hne (h ▸ hfx)
        simp [hfx, hx, hc]

end Keys

section Related

variable {α β : Type} {R : α → β → Prop} {as : List α} {bs : List β}

theorem exists_left (h : List.Forall₂ R as bs) {b : β} (hb : b ∈ bs) : ∃ a ∈ as, R a b := by
  induction h with
  | nil => cases hb
  | cons hab _ ih =>
    rcases mem_cons.mp hb with rfl | hb
    · exact ⟨_, mem_cons_self, hab⟩
    · obtain ⟨a, ha, hr⟩ := ih hb
      exact ⟨a, mem_cons_of_mem _ ha, hr⟩

theorem exists_right (h : List.Forall₂ R as bs) {a : α} (ha : a ∈ as) : ∃ b ∈ bs, R a b :=
  exists_left (R := fun b a => R a b) (List.Forall₂.flip h) ha

theorem exists_getLast? (h : List.Forall₂ R as bs) {a : α} (ha : as.getLast? = some a) :
    ∃ b, bs.getLast? = some b ∧ R a b := by
  have hrev := forall₂_reverse_iff.mpr h
  rw [getLast?_eq_head?_reverse] at ha ⊢
  generalize as.reverse = as' at ha hrev
  generalize bs.reverse = bs' at hrev ⊢
  cases hrev with
  | nil => cases ha
  | cons hab _ =>
    cases ha
    exact ⟨_, rfl, hab⟩

/-- As many values as there are arguments, when each has one. -/
theorem exists_forall₂ (h : ∀ a ∈ as, ∃ b, R a b) : ∃ bs, List.Forall₂ R as bs := by
  induction as with
  | nil => exact ⟨[], .nil⟩
  | cons a as ih =>
    obtain ⟨⟨b, hb⟩, hrest⟩ := forall_mem_cons.mp h
    obtain ⟨bs, hbs⟩ := ih hrest
    exact ⟨b :: bs, .cons hb hbs⟩

end Related

end Table
