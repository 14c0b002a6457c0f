import Mathlib

/-! A depth-first topological sort: every item is put behind the items it depends on, and an item
that is met while its own dependencies are visited lies on a cycle. -/
namespace Toposort

open Relation List

inductive Mark where
  | unseen
  | entered
  | finished
  deriving DecidableEq

structure State where
  marks : List Mark
  ordered : List ℕ

/-- What a visit fails with: at a cycle, at an item that is not there, and when it may not go on. -/
structure Failures (ε : Type) where
  cycle : ε
  missing : ε
  unfinished : ε

variable {ε : Type} (failures : Failures ε) (deps : ℕ → Except ε (List ℕ))

def State.enter (s : State) (item : ℕ) : State := { s with marks := s.marks.set item .entered }

def State.finish (s : State) (item : ℕ) : State :=
  { marks := s.marks.set item .finished, ordered := s.ordered ++ [item] }

/-- The visit of an item, nested at most so deep. -/
def visit : ℕ → State → ℕ → Except ε State
  | 0, _, _ => .error failures.unfinished
  | depth + 1, s, item =>
    match s.marks[item]? with
    | none => .error failures.missing
    | some .finished => .ok s
    | some .entered => .error failures.cycle
    | some .unseen => do
      let items ← deps item
      let visited ← items.foldlM (visit depth) (s.enter item)
      return visited.finish item

/-- The items below a bound, each behind those it depends on. -/
def sort (count : ℕ) : Except ε (List ℕ) :=
  ((List.range count).foldlM (visit failures deps (count + 1))
    ⟨List.replicate count .unseen, []⟩).map State.ordered

section Invariant

variable {failures deps} {count : ℕ} (needs : ℕ → List ℕ)

/-- The first item depends on the second. -/
def Needs (a b : ℕ) : Prop := b ∈ needs a

/-- Every item stands behind those it depends on. -/
def Ordered (items : List ℕ) : Prop :=
  ∀ before a after, items = before ++ a :: after → ∀ b ∈ needs a, b ∈ before

structure Good (count : ℕ) (s : State) : Prop where
  length : s.marks.length = count
  finished : ∀ a : ℕ, s.marks[a]? = some Mark.finished ↔ a ∈ s.ordered
  nodup : s.ordered.Nodup
  ordered : Ordered needs s.ordered

/-- What a visit keeps: what is done stays done, and the entered items are the same. -/
structure Extends (s t : State) : Prop where
  grows : s.ordered <+: t.ordered
  entered : ∀ a : ℕ, t.marks[a]? = some Mark.entered ↔ s.marks[a]? = some Mark.entered
  unseen : t.marks.count Mark.unseen ≤ s.marks.count Mark.unseen

variable {needs} {s t u : State} {item : ℕ}

theorem Extends.refl (s : State) : Extends s s := ⟨prefix_refl _, fun _ => Iff.rfl, le_refl _⟩

theorem Extends.trans (h : Extends s t) (h' : Extends t u) : Extends s u :=
  ⟨h.grows.trans h'.grows, fun a => (h'.entered a).trans (h.entered a), h'.unseen.trans h.unseen⟩

theorem Ordered.concat {items : List ℕ} (h : Ordered needs items)
    (hitem : ∀ b ∈ needs item, b ∈ items) : Ordered needs (items ++ [item]) := by
  intro before a after heq b hb
  rcases eq_nil_or_concat after with rfl | ⟨after, last, rfl⟩
  · obtain ⟨rfl, hlast⟩ := append_inj' heq rfl
    obtain rfl : item = a := by simpa using hlast
    exact hitem b hb
  · rw [concat_eq_append, ← cons_append, ← append_assoc] at heq
    exact h before a after (append_inj' heq rfl).1 b hb

theorem getElem?_lt {marks : List Mark} {mark : Mark} (h : marks[item]? = some mark) :
    item < marks.length :=
  (List.getElem?_eq_some_iff.mp h).1

/-- The marks after one of them has been set. -/
theorem getElem?_set_mark {marks : List Mark} {mark : Mark} (h : item < marks.length) (a : ℕ) :
    (marks.set item mark)[a]? = if a = item then some mark else marks[a]? := by
  by_cases ha : a = item
  · subst ha
    rw [if_pos rfl, getElem?_set_self h]
  · rw [if_neg ha, getElem?_set_ne (Ne.symm ha)]

theorem count_enter (h : s.marks[item]? = some .unseen) :
    (s.enter item).marks.count .unseen < s.marks.count .unseen := by
  obtain ⟨hlt, hget⟩ := List.getElem?_eq_some_iff.mp h
  have hpos : 0 < s.marks.count .unseen :=
    count_pos_iff.mpr (hget ▸ getElem_mem hlt)
  rw [State.enter, count_set hlt, hget, if_pos (by decide), if_neg (by decide)]
  omega

theorem count_finish (h : s.marks[item]? = some .entered) :
    (s.finish item).marks.count .unseen = s.marks.count .unseen := by
  obtain ⟨hlt, hget⟩ := List.getElem?_eq_some_iff.mp h
  rw [State.finish, count_set hlt, hget]
  simp

theorem Good.enter (h : Good needs count s) (hitem : s.marks[item]? = some .unseen) :
    Good needs count (s.enter item) := by
  refine ⟨by rw [State.enter, length_set, h.length], fun a => ?_, h.nodup, h.ordered⟩
  rw [State.enter, getElem?_set_mark (getElem?_lt hitem)]
  by_cases ha : a = item
  · subst ha
    rw [if_pos rfl, ← h.finished, hitem]
    simp
  · rw [if_neg ha]
    exact h.finished a

theorem Good.finish (h : Good needs count s) (hitem : s.marks[item]? = some .entered)
    (hneeds : ∀ b ∈ needs item, b ∈ s.ordered) : Good needs count (s.finish item) := by
  have hnew : item ∉ s.ordered := by
    rw [← h.finished, hitem]
    simp
  refine ⟨by rw [State.finish, length_set, h.length], fun a => ?_, ?_, h.ordered.concat hneeds⟩
  · rw [State.finish, getElem?_set_mark (getElem?_lt hitem), mem_append, mem_singleton]
    by_cases ha : a = item
    · simp [ha]
    · rw [if_neg ha, h.finished]
      simp [ha]
  · rw [State.finish, ← concat_eq_append]
    exact (nodup_concat _ _).mpr ⟨hnew, h.nodup⟩

theorem entered_enter (h : s.marks[item]? = some .unseen) (a : ℕ) :
    (s.enter item).marks[a]? = some .entered ↔ a = item ∨ s.marks[a]? = some .entered := by
  rw [State.enter, getElem?_set_mark (getElem?_lt h)]
  by_cases ha : a = item <;> simp [ha]

/-- An item that is entered, and finished after others have been visited. -/
theorem Extends.finish (hitem : s.marks[item]? = some .unseen) (h : Extends (s.enter item) t) :
    Extends s (t.finish item) := by
  have hentered : t.marks[item]? = some .entered :=
    (h.entered item).mpr ((entered_enter hitem item).mpr (.inl rfl))
  refine ⟨h.grows.trans (prefix_append _ _), fun a => ?_, ?_⟩
  · rw [State.finish, getElem?_set_mark (getElem?_lt hentered)]
    by_cases ha : a = item
    · subst ha
      simp [hitem]
    · rw [if_neg ha, h.entered, entered_enter hitem]
      simp [ha]
  · rw [count_finish hentered]
    exact h.unseen.trans (count_enter hitem).le

variable (failures) (needs)

/-- A visit succeeds and keeps the invariant, or it has met a cycle. -/
def Outcome (count : ℕ) (s : State) (P : State → Prop) (x : Except ε State) : Prop :=
  (∃ t, x = .ok t ∧ Good needs count t ∧ Extends s t ∧ P t) ∨
    (x = .error failures.cycle ∧ ∃ a, TransGen (Needs needs) a a)

variable {failures needs}

theorem foldlM_outcome {depth : ℕ} {items : List ℕ}
    (hvisit : ∀ s item, item ∈ items → Good needs count s → s.marks.count .unseen < depth →
      (∀ a : ℕ, s.marks[a]? = some .entered → TransGen (Needs needs) a item) →
      Outcome failures needs count s (item ∈ ·.ordered) (visit failures deps depth s item))
    (hs : Good needs count s) (hdepth : s.marks.count .unseen < depth)
    (hentered : ∀ item ∈ items, ∀ a : ℕ, s.marks[a]? = some .entered →
      TransGen (Needs needs) a item) :
    Outcome failures needs count s (fun t => ∀ item ∈ items, item ∈ t.ordered)
      (items.foldlM (visit failures deps depth) s) := by
  induction items generalizing s with
  | nil => exact .inl ⟨s, rfl, hs, Extends.refl s, by simp⟩
  | cons item items ih =>
    rw [foldlM_cons]
    rcases hvisit s item mem_cons_self hs hdepth (hentered item mem_cons_self) with
      ⟨t, ht, hgood, hext, hdone⟩ | ⟨herror, hcycle⟩
    · rw [ht]
      rcases ih (fun s i hi => hvisit s i (mem_cons_of_mem _ hi)) hgood
        (hext.unseen.trans_lt hdepth)
        (fun i hi a ha => hentered i (mem_cons_of_mem _ hi) a ((hext.entered a).mp ha)) with
        ⟨u, hu, hgood', hext', hall⟩ | ⟨herror, hcycle⟩
      · refine .inl ⟨u, hu, hgood', hext.trans hext', ?_⟩
        exact forall_mem_cons.mpr ⟨hext'.grows.subset hdone, hall⟩
      · exact .inr ⟨herror, hcycle⟩
    · rw [herror]
      exact .inr ⟨rfl, hcycle⟩

theorem visit_unseen {depth : ℕ} {items : List ℕ} (hmark : s.marks[item]? = some .unseen)
    (hdeps : deps item = .ok items) :
    visit failures deps (depth + 1) s item =
      (items.foldlM (visit failures deps depth) (s.enter item)).map (·.finish item) := by
  rw [visit, hmark]
  dsimp only
  rw [hdeps]
  rfl

/-- A visit that may nest deeper than there are unseen items ends. -/
theorem visit_outcome (hdeps : ∀ a < count, deps a = .ok (needs a))
    (hneeds : ∀ a < count, ∀ b ∈ needs a, b < count) (depth : ℕ) :
    ∀ s item, item < count → Good needs count s → s.marks.count .unseen < depth →
      (∀ a : ℕ, s.marks[a]? = some .entered → TransGen (Needs needs) a item) →
      Outcome failures needs count s (item ∈ ·.ordered) (visit failures deps depth s item) := by
  induction depth with
  | zero =>
    intro s item _ _ hdepth
    omega
  | succ depth ih =>
    intro s item hitem hs hdepth hentered
    have hlt : item < s.marks.length := by rw [hs.length]; exact hitem
    cases hmark : s.marks[item]? with
    | none => exact absurd hmark (by simpa using hlt)
    | some mark =>
      cases mark with
      | finished =>
        exact .inl ⟨s, by rw [visit, hmark], hs, Extends.refl s, (hs.finished item).mp hmark⟩
      | entered => exact .inr ⟨by rw [visit, hmark], item, hentered item hmark⟩
      | unseen =>
        -- whatever is entered depends on the item, and so on what the item depends on
        have hpath : ∀ b ∈ needs item, ∀ a : ℕ, (s.enter item).marks[a]? = some .entered →
            TransGen (Needs needs) a b := by
          intro b hb a ha
          rcases (entered_enter hmark a).mp ha with rfl | ha
          · exact .single hb
          · exact (hentered a ha).tail hb
        have hcount := count_enter hmark
        rw [visit_unseen hmark (hdeps item hitem)]
        rcases foldlM_outcome (fun s i hi => ih s i (hneeds item hitem i hi)) (hs.enter hmark)
          (show _ < depth by omega) hpath with ⟨t, ht, hgood, hext, hall⟩ | ⟨herror, hcycle⟩
        · have hown : t.marks[item]? = some .entered :=
            (hext.entered item).mpr ((entered_enter hmark item).mpr (.inl rfl))
          refine .inl ⟨t.finish item, by rw [ht]; rfl, hgood.finish hown hall,
            hext.finish hmark, ?_⟩
          exact mem_append_right _ (mem_singleton_self item)
        · exact .inr ⟨by rw [herror]; rfl, hcycle⟩

/-- An item stands behind everything it depends on, directly or not. -/
theorem Ordered.idxOf_lt {items : List ℕ} (h : Ordered needs items) (hnodup : items.Nodup)
    {a b : ℕ} (hab : TransGen (Needs needs) a b) (ha : a ∈ items) :
    b ∈ items ∧ items.idxOf b < items.idxOf a := by
  have hstep : ∀ {a b : ℕ}, Needs needs a b → a ∈ items →
      b ∈ items ∧ items.idxOf b < items.idxOf a := by
    intro a b hab ha
    obtain ⟨before, after, rfl⟩ := append_of_mem ha
    have hb := h before a after rfl b hab
    have hnot : a ∉ before := fun hmem => (nodup_append.mp hnodup).2.2 a hmem a
      mem_cons_self rfl
    refine ⟨mem_append_left _ hb, ?_⟩
    rw [idxOf_append_of_mem hb, idxOf_append_of_notMem hnot, idxOf_cons_self]
    exact (idxOf_lt_length_iff.mpr hb).trans_le (Nat.le_add_right _ _)
  induction hab with
  | single hab => exact hstep hab ha
  | tail _ hbc ih =>
    obtain ⟨hc, hlt⟩ := hstep hbc ih.1
    exact ⟨hc, hlt.trans ih.2⟩

theorem Ordered.pairwise {items : List ℕ} (h : Ordered needs items) (hnodup : items.Nodup) :
    items.Pairwise fun a b => b ∉ needs a := by
  refine pairwise_iff_getElem.mpr fun i j hi hj hij hmem => ?_
  have hlt := (h.idxOf_lt hnodup (.single hmem) (getElem_mem hi)).2
  rw [hnodup.idxOf_getElem, hnodup.idxOf_getElem] at hlt
  omega

theorem Ordered.acyclic {items : List ℕ} {a : ℕ} (h : Ordered needs items) (hnodup : items.Nodup)
    (ha : a ∈ items) : ¬ TransGen (Needs needs) a a :=
  fun hcycle => Nat.lt_irrefl _ (h.idxOf_lt hnodup hcycle ha).2

/-- The sort puts all items in order, or the items have a cycle. -/
theorem sort_spec (hdeps : ∀ a < count, deps a = .ok (needs a))
    (hneeds : ∀ a < count, ∀ b ∈ needs a, b < count) :
    (∃ items, sort failures deps count = .ok items ∧ items.Perm (List.range count) ∧
      Ordered needs items) ∨
    (sort failures deps count = .error failures.cycle ∧ ∃ a, TransGen (Needs needs) a a) := by
  have hgood : Good needs count ⟨List.replicate count .unseen, []⟩ := by
    refine ⟨length_replicate, fun a => ?_, nodup_nil, ?_⟩
    · simp [getElem?_replicate]
    · intro before a after heq
      simp at heq
  have hnone : ∀ a : ℕ, (List.replicate count Mark.unseen)[a]? ≠ some .entered := by
    simp [getElem?_replicate]
  have hsort : sort failures deps count =
      ((List.range count).foldlM (visit failures deps (count + 1))
        ⟨List.replicate count .unseen, []⟩).map State.ordered := rfl
  rw [hsort]
  rcases foldlM_outcome
    (fun s item hitem => visit_outcome hdeps hneeds (count + 1) s item (mem_range.mp hitem))
    hgood (by simp) (fun item _ a ha => absurd ha (hnone a)) with
    ⟨t, ht, ht', -, hall⟩ | ⟨herror, hcycle⟩
  · refine .inl ⟨t.ordered, by rw [ht]; rfl, ?_, ht'.ordered⟩
    refine (perm_ext_iff_of_nodup ht'.nodup nodup_range).mpr fun a =>
      ⟨fun ha => ?_, hall a⟩
    rw [mem_range, ← ht'.length]
    exact getElem?_lt ((ht'.finished a).mpr ha)
  · exact .inr ⟨by rw [herror]; rfl, hcycle⟩

end Invariant

end Toposort
