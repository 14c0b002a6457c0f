import Mathlib

/-! Feeds: what a strictly increasing list holds after a position and between two positions. A
reader that has got everything up to a position and takes the next entry has got everything up to
that entry. -/
namespace Feed

open List

variable {α : Type*} [LinearOrder α] {a b c x : α} {feed : List α}

def after (a : α) (feed : List α) : List α := feed.filter (a < ·)

/-- What lies after `a`, up to and with `b`. -/
def between (a b : α) (feed : List α) : List α := feed.filter fun x => a < x ∧ x ≤ b

theorem mem_between : x ∈ between a b feed ↔ x ∈ feed ∧ a < x ∧ x ≤ b := by
  simp [between]

@[simp] theorem between_self : between a a feed = [] := by
  refine eq_nil_iff_forall_not_mem.mpr fun x hx => ?_
  obtain ⟨_, hlt, hle⟩ := mem_between.mp hx
  exact absurd hlt (not_lt.mpr hle)

omit [LinearOrder α] in
/-- A list splits where a predicate turns false for good. -/
theorem filter_append_filter_not {p : α → Bool} (h : feed.Pairwise fun x y => p y → p x) :
    feed.filter p ++ feed.filter (fun x => !p x) = feed := by
  induction feed with
  | nil => rfl
  | cons x feed ih =>
    obtain ⟨hx, hfeed⟩ := pairwise_cons.mp h
    by_cases hp : p x
    · simp [hp, ih hfeed]
    · have hnone : feed.filter p = [] :=
        filter_eq_nil_iff.mpr fun y hy hpy => hp (hx y hy hpy)
      have hrest := ih hfeed
      rw [hnone, nil_append] at hrest
      simp [hp, hnone, hrest]

theorem pairwise_le (h : feed.Pairwise (· < ·)) (b : α) :
    feed.Pairwise fun x y => decide (y ≤ b) → decide (x ≤ b) := by
  refine h.imp fun hxy hy => ?_
  rw [decide_eq_true_eq] at hy ⊢
  exact hxy.le.trans hy

theorem between_isPrefix (h : feed.Pairwise (· < ·)) : between a b feed <+: after a feed := by
  have hsplit := filter_append_filter_not (pairwise_le (h.filter (a < ·)) b)
  rw [filter_filter] at hsplit
  refine ⟨_, (congrArg (· ++ _) ?_).trans hsplit⟩
  refine filter_congr fun x _ => ?_
  simp [and_comm]

theorem between_append (h : feed.Pairwise (· < ·)) (hab : a ≤ b) (hbc : b ≤ c) :
    between a b feed ++ between b c feed = between a c feed := by
  have hsplit := filter_append_filter_not
    (pairwise_le (h.filter fun x => decide (a < x ∧ x ≤ c)) b)
  rw [filter_filter, filter_filter] at hsplit
  refine Eq.trans (congrArg₂ (· ++ ·) ?_ ?_) hsplit
  · refine filter_congr fun x _ => ?_
    rw [← Bool.decide_and, decide_eq_decide]
    exact ⟨fun hx => ⟨hx.2, hx.1, hx.2.trans hbc⟩, fun hx => ⟨hx.2.1, hx.1⟩⟩
  · refine filter_congr fun x _ => ?_
    rw [← decide_not, ← Bool.decide_and, decide_eq_decide, not_le]
    exact ⟨fun hx => ⟨hx.1, hab.trans_lt hx.1, hx.2⟩, fun hx => ⟨hx.1, hx.2.2⟩⟩

/-- The entry that follows what lies up to `b` is the only one up to itself. -/
theorem between_next (h : feed.Pairwise (· < ·)) (hab : a ≤ b)
    (hx : between a b feed ++ [x] <+: after a feed) : b < x ∧ between b x feed = [x] := by
  obtain ⟨rest, hrest⟩ := hx
  have hsorted : (between a b feed ++ [x] ++ rest).Pairwise (· < ·) := by
    rw [hrest]
    exact h.filter _
  obtain ⟨hleft, _, hright⟩ := pairwise_append.mp hsorted
  have hbefore : ∀ y ∈ between a b feed, y < x := fun y hy =>
    (pairwise_append.mp hleft).2.2 y hy x (mem_singleton_self x)
  have hafter : ∀ y ∈ rest, x < y := fun y hy =>
    hright x (mem_append_right _ (mem_singleton_self x)) y hy
  have hmem : x ∈ after a feed := by
    rw [← hrest]
    exact mem_append_left _ (mem_append_right _ (mem_singleton_self x))
  have hxb : b < x := by
    by_contra hle
    have hfeed := mem_filter.mp hmem
    have hin : x ∈ between a b feed :=
      mem_between.mpr ⟨hfeed.1, by simpa using hfeed.2, not_lt.mp hle⟩
    exact absurd (hbefore x hin) (lt_irrefl x)
  refine ⟨hxb, ?_⟩
  have hwindow : between b x feed = (after a feed).filter fun y => b < y ∧ y ≤ x := by
    rw [after, filter_filter]
    refine filter_congr fun y _ => ?_
    rw [← Bool.decide_and, decide_eq_decide]
    exact ⟨fun hy => ⟨hy, hab.trans_lt hy.1⟩, fun hy => hy.1⟩
  have hnone : (between a b feed).filter (fun y => b < y ∧ y ≤ x) = [] := by
    refine filter_eq_nil_iff.mpr fun y hy hin => ?_
    rw [decide_eq_true_eq] at hin
    exact absurd hin.1 (not_lt.mpr (mem_between.mp hy).2.2)
  have hnone' : rest.filter (fun y => b < y ∧ y ≤ x) = [] := by
    refine filter_eq_nil_iff.mpr fun y hy hin => ?_
    rw [decide_eq_true_eq] at hin
    exact absurd (hafter y hy) (not_lt.mpr hin.2)
  rw [hwindow, ← hrest, filter_append, filter_append, hnone, hnone']
  simp [hxb]

section Keyed

variable {β : Type*} (key : β → α) {entries read : List β}

/-- The key of the last entry that was read, or where the reader started. -/
def position (a : α) (read : List β) : α := (read.getLast?.map key).getD a

variable {key}

/-- What is left of the entries after `a`, once the first of them have been read. -/
theorem filter_eq_append (h : entries.Pairwise fun x y => key x < key y)
    (hread : read <+: entries.filter (a < key ·)) :
    entries.filter (a < key ·) = read ++ entries.filter (position key a read < key ·) := by
  rcases eq_nil_or_concat read with rfl | ⟨before, x, rfl⟩
  · rfl
  · rw [concat_eq_append] at hread ⊢
    obtain ⟨rest, hrest⟩ := hread
    have hposition : position key a (before ++ [x]) = key x := by simp [position]
    have hmem : x ∈ entries.filter (a < key ·) := by
      rw [← hrest]
      simp
    have hax : a < key x := by simpa using (mem_filter.mp hmem).2
    have hsorted : (before ++ [x] ++ rest).Pairwise fun x y => key x < key y := by
      rw [hrest]
      exact h.filter _
    obtain ⟨hleft, _, hright⟩ := pairwise_append.mp hsorted
    have hlater : entries.filter (key x < key ·) =
        (entries.filter (a < key ·)).filter (key x < key ·) := by
      rw [filter_filter]
      refine filter_congr fun y _ => ?_
      rw [← Bool.decide_and, decide_eq_decide]
      exact ⟨fun hy => ⟨hy, hax.trans hy⟩, fun hy => hy.1⟩
    have hread : (before ++ [x]).filter (key x < key ·) = [] := by
      refine filter_eq_nil_iff.mpr fun y hy hlt => ?_
      rw [decide_eq_true_eq] at hlt
      rcases mem_append.mp hy with hy | hy
      · have hyx := (pairwise_append.mp hleft).2.2 y hy x (mem_singleton_self x)
        exact absurd hlt hyx.asymm
      · rw [mem_singleton.mp hy] at hlt
        exact lt_irrefl _ hlt
    have hunread : rest.filter (key x < key ·) = rest := by
      refine filter_eq_self.mpr fun y hy => ?_
      exact decide_eq_true (hright x (mem_append_right _ (mem_singleton_self x)) y hy)
    rw [hposition, hlater, ← hrest, filter_append, hread, hunread, nil_append]

end Keyed

end Feed
