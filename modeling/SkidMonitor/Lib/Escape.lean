import Mathlib

/-! Search and replace in texts, and escape codes that are undone by it. -/
namespace Escape

open List

variable {α β : Type} [DecidableEq α]

/-- Drops so many characters, then replaces every occurrence of the pattern, from left to right. -/
def replaceFrom (pattern out : List α) : ℕ → List α → List α
  | _, [] => []
  | skip + 1, _ :: text => replaceFrom pattern out skip text
  | 0, c :: text =>
    if pattern.isPrefixOf (c :: text) then out ++ replaceFrom pattern out (pattern.length - 1) text
    else c :: replaceFrom pattern out 0 text

/-- Every occurrence of a pattern that is not empty is replaced; what was put in is not read again. -/
def replace (pattern out text : List α) : List α := replaceFrom pattern out 0 text

/-- No occurrence of the pattern starts inside the block, whatever follows it. -/
def Free (pattern block : List α) : Prop :=
  ∀ rest text, rest ≠ [] → rest <:+ block → ¬ pattern <+: rest ++ text

section Replace

variable {pattern out block text : List α} {c : α}

theorem replaceFrom_append (skipped : List α) :
    replaceFrom pattern out skipped.length (skipped ++ text) = replace pattern out text := by
  induction skipped with
  | nil => rfl
  | cons c skipped ih => exact ih

theorem replace_pattern_append (hne : pattern ≠ []) :
    replace pattern out (pattern ++ text) = out ++ replace pattern out text := by
  obtain ⟨c, rest, rfl⟩ := exists_cons_of_ne_nil hne
  have hstart : (c :: rest).isPrefixOf (c :: (rest ++ text)) := by simp
  change replaceFrom _ _ 0 (c :: (rest ++ text)) = _
  rw [replaceFrom, if_pos hstart, length_cons, Nat.add_sub_cancel, replaceFrom_append]

theorem replace_cons (h : ¬ pattern <+: c :: text) :
    replace pattern out (c :: text) = c :: replace pattern out text := by
  unfold replace
  rw [replaceFrom, if_neg (mt List.isPrefixOf_iff_prefix.mp h)]

theorem replace_append_of_free (h : Free pattern block) :
    replace pattern out (block ++ text) = block ++ replace pattern out text := by
  induction block with
  | nil => rfl
  | cons c block ih =>
    have hhead : ¬ pattern <+: c :: (block ++ text) :=
      h (c :: block) text (cons_ne_nil _ _) suffix_rfl
    have htail : Free pattern block := fun rest text hne hsuffix =>
      h rest text hne (hsuffix.trans (suffix_cons _ _))
    rw [cons_append, replace_cons hhead, ih htail, cons_append]

/-- In a text made of blocks that are the pattern or free of it, the former are replaced. -/
theorem replace_flatMap (hne : pattern ≠ []) {old new : β → List α} {items : List β}
    (h : ∀ b ∈ items, (old b = pattern ∧ new b = out) ∨ (Free pattern (old b) ∧ new b = old b)) :
    replace pattern out (items.flatMap old) = items.flatMap new := by
  induction items with
  | nil => rfl
  | cons b items ih =>
    have hrest := ih fun b hb => h b (mem_cons_of_mem _ hb)
    rw [flatMap_cons, flatMap_cons]
    obtain ⟨hold, hnew⟩ | ⟨hfree, hnew⟩ := h b mem_cons_self
    · rw [hold, hnew, replace_pattern_append hne, hrest]
    · rw [hnew, replace_append_of_free hfree, hrest]

omit [DecidableEq α] in
/-- A block without the first character of the pattern is free of it. -/
theorem free_of_notMem {rest : List α} (h : c ∉ block) : Free (c :: rest) block := by
  intro suffix text hne hsuffix hprefix
  obtain ⟨d, suffix, rfl⟩ := exists_cons_of_ne_nil hne
  obtain rfl : c = d := (cons_prefix_cons.mp hprefix).1
  exact h (hsuffix.subset mem_cons_self)

omit [DecidableEq α] in
/-- Two escape codes of one length are free of each other. -/
theorem free_code {code code' : List α} (hlength : code.length = code'.length)
    (hne : code ≠ code') (hnot : c ∉ code') : Free (c :: code) (c :: code') := by
  intro suffix text hsuffix_ne hsuffix hprefix
  rcases suffix_cons_iff.mp hsuffix with rfl | hsuffix
  · have hcode := (cons_prefix_cons.mp hprefix).2
    have hle := prefix_of_prefix_length_le hcode (prefix_append code' text)
      (Nat.le_of_eq hlength)
    exact hne (hle.eq_of_length hlength)
  · exact free_of_notMem hnot suffix text hsuffix_ne hsuffix hprefix

end Replace

/-- The code of a character in a table of escapes, or the character itself. -/
def escape (mark : α) (table : List (α × List α)) (c : α) : List α :=
  match table.lookup c with
  | some code => mark :: code
  | none => [c]

def encode (mark : α) (table : List (α × List α)) (text : List α) : List α :=
  text.flatMap (escape mark table)

/-- The codes are replaced by their characters, one row of the table after the other. -/
def decode (mark : α) (table : List (α × List α)) (text : List α) : List α :=
  table.foldl (fun text row => replace (mark :: row.2) [row.1] text) text

/-- A table of codes of one length, without the mark in them, that is read in both directions. -/
structure Codes (mark : α) (table : List (α × List α)) : Prop where
  keys : (table.map Prod.fst).Nodup
  codes : (table.map Prod.snd).Nodup
  length : ∀ row ∈ table, ∀ row' ∈ table, row.2.length = row'.2.length
  mark : ∀ row ∈ table, mark ∉ row.2

section Table

variable {mark c : α} {code own : List α} {row : α × List α} {table : List (α × List α)}

omit [DecidableEq α] in
theorem Codes.tail (h : Codes mark (row :: table)) : Codes mark table where
  keys := (nodup_cons.mp h.keys).2
  codes := (nodup_cons.mp h.codes).2
  length r hr r' hr' := h.length r (mem_cons_of_mem _ hr) r' (mem_cons_of_mem _ hr')
  mark r hr := h.mark r (mem_cons_of_mem _ hr)

theorem mem_of_lookup (h : table.lookup c = some code) : (c, code) ∈ table := by
  obtain ⟨before, after, rfl, -⟩ := lookup_eq_some_iff.mp h
  exact mem_append_right _ mem_cons_self

theorem exists_lookup (h : c ∈ table.map Prod.fst) : ∃ code, table.lookup c = some code := by
  obtain ⟨row, hrow, rfl⟩ := mem_map.mp h
  refine Option.ne_none_iff_exists'.mp fun hnone => ?_
  simpa using lookup_eq_none_iff.mp hnone row hrow

theorem escape_of_lookup (h : table.lookup c = some code) : escape mark table c = mark :: code := by
  rw [escape, h]

theorem escape_of_notMem (h : c ∉ table.map Prod.fst) : escape mark table c = [c] := by
  have hnone : table.lookup c = none := by
    rw [lookup_eq_none_iff]
    intro row hrow
    rw [bne_iff_ne]
    rintro rfl
    exact h (mem_map_of_mem hrow)
  rw [escape, hnone]

theorem escape_cons_self : escape mark ((c, code) :: table) c = mark :: code :=
  escape_of_lookup (by simp)

theorem escape_cons_of_ne {d : α} (h : d ≠ c) :
    escape mark ((c, code) :: table) d = escape mark table d := by
  simp [escape, lookup_cons, beq_eq_false_iff_ne.mpr h]

/-- What a character is written as is free of a code that its table does not have. -/
theorem escape_free (h : Codes mark ((c, code) :: table)) {d : α}
    (hd : d ≠ mark ∨ d ∈ table.map Prod.fst) : Free (mark :: code) (escape mark table d) := by
  by_cases hkey : d ∈ table.map Prod.fst
  · obtain ⟨code', hlookup⟩ := exists_lookup hkey
    have hrow := mem_of_lookup hlookup
    rw [escape_of_lookup hlookup]
    refine free_code (h.length _ mem_cons_self _ (mem_cons_of_mem _ hrow)) ?_
      (h.mark _ (mem_cons_of_mem _ hrow))
    rintro rfl
    exact (nodup_cons.mp h.codes).1 (mem_map.mpr ⟨_, hrow, rfl⟩)
  · rw [escape_of_notMem hkey]
    exact free_of_notMem fun hmem => hd.resolve_right hkey (mem_singleton.mp hmem).symm

/-- A character that has a code is not in what is written, the mark apart. -/
theorem notMem_encode {d : α} {text : List α} (hkey : d ∈ table.map Prod.fst) (hne : d ≠ mark)
    (hcodes : ∀ row ∈ table, d ∉ row.2) : d ∉ encode mark table text := by
  intro hmem
  obtain ⟨c, -, hd⟩ := mem_flatMap.mp hmem
  by_cases hc : c ∈ table.map Prod.fst
  · obtain ⟨code, hlookup⟩ := exists_lookup hc
    rw [escape_of_lookup hlookup] at hd
    exact hcodes _ (mem_of_lookup hlookup) ((mem_cons.mp hd).resolve_left hne)
  · rw [escape_of_notMem hc] at hd
    exact hc (mem_singleton.mp hd ▸ hkey)

/-- The first row of the table is undone by its replacement. -/
theorem replace_encode (h : Codes mark ((c, code) :: table))
    (hmark : mark ∈ ((c, code) :: table).map Prod.fst) (text : List α) :
    replace (mark :: code) [c] (encode mark ((c, code) :: table) text) = encode mark table text := by
  refine replace_flatMap (cons_ne_nil _ _) fun d hd => ?_
  by_cases hdc : d = c
  · subst hdc
    exact .inl ⟨escape_cons_self, escape_of_notMem (nodup_cons.mp h.keys).1⟩
  · rw [escape_cons_of_ne hdc]
    refine .inr ⟨escape_free h ?_, rfl⟩
    by_cases hdm : d = mark
    · subst hdm
      exact .inr ((mem_cons.mp hmark).resolve_left hdc)
    · exact .inl hdm

/-- Decoding undoes encoding when the mark itself is decoded last. -/
theorem decode_encode {init : List (α × List α)} (h : Codes mark (init ++ [(mark, own)]))
    (text : List α) :
    decode mark (init ++ [(mark, own)]) (encode mark (init ++ [(mark, own)]) text) = text := by
  induction init with
  | nil =>
    exact (replace_encode h (by simp) text).trans (flatMap_singleton' text)
  | cons row init ih =>
    have hstep : replace (mark :: row.2) [row.1] (encode mark (row :: init ++ [(mark, own)]) text) =
        encode mark (init ++ [(mark, own)]) text := replace_encode h (by simp) text
    refine Eq.trans ?_ (ih h.tail)
    simp only [decode, cons_append, foldl_cons] at hstep ⊢
    rw [hstep]

end Table

end Escape
