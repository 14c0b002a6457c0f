import Mathlib

/-! Unicode texts as lists of characters, with the operations of a UTF-8 string. -/
abbrev Str := List Char

namespace Text

open List

/-- The characters with the property `White_Space`. -/
def isWhitespace (c : Char) : Bool :=
  (9 ≤ c.toNat && c.toNat ≤ 13) || (0x2000 ≤ c.toNat && c.toNat ≤ 0x200A) ||
    [0x20, 0x85, 0xA0, 0x1680, 0x2028, 0x2029, 0x202F, 0x205F, 0x3000].contains c.toNat

/-- The characters of the category `Cc`. -/
def isControl (c : Char) : Bool := c.toNat ≤ 0x1F || (0x7F ≤ c.toNat && c.toNat ≤ 0x9F)

def byteLength (text : Str) : ℕ := (text.map Char.utf8Size).sum

def trim (text : Str) : Str := (text.dropWhile isWhitespace).rdropWhile isWhitespace

/-- What stands before the first of these characters, and what stands after it. -/
def splitOnce (c : Char) : Str → Option (Str × Str)
  | [] => none
  | d :: text => if d = c then some ([], text) else (splitOnce c text).map (Prod.map (d :: ·) id)

theorem splitOnce_eq_some {c : Char} {text before after : Str} :
    splitOnce c text = some (before, after) ↔ c ∉ before ∧ text = before ++ c :: after := by
  induction text generalizing before with
  | nil => simp [splitOnce]
  | cons d text ih =>
    rw [splitOnce]
    split_ifs with hd
    · subst hd
      cases before with
      | nil => simp [eq_comm]
      | cons b before =>
        refine iff_of_false (by simp) ?_
        rintro ⟨hnot, heq⟩
        exact hnot ((List.cons.inj heq).1 ▸ mem_cons_self)
    · constructor
      · intro h
        obtain ⟨⟨b, a⟩, hrest, heq⟩ := Option.map_eq_some_iff.mp h
        cases heq
        obtain ⟨hnot, rfl⟩ := ih.mp hrest
        exact ⟨by simp [hnot, Ne.symm hd], rfl⟩
      · rintro ⟨hnot, heq⟩
        cases before with
        | nil => exact absurd (List.cons.inj heq).1 hd
        | cons b before =>
          obtain ⟨rfl, htext⟩ := List.cons.inj heq
          rw [ih.mpr ⟨fun hmem => hnot (mem_cons_of_mem _ hmem), htext⟩]
          rfl

theorem trim_trim (text : Str) : trim (trim text) = trim text := by
  have hpre : trim text <+: text.dropWhile isWhitespace := rdropWhile_prefix _ _
  have hdrop : (trim text).dropWhile isWhitespace = trim text := by
    rw [dropWhile_eq_self_iff]
    intro hlen
    have hlen' := hlen.trans_le hpre.length_le
    rw [hpre.getElem hlen]
    exact dropWhile_get_zero_not isWhitespace text hlen'
  unfold trim at hdrop ⊢
  rw [hdrop, rdropWhile_idempotent]

def toUtf8 (text : Str) : List UInt8 := text.flatMap String.utf8EncodeChar

def fromUtf8 (bytes : List UInt8) : Option Str :=
  bytes.toByteArray.utf8Decode?.map Array.toList

@[simp] theorem fromUtf8_toUtf8 (text : Str) : fromUtf8 (toUtf8 text) = some text := by
  have hdecode : (toUtf8 text).toByteArray.utf8Decode? = some text.toArray :=
    utf8Decode?_utf8Encode
  rw [fromUtf8, hdecode]
  rfl

theorem toUtf8_of_fromUtf8 {bytes : List UInt8} {text : Str}
    (h : fromUtf8 bytes = some text) : toUtf8 text = bytes := by
  obtain ⟨chars, hchars, rfl⟩ := Option.map_eq_some_iff.mp h
  have hencode : chars.toList.utf8Encode = bytes.toByteArray := by
    have hget := ByteArray.utf8Encode_get_utf8Decode? (b := bytes.toByteArray)
      (h := by rw [hchars]; rfl)
    simpa only [hchars, Option.get_some] using hget
  have hdata := congrArg (·.data.toList) hencode
  simpa [List.utf8Encode, toUtf8] using hdata

section Lossy

/-- The ranges of the bytes that may follow a first byte, if it is one. -/
def followers (lead : UInt8) : Option (List (UInt8 × UInt8)) :=
  if lead < 0x80 then some []
  else if lead < 0xC2 then none
  else if lead < 0xE0 then some [(0x80, 0xBF)]
  else if lead = 0xE0 then some [(0xA0, 0xBF), (0x80, 0xBF)]
  else if lead = 0xED then some [(0x80, 0x9F), (0x80, 0xBF)]
  else if lead < 0xF0 then some [(0x80, 0xBF), (0x80, 0xBF)]
  else if lead = 0xF0 then some [(0x90, 0xBF), (0x80, 0xBF), (0x80, 0xBF)]
  else if lead < 0xF4 then some [(0x80, 0xBF), (0x80, 0xBF), (0x80, 0xBF)]
  else if lead = 0xF4 then some [(0x80, 0x8F), (0x80, 0xBF), (0x80, 0xBF)]
  else none

/-- The first bytes that lie in the ranges, one after the other. -/
def matching : List (UInt8 × UInt8) → List UInt8 → List UInt8
  | range :: ranges, byte :: bytes =>
    if range.1 ≤ byte ∧ byte ≤ range.2 then byte :: matching ranges bytes else []
  | _, _ => []

/-- The character of a first byte and as many others. -/
def joined (lead : UInt8) (others : List UInt8) : Char :=
  let bits := if others = [] then lead.toNat else lead.toNat % 2 ^ (6 - others.length)
  Char.ofNat (others.foldl (fun n byte => n * 64 + byte.toNat % 64) bits)

/-- What the bytes from the first one on are decoded to, and how many belong to it besides. -/
def lossyChar (lead : UInt8) (bytes : List UInt8) : Char × ℕ :=
  match followers lead with
  | none => ('\uFFFD', 0)
  | some ranges =>
    let others := matching ranges bytes
    (if others.length = ranges.length then joined lead others else '\uFFFD', others.length)

/-- Skips so many bytes, then decodes the rest. -/
def lossyFrom : ℕ → List UInt8 → Str
  | _, [] => []
  | skip + 1, _ :: bytes => lossyFrom skip bytes
  | 0, lead :: bytes => (lossyChar lead bytes).1 :: lossyFrom (lossyChar lead bytes).2 bytes

/-- Decoding with a replacement character for every longest piece that cannot be continued. -/
def fromUtf8Lossy (bytes : List UInt8) : Str := lossyFrom 0 bytes

theorem lo_of_followers {lead : UInt8} {ranges : List (UInt8 × UInt8)}
    (h : followers lead = some ranges) : ∀ range ∈ ranges, 0x80 ≤ range.1 := by
  unfold followers at h
  split_ifs at h <;> cases h <;> simp

theorem matching_length_le (ranges : List (UInt8 × UInt8)) (bytes : List UInt8) :
    (matching ranges bytes).length ≤ bytes.length := by
  induction ranges generalizing bytes with
  | nil => simp [matching]
  | cons range ranges ih =>
    cases bytes with
    | nil => simp [matching]
    | cons byte bytes =>
      rw [matching]
      split_ifs
      · exact Nat.succ_le_succ (ih bytes)
      · exact Nat.zero_le _

/-- A byte below the ranges ends a piece as the end of the input does. -/
theorem matching_concat {ranges : List (UInt8 × UInt8)} {last : UInt8} (bytes : List UInt8)
    (h : ∀ range ∈ ranges, ¬ range.1 ≤ last) :
    matching ranges (bytes ++ [last]) = matching ranges bytes := by
  induction ranges generalizing bytes with
  | nil => simp [matching]
  | cons range ranges ih =>
    cases bytes with
    | nil =>
      rw [nil_append, matching, if_neg fun hin => h range mem_cons_self hin.1]
      rfl
    | cons byte bytes =>
      rw [cons_append, matching, matching, ih bytes fun r hr => h r (mem_cons_of_mem _ hr)]

theorem lossyChar_concat {last : UInt8} (hlast : last < 0x80) (lead : UInt8) (bytes : List UInt8) :
    lossyChar lead (bytes ++ [last]) = lossyChar lead bytes ∧
      (lossyChar lead bytes).2 ≤ bytes.length := by
  unfold lossyChar
  cases hranges : followers lead with
  | none => exact ⟨rfl, Nat.zero_le _⟩
  | some ranges =>
    have hbelow : ∀ range ∈ ranges, ¬ range.1 ≤ last := fun range hrange hle =>
      UInt8.not_le.mpr hlast (UInt8.le_trans (lo_of_followers hranges range hrange) hle)
    dsimp only
    rw [matching_concat bytes hbelow]
    exact ⟨rfl, matching_length_le ranges bytes⟩

theorem lossyFrom_concat {last : UInt8} (hlast : last < 0x80) {skip : ℕ} {bytes : List UInt8}
    (h : skip ≤ bytes.length) :
    lossyFrom skip (bytes ++ [last]) = lossyFrom skip bytes ++ [Char.ofNat last.toNat] := by
  induction bytes generalizing skip with
  | nil =>
    obtain rfl := Nat.le_zero.mp h
    simp [lossyFrom, lossyChar, followers, hlast, matching, joined]
  | cons lead bytes ih =>
    cases skip with
    | succ skip => exact ih (Nat.le_of_succ_le_succ h)
    | zero =>
      obtain ⟨hsame, hle⟩ := lossyChar_concat hlast lead bytes
      rw [cons_append, lossyFrom, hsame, ih hle, lossyFrom, cons_append]

/-- A byte of its own at the end is decoded by itself. -/
theorem fromUtf8Lossy_concat {last : UInt8} (hlast : last < 0x80) (bytes : List UInt8) :
    fromUtf8Lossy (bytes ++ [last]) = fromUtf8Lossy bytes ++ [Char.ofNat last.toNat] :=
  lossyFrom_concat hlast (Nat.zero_le _)

example : fromUtf8Lossy [0x61, 0xC3, 0xA9, 0xE2, 0x82, 0xAC, 0xF0, 0x9F, 0x98, 0x80, 0xE2, 0x82,
    0x62, 0xFF] = ['a', 'é', '€', '😀', '\uFFFD', 'b', '\uFFFD'] := by decide

end Lossy

/-- A text is cut at its first `c` in one way only. -/
theorem append_cons_cancel {c : Char} {a a' b b' : Str} (ha : c ∉ a) (ha' : c ∉ a')
    (h : a ++ c :: b = a' ++ c :: b') : a = a' ∧ b = b' := by
  have hsplit := (splitOnce_eq_some.mpr ⟨ha, rfl⟩).symm.trans (splitOnce_eq_some.mpr ⟨ha', h⟩)
  exact Prod.mk.inj (Option.some.inj hsplit)

/-- A text is cut at its last `c` in one way only. -/
theorem append_cons_inj {α : Type} {c : α} {a a' b b' : List α} (hb : c ∉ b) (hb' : c ∉ b') :
    a ++ c :: b = a' ++ c :: b' ↔ a = a' ∧ b = b' := by
  refine ⟨fun h => ?_, by rintro ⟨rfl, rfl⟩; rfl⟩
  obtain ⟨mid, rfl, hrest⟩ | ⟨mid, rfl, hrest⟩ := append_eq_append_iff.mp h
  · cases mid with
    | nil => simpa using hrest
    | cons x mid =>
      obtain ⟨rfl, rfl⟩ := List.cons.inj hrest
      simp at hb
  · cases mid with
    | nil => simpa using hrest.symm
    | cons x mid =>
      obtain ⟨rfl, rfl⟩ := List.cons.inj hrest
      simp at hb'

end Text
