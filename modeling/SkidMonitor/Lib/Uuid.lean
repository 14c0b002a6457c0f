import Mathlib

/-! UUIDs and their texts: the hyphenated text that is printed, and the texts that
are read (simple, hyphenated, braced and as a URN). -/
namespace Uuids

open List

abbrev Uuid := BitVec 128

/-- The last `k` hexadecimal digits of a number, highest first. -/
def hexDigits : ℕ → ℕ → List ℕ
  | 0, _ => []
  | k + 1, n => hexDigits k (n / 16) ++ [n % 16]

def joinHex (ds : List ℕ) : ℕ := ds.foldl (fun n d => n * 16 + d) 0

def hexChar (d : ℕ) : Char := Char.ofNat (if d < 10 then 48 + d else 87 + d)

def hexValue (c : Char) : Option ℕ :=
  if '0' ≤ c ∧ c ≤ '9' then some (c.toNat - 48)
  else if 'a' ≤ c ∧ c ≤ 'f' then some (c.toNat - 87)
  else if 'A' ≤ c ∧ c ≤ 'F' then some (c.toNat - 55)
  else none

def hyphenate (cs : List Char) : List Char :=
  cs.take 8 ++ '-' :: ((cs.drop 8).take 4 ++ '-' :: ((cs.drop 12).take 4 ++
    '-' :: ((cs.drop 16).take 4 ++ '-' :: cs.drop 20)))

def print (u : Uuid) : List Char := hyphenate ((hexDigits 32 u.toNat).map hexChar)

def parseSimple (cs : List Char) : Option Uuid :=
  (cs.mapM hexValue).map fun ds => BitVec.ofNat 128 (joinHex ds)

def parseHyphenated (cs : List Char) : Option Uuid :=
  if [8, 13, 18, 23].all (fun i => cs[i]? == some '-') then
    parseSimple (cs.take 8 ++ (cs.drop 9).take 4 ++ (cs.drop 14).take 4 ++
      (cs.drop 19).take 4 ++ cs.drop 24)
  else none

def parse (cs : List Char) : Option Uuid :=
  if cs.length = 32 then parseSimple cs
  else if cs.length = 36 then parseHyphenated cs
  else if cs.length = 38 ∧ cs.head? = some '{' ∧ cs.getLast? = some '}' then
    parseHyphenated (cs.drop 1).dropLast
  else if cs.length = 45 ∧ cs.take 9 = ['u', 'r', 'n', ':', 'u', 'u', 'i', 'd', ':'] then
    parseHyphenated (cs.drop 9)
  else none

@[simp] theorem length_hexDigits (k n : ℕ) : (hexDigits k n).length = k := by
  induction k generalizing n with
  | zero => rfl
  | succ k ih => simp [hexDigits, ih]

theorem hexDigits_lt (k n : ℕ) : ∀ d ∈ hexDigits k n, d < 16 := by
  induction k generalizing n with
  | zero => simp [hexDigits]
  | succ k ih =>
    intro d hd
    simp only [hexDigits, mem_append, mem_singleton] at hd
    rcases hd with hd | rfl
    · exact ih (n / 16) d hd
    · exact Nat.mod_lt _ (by decide)

theorem joinHex_hexDigits (k n : ℕ) : joinHex (hexDigits k n) = n % 16 ^ k := by
  induction k generalizing n with
  | zero => simp [hexDigits, joinHex, Nat.mod_one]
  | succ k ih =>
    have hjoin : joinHex (hexDigits (k + 1) n) = joinHex (hexDigits k (n / 16)) * 16 + n % 16 := by
      simp [joinHex, hexDigits, foldl_append]
    rw [hjoin, ih, Nat.pow_succ, Nat.mul_comm (16 ^ k), Nat.mod_mul]
    omega

theorem hexValue_hexChar : ∀ d < 16, hexValue (hexChar d) = some d := by decide

theorem mapM_hexValue {ds : List ℕ} (h : ∀ d ∈ ds, d < 16) :
    (ds.map hexChar).mapM hexValue = some ds := by
  induction ds with
  | nil => rfl
  | cons d ds ih =>
    simp only [map_cons, mapM_cons, hexValue_hexChar d (h d mem_cons_self),
      ih fun e he => h e (mem_cons_of_mem d he)]
    rfl

theorem parseSimple_hexDigits (u : Uuid) :
    parseSimple ((hexDigits 32 u.toNat).map hexChar) = some u := by
  have hlt : u.toNat < 16 ^ 32 := u.isLt
  rw [parseSimple, mapM_hexValue (hexDigits_lt 32 u.toNat), Option.map_some, joinHex_hexDigits,
    Nat.mod_eq_of_lt hlt, BitVec.ofNat_toNat, BitVec.setWidth_eq]

/-- Hyphens are put where they are looked for. -/
theorem parseHyphenated_hyphenate {cs : List Char} (h : cs.length = 32) :
    parseHyphenated (hyphenate cs) = parseSimple cs := by
  obtain ⟨a, b, c, d, e, rfl, ha, hb, hc, hd⟩ : ∃ a b c d e, cs = a ++ b ++ c ++ d ++ e ∧
      a.length = 8 ∧ b.length = 4 ∧ c.length = 4 ∧ d.length = 4 := by
    have hcut : ∀ i, cs.drop i = (cs.drop i).take 4 ++ cs.drop (i + 4) := by
      intro i
      rw [← drop_drop, take_append_drop]
    refine ⟨cs.take 8, (cs.drop 8).take 4, (cs.drop 12).take 4, (cs.drop 16).take 4,
      cs.drop 20, ?_, by simp [h], by simp [h], by simp [h], by simp [h]⟩
    simp only [append_assoc]
    rw [← hcut 16, ← hcut 12, ← hcut 8, take_append_drop]
  have hhyph : hyphenate (a ++ b ++ c ++ d ++ e) =
      a ++ '-' :: (b ++ '-' :: (c ++ '-' :: (d ++ '-' :: e))) := by
    simp (disch := omega) [hyphenate, drop_append, ha, hb, hc,
      drop_of_length_le]
  rw [hhyph, parseHyphenated, if_pos]
  · simp (disch := omega) [drop_append, ha, hb, hc, hd,
      drop_of_length_le]
  · simp [getElem?_append, ha, hb, hc, hd]

@[simp] theorem length_print (u : Uuid) : (print u).length = 36 := by
  simp [print, hyphenate]

/-- A printed UUID is read back. -/
@[simp] theorem parse_print (u : Uuid) : parse (print u) = some u := by
  have hlen : ((hexDigits 32 u.toNat).map hexChar).length = 32 := by simp
  rw [parse, if_neg (by simp), if_pos (length_print u), print, parseHyphenated_hyphenate hlen,
    parseSimple_hexDigits]

theorem print_injective : Function.Injective print := by
  intro u v h
  have hparse := congrArg parse h
  rw [parse_print, parse_print] at hparse
  exact Option.some.inj hparse

theorem mem_hyphenate {c : Char} {cs : List Char} (h : c ∈ hyphenate cs) : c = '-' ∨ c ∈ cs := by
  have htake : ∀ n, ∀ l : List Char, c ∈ l.take n → c ∈ l := fun n l => mem_of_mem_take
  have hdrop : ∀ n, c ∈ cs.drop n → c ∈ cs := fun n => mem_of_mem_drop
  simp only [hyphenate, mem_append, mem_cons] at h
  rcases h with h | h | h | h | h | h | h | h | h
  · exact Or.inr (htake _ _ h)
  · exact Or.inl h
  · exact Or.inr (hdrop _ (htake _ _ h))
  · exact Or.inl h
  · exact Or.inr (hdrop _ (htake _ _ h))
  · exact Or.inl h
  · exact Or.inr (hdrop _ (htake _ _ h))
  · exact Or.inl h
  · exact Or.inr (hdrop _ h)

theorem dot_notMem_print (u : Uuid) : '.' ∉ print u := by
  intro h
  rcases mem_hyphenate h with h | h
  · exact absurd h (by decide)
  · obtain ⟨d, hd, hchar⟩ := mem_map.mp h
    have hdigits : ∀ d < 16, hexChar d ≠ '.' := by decide
    exact hdigits d (hexDigits_lt 32 _ d hd) hchar

end Uuids
