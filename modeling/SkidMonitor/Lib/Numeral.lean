import Mathlib

/-! Decimal texts of natural numbers, as programs print and read them. -/
namespace Numeral

def print (n : ℕ) : List Char := Nat.toDigits 10 n

/-- A nonempty text of digits, read in base ten. -/
def read (text : List Char) : Option ℕ :=
  if text ≠ [] ∧ text.all Char.isDigit then some (Nat.ofDigitChars 10 text 0) else none

/-- How a 64-bit integer is read from text: one leading plus sign is allowed. -/
def readU64 (text : List Char) : Option UInt64 :=
  let digits := match text with
    | '+' :: rest => rest
    | _ => text
  match read digits with
  | some n => if n < 2 ^ 64 then some (UInt64.ofNat n) else none
  | none => none

theorem print_ne_nil (n : ℕ) : print n ≠ [] := Nat.toDigits_ne_nil

theorem print_isDigit (n : ℕ) : (print n).all Char.isDigit := by
  rw [List.all_eq_true]
  intro c hc
  exact Nat.isDigit_of_mem_toDigits (by decide) (by decide) hc

@[simp] theorem read_print (n : ℕ) : read (print n) = some n := by
  rw [read, if_pos ⟨print_ne_nil n, print_isDigit n⟩]
  exact congrArg some (Nat.ofDigitChars_toDigits (by decide) (by decide))

@[simp] theorem readU64_print (n : UInt64) : readU64 (print n.toNat) = some n := by
  have hplus : ∀ rest, print n.toNat ≠ '+' :: rest := by
    intro rest h
    have := print_isDigit n.toNat
    rw [h] at this
    simp at this
  have hn : n.toNat < 2 ^ 64 := n.toNat_lt
  unfold readU64
  split
  · rename_i rest h
    exact (hplus rest h).elim
  · simp only [read_print, if_pos hn, UInt64.ofNat_toNat]

end Numeral
