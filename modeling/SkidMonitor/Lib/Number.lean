import Mathlib

/-! JSON numbers and exact decimal columns. A reader of JSON texts keeps integers and
doubles apart; a decimal column keeps only the value and the number of fraction digits.
A number written to such a column comes back as a text of the same value. -/
namespace Numbers

/-- The shortest decimal of a double: `digits * 10 ^ exp` with no trailing zero. -/
structure Decimal where
  neg : Bool
  digits : ℕ
  exp : ℤ
  normal : digits % 10 ≠ 0 ∨ (digits = 0 ∧ exp = 0)
  deriving DecidableEq, Repr

instance neZero_u64 : NeZero (2 ^ 64) := ⟨by decide⟩

/-- A JSON number once read: `negInt n` is `-(n + 1)`. -/
inductive Number where
  | posInt (n : Fin (2 ^ 64))
  | negInt (n : Fin (2 ^ 63))
  | float (d : Decimal)
  deriving DecidableEq, Repr

def Number.asU64 : Number → Option ℕ
  | .posInt n => some n
  | _ => none

/-- The text of a number: its digits, how many of them follow the point, and the
exponent if one is written. -/
structure Literal where
  neg : Bool
  digits : ℕ
  fraction : ℕ
  exponent : Option ℤ
  deriving DecidableEq, Repr

/-- A decimal column value: `coeff / 10 ^ scale`. -/
structure Numeric where
  neg : Bool
  coeff : ℕ
  scale : ℕ
  deriving DecidableEq, Repr

def Decimal.length (d : Decimal) : ℕ := (Nat.toDigits 10 d.digits).length

/-- Where the decimal point stands, counted from the first digit. -/
def Decimal.point (d : Decimal) : ℤ := d.length + d.exp

/-- How a double is printed. -/
def Decimal.print (d : Decimal) : Literal :=
  if 0 ≤ d.exp ∧ d.point ≤ 16 then
    ⟨d.neg, d.digits * 10 ^ d.exp.toNat * 10, 1, none⟩
  else if -5 < d.point ∧ d.point ≤ 16 then
    ⟨d.neg, d.digits, (-d.exp).toNat, none⟩
  else ⟨d.neg, d.digits, d.length - 1, some (d.point - 1)⟩

def Number.print : Number → Literal
  | .posInt n => ⟨false, n, 0, none⟩
  | .negInt n => ⟨true, n + 1, 0, none⟩
  | .float d => d.print

/-- A decimal column expands the exponent, keeps the fraction digits written and has
no negative zero. -/
def Numeric.ofLiteral (l : Literal) : Numeric :=
  let scale : ℤ := l.fraction - l.exponent.getD 0
  ⟨l.neg && l.digits != 0, l.digits * 10 ^ (-scale).toNat, scale.toNat⟩

def Numeric.print (x : Numeric) : Literal := ⟨x.neg, x.coeff, x.scale, none⟩

/-- The text that a decimal column returns for a number written to it. -/
def Number.columnText (n : Number) : Literal := (Numeric.ofLiteral n.print).print

section Value

def sign (neg : Bool) : ℚ := if neg then -1 else 1

def Decimal.value (d : Decimal) : ℚ := sign d.neg * (d.digits * 10 ^ d.exp)

def Number.value : Number → ℚ
  | .posInt n => n.val
  | .negInt n => -(n.val + 1)
  | .float d => d.value

def Literal.value (l : Literal) : ℚ :=
  sign l.neg * (l.digits * 10 ^ (l.exponent.getD 0 - l.fraction))

end Value

/-- Equality of numbers as a JSON library has it: an integer never equals a double,
and the two zeros are equal. -/
def Number.same : Number → Number → Bool
  | .posInt a, .posInt b => a == b
  | .negInt a, .negInt b => a == b
  | .float d, .float e => d == e || (d.digits == 0 && e.digits == 0)
  | _, _ => false

theorem Number.same_symm {n m : Number} (h : n.same m = true) : m.same n = true := by
  cases n <;> cases m <;>
    simp only [Number.same, Bool.or_eq_true, Bool.and_eq_true, beq_iff_eq] at h ⊢
  case posInt.posInt | negInt.negInt => exact h.symm
  case float.float => exact h.imp Eq.symm And.symm
  all_goals cases h

theorem Number.same_trans {n m k : Number} (h : n.same m = true) (h' : m.same k = true) :
    n.same k = true := by
  cases n <;> cases m <;> cases k <;> simp_all [Number.same]
  rcases h with rfl | h
  · exact h'
  · rcases h' with rfl | h'
    · exact Or.inr h
    · exact Or.inr ⟨h.1, h'.2⟩

-- The exponent of a large double is gone, and with it what told the double from an integer.
example : (Number.float ⟨false, 2, 16, by decide⟩).columnText =
    (Number.posInt 20000000000000000).columnText := by
  decide

end Numbers
