import Mathlib

/-! Double precision numbers as their bits, with the comparison of IEEE 754. -/

structure F64 where
  bits : UInt64
  deriving DecidableEq, Repr

namespace F64

/-- The bits without the sign. -/
def magnitude (x : F64) : ℕ := x.bits.toNat % 2 ^ 63

def isNaN (x : F64) : Bool := 0x7FF0000000000000 < x.magnitude

/-- Where the number stands on the line; both zeros stand at zero. -/
def place (x : F64) : ℤ := if x.bits.toNat < 2 ^ 63 then x.magnitude else -x.magnitude

/-- Nothing is below, above or equal to what is not a number. -/
def le (x y : F64) : Bool := !x.isNaN && !y.isNaN && decide (x.place ≤ y.place)

def zero : F64 := ⟨0⟩

def ninety : F64 := ⟨0x4056800000000000⟩

end F64

/-- Single precision numbers as their bits. -/
structure F32 where
  bits : UInt32
  deriving DecidableEq, Repr

/-- The double of the same value; what is not a number becomes quiet. -/
@[irreducible] def F32.toF64 (x : F32) : F64 :=
  let sign := x.bits.toNat / 2 ^ 31
  let exponent := x.bits.toNat / 2 ^ 23 % 2 ^ 8
  let fraction := x.bits.toNat % 2 ^ 23
  let magnitude :=
    if exponent = 0 then
      -- below the normal numbers the leading bit is part of the fraction
      if fraction = 0 then 0
      else (fraction.log2 + 874) * 2 ^ 52 + (fraction - 2 ^ fraction.log2) * 2 ^ (52 - fraction.log2)
    else if exponent = 255 then
      2047 * 2 ^ 52 + if fraction = 0 then 0 else (fraction ||| 2 ^ 22) * 2 ^ 29
    else (exponent + 896) * 2 ^ 52 + fraction * 2 ^ 29
  ⟨UInt64.ofNat (sign * 2 ^ 63 + magnitude)⟩

namespace F32

/-- The bits without the sign. -/
def magnitude (x : F32) : ℕ := x.bits.toNat % 2 ^ 31

def isNaN (x : F32) : Bool := 0x7F800000 < x.magnitude

def isFinite (x : F32) : Bool := x.magnitude < 0x7F800000

/-- Where the number stands on the line; both zeros stand at zero. -/
def place (x : F32) : ℤ := if x.bits.toNat < 2 ^ 31 then x.magnitude else -x.magnitude

/-- Nothing is below, above or equal to what is not a number. -/
def le (x y : F32) : Bool := !x.isNaN && !y.isNaN && decide (x.place ≤ y.place)

def zero : F32 := ⟨0⟩

def two : F32 := ⟨0x40000000⟩

/-- Where the bits stand in the total order: the signed ones come first, the largest at the start. -/
def totalPlace (x : F32) : ℤ :=
  if x.bits.toNat < 2 ^ 31 then x.bits.toNat else 2 ^ 31 - 1 - x.bits.toNat

def totalCmp (x y : F32) : Ordering := compare x.totalPlace y.totalPlace

end F32
