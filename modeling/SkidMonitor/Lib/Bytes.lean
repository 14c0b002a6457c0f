import Mathlib

/-! Reading and writing slices, where an index out of range is a panic (`none`), and numbers of
two and four bytes. -/
namespace Bytes

open List

section Slices

variable {α : Type} {xs ys w out src : List α} {i j : ℕ} {x : α}

/-- The items from `i` up to `j`. -/
def slice (xs : List α) (i j : ℕ) : Option (List α) :=
  if i ≤ j ∧ j ≤ xs.length then some ((xs.drop i).take (j - i)) else none

/-- The items from `i` on. -/
def sliceFrom (xs : List α) (i : ℕ) : Option (List α) :=
  if i ≤ xs.length then some (xs.drop i) else none

/-- Overwrites the items from `i` up to `j` by as many others. -/
def copyFromSlice (out : List α) (i j : ℕ) (src : List α) : Option (List α) :=
  if i ≤ j ∧ j ≤ out.length ∧ src.length = j - i then some (out.take i ++ src ++ out.drop j)
  else none

def setAt (out : List α) (i : ℕ) (x : α) : Option (List α) :=
  if i < out.length then some (out.set i x) else none

theorem slice_append (xs : List α) (h : i + j ≤ ys.length) :
    slice (xs ++ ys) (xs.length + i) (xs.length + i + j) = some ((ys.drop i).take j) := by
  rw [slice, if_pos ⟨by omega, by rw [length_append]; omega⟩, Nat.add_sub_cancel_left,
    ← drop_drop, drop_left]

theorem sliceFrom_append (xs : List α) (h : i ≤ ys.length) :
    sliceFrom (xs ++ ys) (xs.length + i) = some (ys.drop i) := by
  rw [sliceFrom, if_pos (by rw [length_append]; omega), ← drop_drop, drop_left]

/-- A buffer whose first items are `w`. -/
def fill (w out : List α) : List α := w ++ out.drop w.length

@[simp] theorem fill_nil (out : List α) : fill [] out = out := rfl

theorem length_fill (h : w.length ≤ out.length) : (fill w out).length = out.length := by
  rw [fill, length_append, length_drop]
  omega

theorem take_fill : (fill w out).take w.length = w := take_left

theorem drop_fill : (fill w out).drop w.length = out.drop w.length := drop_left

/-- The next items are copied behind those already written. -/
theorem copyFromSlice_fill (hi : i = w.length) (hj : j = i + src.length) (h : j ≤ out.length) :
    copyFromSlice (fill w out) i j src = some (fill (w ++ src) out) := by
  subst hi hj
  have hlen : (fill w out).length = out.length := length_fill (by omega)
  rw [copyFromSlice, if_pos ⟨by omega, by omega, by omega⟩, take_fill]
  have hdrop : (fill w out).drop (w.length + src.length) =
      out.drop (w ++ src).length := by
    rw [← drop_drop, drop_fill, drop_drop, length_append]
  rw [hdrop]
  rfl

theorem setAt_fill (hi : i = w.length) (h : i < out.length) :
    setAt (fill w out) i x = some (fill (w ++ [x]) out) := by
  subst hi
  have hlen : (fill w out).length = out.length := length_fill (by omega)
  have hnext : out.drop w.length = out[w.length] :: out.drop (w.length + 1) :=
    drop_eq_getElem_cons h
  rw [setAt, if_pos (by omega), fill, set_append_right _ _ (Nat.le_refl _), Nat.sub_self,
    hnext, fill, length_append, append_assoc]
  rfl

theorem copyFromSlice_bind {β : Type} {next : List α → Option β} (hi : i = w.length)
    (hj : j = i + src.length) (h : j ≤ out.length) :
    (copyFromSlice (fill w out) i j src >>= next) = next (fill (w ++ src) out) := by
  rw [copyFromSlice_fill hi hj h]
  rfl

theorem setAt_bind {β : Type} {next : List α → Option β} (hi : i = w.length)
    (h : i < out.length) :
    (setAt (fill w out) i x >>= next) = next (fill (w ++ [x]) out) := by
  rw [setAt_fill hi h]
  rfl

/-- The first `n` pieces of `size` items. -/
def pieces (size : ℕ) : ℕ → List α → List (List α)
  | 0, _ => []
  | n + 1, xs => xs.take size :: pieces size n (xs.drop size)

theorem length_pieces (size n : ℕ) (xs : List α) : (pieces size n xs).length = n := by
  induction n generalizing xs with
  | zero => rfl
  | succ n ih => rw [pieces, length_cons, ih]

theorem getElem?_pieces {size n : ℕ} (h : i < n) :
    (pieces size n xs)[i]? = some ((xs.drop (i * size)).take size) := by
  induction n generalizing i xs with
  | zero => omega
  | succ n ih =>
    cases i with
    | zero => simp [pieces]
    | succ i =>
      rw [pieces, getElem?_cons_succ, ih (by omega), drop_drop]
      congr 3
      rw [Nat.add_one_mul, Nat.add_comm]

theorem flatten_pieces {size n : ℕ} (h : xs.length = n * size) :
    (pieces size n xs).flatten = xs := by
  induction n generalizing xs with
  | zero =>
    rw [Nat.zero_mul] at h
    rw [eq_nil_of_length_eq_zero h]
    rfl
  | succ n ih =>
    rw [Nat.add_one_mul] at h
    have hrest : (xs.drop size).length = n * size := by
      rw [length_drop]
      omega
    rw [pieces, flatten_cons, ih hrest, take_append_drop]

theorem length_of_mem_pieces {size n : ℕ} (h : xs.length = n * size) {piece : List α}
    (hpiece : piece ∈ pieces size n xs) : piece.length = size := by
  induction n generalizing xs with
  | zero => cases hpiece
  | succ n ih =>
    rw [Nat.add_one_mul] at h
    rcases mem_cons.mp hpiece with rfl | hpiece
    · rw [length_take]
      omega
    · refine ih ?_ hpiece
      rw [length_drop]
      omega

end Slices

section BigEndian

def u16FromBe (a b : UInt8) : UInt16 := UInt16.ofNat (a.toNat * 2 ^ 8 + b.toNat)

def u32FromBe (a b c d : UInt8) : UInt32 :=
  UInt32.ofNat (a.toNat * 2 ^ 24 + b.toNat * 2 ^ 16 + c.toNat * 2 ^ 8 + d.toNat)

def u16ToBe (x : UInt16) : List UInt8 := [UInt8.ofNat (x.toNat / 2 ^ 8), UInt8.ofNat x.toNat]

def u32ToBe (x : UInt32) : List UInt8 :=
  [UInt8.ofNat (x.toNat / 2 ^ 24), UInt8.ofNat (x.toNat / 2 ^ 16), UInt8.ofNat (x.toNat / 2 ^ 8),
    UInt8.ofNat x.toNat]

@[simp] theorem length_u16ToBe (x : UInt16) : (u16ToBe x).length = 2 := rfl

@[simp] theorem length_u32ToBe (x : UInt32) : (u32ToBe x).length = 4 := rfl

theorem u16FromBe_toBe (x : UInt16) :
    u16FromBe (UInt8.ofNat (x.toNat / 2 ^ 8)) (UInt8.ofNat x.toNat) = x := by
  have hx := x.toNat_lt
  apply UInt16.toNat.inj
  simp only [u16FromBe, UInt16.toNat_ofNat', UInt8.toNat_ofNat']
  omega

theorem u32FromBe_toBe (x : UInt32) :
    u32FromBe (UInt8.ofNat (x.toNat / 2 ^ 24)) (UInt8.ofNat (x.toNat / 2 ^ 16))
      (UInt8.ofNat (x.toNat / 2 ^ 8)) (UInt8.ofNat x.toNat) = x := by
  have hx := x.toNat_lt
  apply UInt32.toNat.inj
  simp only [u32FromBe, UInt32.toNat_ofNat', UInt8.toNat_ofNat']
  omega

theorem u32ToBe_inj {x y : UInt32} (h : u32ToBe x = u32ToBe y) : x = y := by
  simp only [u32ToBe, List.cons.injEq, and_true] at h
  rw [← u32FromBe_toBe x, ← u32FromBe_toBe y, h.1, h.2.1, h.2.2.1, h.2.2.2]

theorem u16ToBe_fromBe (a b : UInt8) : u16ToBe (u16FromBe a b) = [a, b] := by
  have ha := a.toNat_lt
  have hb := b.toNat_lt
  simp only [u16ToBe, List.cons.injEq, and_true, ← UInt8.toNat_inj, u16FromBe,
    UInt16.toNat_ofNat', UInt8.toNat_ofNat']
  omega

theorem u32ToBe_fromBe (a b c d : UInt8) : u32ToBe (u32FromBe a b c d) = [a, b, c, d] := by
  have ha := a.toNat_lt
  have hb := b.toNat_lt
  have hc := c.toNat_lt
  have hd := d.toNat_lt
  simp only [u32ToBe, List.cons.injEq, and_true, ← UInt8.toNat_inj, u32FromBe,
    UInt32.toNat_ofNat', UInt8.toNat_ofNat']
  omega

end BigEndian

section LittleEndian

def u32FromLe (a b c d : UInt8) : UInt32 := u32FromBe d c b a

def u32ToLe (x : UInt32) : List UInt8 :=
  [UInt8.ofNat x.toNat, UInt8.ofNat (x.toNat / 2 ^ 8), UInt8.ofNat (x.toNat / 2 ^ 16),
    UInt8.ofNat (x.toNat / 2 ^ 24)]

@[simp] theorem length_u32ToLe (x : UInt32) : (u32ToLe x).length = 4 := rfl

theorem u32FromLe_toLe (x : UInt32) :
    u32FromLe (UInt8.ofNat x.toNat) (UInt8.ofNat (x.toNat / 2 ^ 8))
      (UInt8.ofNat (x.toNat / 2 ^ 16)) (UInt8.ofNat (x.toNat / 2 ^ 24)) = x :=
  u32FromBe_toBe x

end LittleEndian

end Bytes
