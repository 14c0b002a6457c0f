import SkidMonitor.Lib.Numeral

/-! Texts of values. A framed text says itself where it ends, so framed texts can be joined. -/

/-- The texts that are written for the values of a type, and read again. -/
structure Codec (α : Type) where
  encode : α → List Char
  decode : List Char → Option α
  decode_encode : ∀ a, decode (encode a) = some a

structure Framed (α : Type) where
  write : α → List Char
  read : List Char → Option (α × List Char)
  read_write : ∀ a rest, read (write a ++ rest) = some (a, rest)

namespace Framed

open List

variable {α β : Type}

def codec (f : Framed α) : Codec α where
  encode := f.write
  decode text := (f.read text).map Prod.fst
  decode_encode a := by
    have h := f.read_write a []
    rw [append_nil] at h
    rw [h]
    rfl

/-- Values that are written as values of another type. -/
def along (f : Framed α) (embed : β → α) (back : α → Option β) (h : ∀ b, back (embed b) = some b) :
    Framed β where
  write b := f.write (embed b)
  read text := (f.read text).bind fun p => (back p.1).map (·, p.2)
  read_write b rest := by
    rw [f.read_write]
    simp [h]

def pair (f : Framed α) (g : Framed β) : Framed (α × β) where
  write p := f.write p.1 ++ g.write p.2
  read text := (f.read text).bind fun p => (g.read p.2).map fun q => ((p.1, q.1), q.2)
  read_write p rest := by
    rw [append_assoc, f.read_write, Option.bind_some, g.read_write]
    rfl

def char : Framed Char where
  write c := [c]
  read
    | [] => none
    | c :: rest => some (c, rest)
  read_write _ _ := rfl

/-- The digits of a number, and a semicolon. -/
def nat : Framed ℕ where
  write n := Numeral.print n ++ [';']
  read text := (Numeral.read (text.takeWhile Char.isDigit)).map
    (·, (text.dropWhile Char.isDigit).tail)
  read_write n rest := by
    have hdigits : ∀ c ∈ Numeral.print n, c.isDigit := all_eq_true.mp (Numeral.print_isDigit n)
    rw [append_assoc, takeWhile_append_of_pos hdigits,
      dropWhile_append_of_pos hdigits]
    simp

def readMany (f : Framed α) : ℕ → List Char → Option (List α × List Char)
  | 0, text => some ([], text)
  | n + 1, text => (f.read text).bind fun p => (readMany f n p.2).map fun q => (p.1 :: q.1, q.2)

theorem readMany_write (f : Framed α) (as : List α) (rest : List Char) :
    readMany f as.length (as.flatMap f.write ++ rest) = some (as, rest) := by
  induction as with
  | nil => rfl
  | cons a as ih =>
    rw [flatMap_cons, append_assoc, length_cons, readMany, f.read_write,
      Option.bind_some, ih]
    rfl

/-- The number of values, and then the values. -/
def list (f : Framed α) : Framed (List α) where
  write as := nat.write as.length ++ as.flatMap f.write
  read text := (nat.read text).bind fun p => readMany f p.1 p.2
  read_write as rest := by
    rw [append_assoc, nat.read_write, Option.bind_some, readMany_write]

def int : Framed ℤ := (pair char nat).along
  (fun n => (if n < 0 then '-' else '+', n.natAbs))
  (fun p => some (if p.1 = '-' then -p.2 else p.2)) (by
    intro n
    by_cases h : n < 0
    · simp [h, abs_of_neg]
    · simp [h]
      omega)

end Framed
