import Mathlib

/-! A stream that arrives in pieces: a read returns some of the next items, at least one while
there are any, and may be interrupted. -/
namespace Stream

open List

/-- What the source has ready for one read. -/
inductive Piece (α : Type) where
  | items (head : α) (tail : List α)
  | interrupted
  deriving DecidableEq, Repr

variable {α : Type} {stream stream' : List (Piece α)} {xs ys : List α} {n : ℕ}

def Piece.content : Piece α → List α
  | items head tail => head :: tail
  | interrupted => []

/-- The items still to come. -/
def content (stream : List (Piece α)) : List α := stream.flatMap Piece.content

/-- Puts back what a read has left of its piece. -/
def unread (xs : List α) (stream : List (Piece α)) : List (Piece α) :=
  match xs with
  | [] => stream
  | head :: tail => .items head tail :: stream

/-- Reads again and again until there are `n` items; `none` is an end too early. -/
def readExact : List (Piece α) → ℕ → Option (List α) × List (Piece α)
  | stream, 0 => (some [], stream)
  | [], _ + 1 => (none, [])
  | .interrupted :: stream, n + 1 => readExact stream (n + 1)
  | .items head tail :: stream, n + 1 =>
    if n < tail.length then
      (some ((head :: tail).take (n + 1)), unread ((head :: tail).drop (n + 1)) stream)
    else
      let (rest, stream) := readExact stream (n - tail.length)
      (rest.map ((head :: tail) ++ ·), stream)

@[simp] theorem content_cons (piece : Piece α) (stream : List (Piece α)) :
    content (piece :: stream) = piece.content ++ content stream := flatMap_cons

/-- However the items arrive, the first `n` of them are read and the others are left. -/
theorem readExact_of_append (h : content stream = xs ++ ys) :
    ∃ stream', readExact stream xs.length = (some xs, stream') ∧ content stream' = ys := by
  induction stream generalizing xs with
  | nil =>
    obtain ⟨rfl, rfl⟩ := append_eq_nil_iff.mp h.symm
    exact ⟨[], rfl, rfl⟩
  | cons piece stream ih =>
    cases xs with
    | nil => exact ⟨_, readExact.eq_1 _, h⟩
    | cons x xs =>
      cases piece with
      | interrupted => exact ih h
      | items head tail =>
        rw [content_cons, Piece.content, cons_append, cons_append] at h
        obtain ⟨rfl, htail⟩ := List.cons.inj h
        rw [length_cons, readExact]
        rcases append_eq_append_iff.mp htail with ⟨more, rfl, hmore⟩ | ⟨left, rfl, rfl⟩
        · obtain ⟨stream', hread, hrest⟩ := ih hmore
          rw [if_neg (by simp), length_append, Nat.add_sub_cancel_left, hread]
          exact ⟨stream', rfl, hrest⟩
        · cases left with
          | nil =>
            rw [if_neg (by simp), append_nil, Nat.sub_self]
            exact ⟨stream, by simp [readExact], rfl⟩
          | cons y left =>
            rw [if_pos (by simp), take_succ_cons, drop_succ_cons, take_left,
              drop_left]
            exact ⟨_, rfl, rfl⟩

/-- When items are missing the read fails. -/
theorem readExact_of_lt (h : (content stream).length < n) : (readExact stream n).1 = none := by
  induction stream generalizing n with
  | nil =>
    obtain ⟨n, rfl⟩ : ∃ m, n = m + 1 := ⟨n - 1, by omega⟩
    rfl
  | cons piece stream ih =>
    obtain ⟨n, rfl⟩ : ∃ m, n = m + 1 := ⟨n - 1, by omega⟩
    rw [content_cons, length_append] at h
    cases piece with
    | interrupted => exact ih (by simpa [Piece.content] using h)
    | items head tail =>
      rw [Piece.content, length_cons] at h
      rw [readExact, if_neg (by omega)]
      have hrest := @ih (n - tail.length) (by omega)
      simp only [hrest, Option.map_none]

end Stream
