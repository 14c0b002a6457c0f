import SkidMonitor.Lib.Bytes

/-! Lists that are made of blocks of one size, and the stable order in which they are moved. -/
namespace Blocks

open Bytes List

variable {α : Type}

def block (size : ℕ) (xs : List α) (i : ℕ) : List α := (xs.drop (size * i)).take size

/-- The block at one place is overwritten by the one that the original has at another. -/
def copyBlock (size : ℕ) (original out : List α) (target source : ℕ) : Option (List α) :=
  (slice original (size * source) (size * source + size)).bind
    (copyFromSlice out (size * target) (size * target + size))

/-- Block after block, from this target on. -/
def copyBlocks (size : ℕ) (original : List α) : ℕ → List ℕ → List α → Option (List α)
  | _, [], out => some out
  | target, source :: order, out =>
    (copyBlock size original out target source).bind (copyBlocks size original (target + 1) order)

/-- The blocks of the second list are those of the first one, in this order. -/
def Rearranges (size : ℕ) (order : List ℕ) (xs ys : List α) : Prop :=
  ys.length = xs.length ∧ ∀ target source, order[target]? = some source →
    ∀ k < size, ys[size * target + k]? = xs[size * source + k]?

section Copy

variable {size n target : ℕ} {original out : List α} {order : List ℕ}

theorem length_block {i : ℕ} (h : size * i + size ≤ original.length) :
    (block size original i).length = size := by
  simp only [block, length_take, length_drop]
  omega

theorem copyBlock_eq {source : ℕ} (htarget : size * target + size ≤ out.length)
    (hsource : size * source + size ≤ original.length) :
    copyBlock size original out target source =
      some (out.take (size * target) ++ block size original source ++
        out.drop (size * target + size)) := by
  have hblock := length_block hsource
  rw [copyBlock, slice, if_pos ⟨by omega, hsource⟩, Nat.add_sub_cancel_left, Option.bind_some,
    copyFromSlice, if_pos ⟨by omega, htarget, by rw [Nat.add_sub_cancel_left]; exact hblock⟩]
  rfl

theorem getElem?_block {i k : ℕ} (hk : k < size) :
    (block size original i)[k]? = original[size * i + k]? := by
  rw [block, getElem?_take_of_lt hk, getElem?_drop]

/-- What stands before the first target is kept, and the blocks follow it in order. -/
theorem copyBlocks_eq (hsources : ∀ source ∈ order, size * source + size ≤ original.length)
    (hlength : out.length = size * (target + order.length)) :
    copyBlocks size original target order out =
      some (out.take (size * target) ++ order.flatMap (block size original)) := by
  induction order generalizing target out with
  | nil =>
    have hall : out.take (size * target) = out := take_of_length_le hlength.le
    rw [copyBlocks, hall, flatMap_nil, append_nil]
  | cons source order ih =>
    have hsource := hsources source mem_cons_self
    have hfits : size * target + size ≤ out.length := by
      rw [hlength, length_cons, ← Nat.mul_succ]
      exact Nat.mul_le_mul_left _ (by omega)
    have hblock := length_block hsource
    rw [copyBlocks, copyBlock_eq hfits hsource, Option.bind_some, ih]
    · have hdone : (out.take (size * target) ++ block size original source).length =
          size * (target + 1) := by
        rw [length_append, length_take, hblock, Nat.mul_succ]
        omega
      rw [take_append_of_le_length hdone.ge, take_of_length_le hdone.le,
        flatMap_cons, append_assoc]
    · exact fun s hs => hsources s (mem_cons_of_mem _ hs)
    · have hsame : size * (target + 1 + order.length) = out.length := by
        rw [hlength, length_cons, Nat.add_right_comm, Nat.add_assoc]
      simp only [length_append, length_take, length_drop, hblock, hsame]
      omega

theorem length_flatMap_block (h : ∀ source ∈ order, size * source + size ≤ original.length) :
    (order.flatMap (block size original)).length = size * order.length := by
  induction order with
  | nil => rfl
  | cons source order ih =>
    rw [flatMap_cons, length_append, length_block (h source mem_cons_self),
      ih fun s hs => h s (mem_cons_of_mem _ hs), length_cons, Nat.mul_succ, Nat.add_comm]

theorem getElem?_flatMap_block (h : ∀ source ∈ order, size * source + size ≤ original.length)
    {source k : ℕ} (hsource : order[target]? = some source) (hk : k < size) :
    (order.flatMap (block size original))[size * target + k]? = original[size * source + k]? := by
  induction order generalizing target with
  | nil => simp at hsource
  | cons first order ih =>
    have hfirst := length_block (h first mem_cons_self)
    rw [flatMap_cons]
    cases target with
    | zero =>
      obtain rfl : first = source := by simpa using hsource
      rw [getElem?_append_left (by omega), Nat.mul_zero, Nat.zero_add, getElem?_block hk]
    | succ target =>
      rw [getElem?_append_right (by rw [hfirst, Nat.mul_succ]; omega), hfirst, Nat.mul_succ,
        show size * target + size + k - size = size * target + k by omega]
      exact ih (fun s hs => h s (mem_cons_of_mem _ hs)) (by simpa using hsource)

/-- Copying all blocks in an order of theirs moves whole blocks and nothing else. -/
theorem copyBlocks_rearranges (hlength : original.length = size * n)
    (horder : order.Perm (List.range n)) :
    ∃ out, copyBlocks size original 0 order original = some out ∧
      Rearranges size order original out := by
  have hn : order.length = n := horder.length_eq.trans length_range
  have hsources : ∀ source ∈ order, size * source + size ≤ original.length := by
    intro source hsource
    rw [hlength, ← Nat.mul_succ]
    exact Nat.mul_le_mul_left _ (mem_range.mp (horder.mem_iff.mp hsource))
  refine ⟨order.flatMap (block size original), ?_, ?_, ?_⟩
  · rw [copyBlocks_eq hsources (by rw [hlength, hn, Nat.zero_add])]
    rfl
  · rw [length_flatMap_block hsources, hn, hlength]
  · exact fun target source hsource k hk => getElem?_flatMap_block hsources hsource hk

end Copy

section Order

variable (le : α → α → Bool)

/-- The comparison of two elements that may be missing; a missing one comes first. -/
def leOption : Option α → Option α → Bool
  | none, _ => true
  | some _, none => false
  | some a, some b => le a b

/-- The positions of a list in the order of its elements, equal ones in their own order. -/
def stableOrder (xs : List α) : List ℕ :=
  (List.range xs.length).mergeSort fun i j => leOption le xs[i]? xs[j]?

variable {le} {xs : List α}

theorem stableOrder_perm : (stableOrder le xs).Perm (List.range xs.length) :=
  mergeSort_perm _ _

theorem leOption_trans (h : ∀ a b c, le a b → le b c → le a c) (a b c : Option α) :
    leOption le a b → leOption le b c → leOption le a c := by
  rcases a with - | a <;> rcases b with - | b <;> rcases c with - | c <;> simp [leOption]
  exact h a b c

theorem leOption_total (h : ∀ a b, le a b || le b a) (a b : Option α) :
    leOption le a b || leOption le b a := by
  rcases a with - | a <;> rcases b with - | b <;> simp [leOption]
  simpa using h a b

/-- The elements come in order, and of two equal ones the earlier comes first. -/
theorem stableOrder_pairwise (htrans : ∀ a b c, le a b → le b c → le a c)
    (htotal : ∀ a b, le a b || le b a) :
    (stableOrder le xs).Pairwise fun i j =>
      leOption le xs[i]? xs[j]? ∧ (leOption le xs[j]? xs[i]? → i < j) := by
  -- the positions are sorted together with their places, which are the positions themselves
  have hplace : ∀ pair ∈ (List.range xs.length).zipIdx, pair.1 = pair.2 := by
    rintro ⟨i, place⟩ hpair
    have hget := mem_zipIdx_iff_getElem?.mp hpair
    obtain ⟨_, heq⟩ := List.getElem?_eq_some_iff.mp hget
    simpa using heq.symm
  have hnodup : (stableOrder le xs).Nodup := stableOrder_perm.nodup_iff.mpr nodup_range
  have hsorted := pairwise_mergeSort
    (zipIdxLE_trans fun i j k => leOption_trans htrans xs[i]? xs[j]? xs[k]?)
    (zipIdxLE_total fun i j => leOption_total htotal xs[i]? xs[j]?)
    (List.range xs.length).zipIdx
  have hweak : (stableOrder le xs).Pairwise fun i j =>
      leOption le xs[i]? xs[j]? ∧ (leOption le xs[j]? xs[i]? → i ≤ j) := by
    rw [stableOrder, ← mergeSort_zipIdx, pairwise_map]
    refine hsorted.imp_of_mem fun {a b} ha hb hab => ?_
    have ha' := hplace a (mem_mergeSort.mp ha)
    have hb' := hplace b (mem_mergeSort.mp hb)
    unfold List.zipIdxLE at hab
    split_ifs at hab with hle hge
    · exact ⟨hle, fun _ => ha' ▸ hb' ▸ of_decide_eq_true hab⟩
    · exact ⟨hle, fun h => absurd h hge⟩
  exact (hweak.and hnodup).imp fun h => ⟨h.1.1, fun hge => lt_of_le_of_ne (h.1.2 hge) h.2⟩

end Order

end Blocks
