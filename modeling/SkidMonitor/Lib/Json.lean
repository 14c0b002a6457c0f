import SkidMonitor.Lib.Escape
import SkidMonitor.Lib.Numeral

/-! JSON values over a type of numbers. The members of an object stand in key order,
so that two objects with the same members are the same value. -/

inductive Json (ν : Type) where
  | null
  | bool (b : Bool)
  | num (n : ν)
  | str (s : String)
  | arr (xs : List (Json ν))
  | obj (ms : List (String × Json ν))
  deriving Repr

namespace Json

variable {ν μ : Type}

/-- The member of an object with this key. -/
def get (key : String) : Json ν → Option (Json ν)
  | obj ms => ms.lookup key
  | _ => none

def asObject : Json ν → Option (List (String × Json ν))
  | obj ms => some ms
  | _ => none

def asArray : Json ν → Option (List (Json ν))
  | arr xs => some xs
  | _ => none

def asStr : Json ν → Option String
  | str s => some s
  | _ => none

def asBool : Json ν → Option Bool
  | bool b => some b
  | _ => none

def asNumber : Json ν → Option ν
  | num n => some n
  | _ => none

section Pointer

/-- Every `a` with a `b` behind it is replaced by `c`, from left to right. -/
def replacePair (a b c : Char) : List Char → List Char
  | x :: y :: text =>
    if x = a ∧ y = b then c :: replacePair a b c text else x :: replacePair a b c (y :: text)
  | text => text

/-- The key that a token of a pointer stands for. -/
def unescape (token : List Char) : List Char := replacePair '~' '0' '~' (replacePair '~' '1' '/' token)

/-- An index into an array: digits without a leading zero. -/
def parseIndex (token : List Char) : Option ℕ :=
  if token.head? = some '0' ∧ token.length ≠ 1 then none
  else (Numeral.read token).filter (· < 2 ^ 64)

def pointerStep (target : Json ν) (token : List Char) : Option (Json ν) :=
  match target with
  | obj ms => ms.lookup (String.ofList token)
  | arr xs => (parseIndex token).bind (xs[·]?)
  | _ => none

/-- The value that a JSON pointer leads to. -/
def pointer (v : Json ν) : List Char → Option (Json ν)
  | [] => some v
  | '/' :: path => ((path.splitOn '/').map unescape).foldlM pointerStep v
  | _ => none

theorem replacePair_eq (a b c : Char) (text : List Char) :
    replacePair a b c text = Escape.replace [a, b] [c] text := by
  induction text using replacePair.induct a b with
  | case1 x y text h ih =>
    obtain ⟨rfl, rfl⟩ := h
    have hstart : Escape.replace [x, y] [c] ([x, y] ++ text) =
        [c] ++ Escape.replace [x, y] [c] text :=
      Escape.replace_pattern_append (List.cons_ne_nil _ _)
    rw [replacePair, if_pos ⟨rfl, rfl⟩, ih]
    exact hstart.symm
  | case2 x y text h ih =>
    have hno : ¬ [a, b] <+: x :: y :: text := by
      intro hprefix
      obtain ⟨rfl, hrest⟩ := List.cons_prefix_cons.mp hprefix
      exact h ⟨rfl, (List.cons_prefix_cons.mp hrest).1.symm⟩
    rw [replacePair, if_neg h, ih, Escape.replace_cons hno]
  | case3 text h =>
    match text, h with
    | [], _ => rfl
    | [x], _ => simp [replacePair, Escape.replace, Escape.replaceFrom, List.isPrefixOf]
    | x :: y :: text, h => exact absurd rfl (h x y text)

/-- The escapes of a token, in the order in which they are undone. -/
def tokenEscapes : List (Char × List Char) := [('/', ['1'])] ++ [('~', ['0'])]

theorem tokenEscapes_codes : Escape.Codes '~' tokenEscapes := by
  constructor <;> decide

theorem unescape_encode (token : List Char) :
    unescape (Escape.encode '~' tokenEscapes token) = token := by
  unfold unescape
  rw [replacePair_eq, replacePair_eq]
  exact Escape.decode_encode tokenEscapes_codes token

theorem slash_notMem_encode (token : List Char) : '/' ∉ Escape.encode '~' tokenEscapes token :=
  Escape.notMem_encode (by decide) (by decide) (by decide)

/-- The pointer with one escaped token leads to the member of that name. -/
theorem pointer_encode (ms : List (String × Json ν)) (key : List Char) :
    pointer (obj ms) ('/' :: Escape.encode '~' tokenEscapes key) = ms.lookup (String.ofList key) := by
  rw [pointer, List.splitOn_eq_singleton (slash_notMem_encode key)]
  simp [unescape_encode, pointerStep]

end Pointer

mutual

def map (f : ν → μ) : Json ν → Json μ
  | null => null
  | bool b => bool b
  | num n => num (f n)
  | str s => str s
  | arr xs => arr (mapItems f xs)
  | obj ms => obj (mapMembers f ms)

def mapItems (f : ν → μ) : List (Json ν) → List (Json μ)
  | [] => []
  | x :: xs => map f x :: mapItems f xs

def mapMembers (f : ν → μ) : List (String × Json ν) → List (String × Json μ)
  | [] => []
  | (k, v) :: ms => (k, map f v) :: mapMembers f ms

end

mutual

/-- Replaces every number, if each of them can be replaced. -/
def traverse (f : ν → Option μ) : Json ν → Option (Json μ)
  | null => some null
  | bool b => some (bool b)
  | num n => (f n).map num
  | str s => some (str s)
  | arr xs => (traverseItems f xs).map arr
  | obj ms => (traverseMembers f ms).map obj

def traverseItems (f : ν → Option μ) : List (Json ν) → Option (List (Json μ))
  | [] => some []
  | x :: xs => (traverse f x).bind fun y => (traverseItems f xs).map (y :: ·)

def traverseMembers (f : ν → Option μ) : List (String × Json ν) → Option (List (String × Json μ))
  | [] => some []
  | (k, v) :: ms => (traverse f v).bind fun w => (traverseMembers f ms).map ((k, w) :: ·)

end

mutual

/-- Equality of values whose numbers are compared by `r`. -/
def eqBy (r : ν → μ → Bool) : Json ν → Json μ → Bool
  | null, null => true
  | bool a, bool b => a == b
  | num n, num m => r n m
  | str s, str t => s == t
  | arr xs, arr ys => eqItems r xs ys
  | obj ms, obj ns => eqMembers r ms ns
  | _, _ => false

def eqItems (r : ν → μ → Bool) : List (Json ν) → List (Json μ) → Bool
  | [], [] => true
  | x :: xs, y :: ys => eqBy r x y && eqItems r xs ys
  | _, _ => false

def eqMembers (r : ν → μ → Bool) : List (String × Json ν) → List (String × Json μ) → Bool
  | [], [] => true
  | (k, v) :: ms, (l, w) :: ns => k == l && eqBy r v w && eqMembers r ms ns
  | _, _ => false

end

mutual

/-- Every number satisfies `p`. -/
def allNumbers (p : ν → Bool) : Json ν → Bool
  | num n => p n
  | arr xs => allItemNumbers p xs
  | obj ms => allMemberNumbers p ms
  | _ => true

def allItemNumbers (p : ν → Bool) : List (Json ν) → Bool
  | [] => true
  | x :: xs => allNumbers p x && allItemNumbers p xs

def allMemberNumbers (p : ν → Bool) : List (String × Json ν) → Bool
  | [] => true
  | (_, v) :: ms => allNumbers p v && allMemberNumbers p ms

end

mutual

/-- Every string and every key satisfies `p`. -/
def allTexts (p : String → Bool) : Json ν → Bool
  | str s => p s
  | arr xs => allItemTexts p xs
  | obj ms => allMemberTexts p ms
  | _ => true

def allItemTexts (p : String → Bool) : List (Json ν) → Bool
  | [] => true
  | x :: xs => allTexts p x && allItemTexts p xs

def allMemberTexts (p : String → Bool) : List (String × Json ν) → Bool
  | [] => true
  | (k, v) :: ms => p k && allTexts p v && allMemberTexts p ms

end

section Laws

variable {r : ν → ν → Bool}

mutual

theorem traverse_map {ρ : Type} (f : ν → μ) (g : μ → Option ρ) (v : Json ν) :
    (v.map f).traverse g = v.traverse fun n => g (f n) := by
  cases v with
  | arr xs => simp only [map, traverse, traverseItems_map f g xs]
  | obj ms => simp only [map, traverse, traverseMembers_map f g ms]
  | _ => rfl

theorem traverseItems_map {ρ : Type} (f : ν → μ) (g : μ → Option ρ) (xs : List (Json ν)) :
    traverseItems g (mapItems f xs) = traverseItems (fun n => g (f n)) xs := by
  cases xs with
  | nil => rfl
  | cons x xs => simp only [mapItems, traverseItems, traverse_map f g x, traverseItems_map f g xs]

theorem traverseMembers_map {ρ : Type} (f : ν → μ) (g : μ → Option ρ)
    (ms : List (String × Json ν)) :
    traverseMembers g (mapMembers f ms) = traverseMembers (fun n => g (f n)) ms := by
  cases ms with
  | nil => rfl
  | cons m ms =>
    simp only [mapMembers, traverseMembers, traverse_map f g m.2, traverseMembers_map f g ms]

end

mutual

/-- A value is equal to what it is replaced by just if each of its numbers is. -/
theorem eqBy_traverse (r : ν → μ → Bool) {f : ν → Option μ} {v : Json ν} {w : Json μ}
    (h : v.traverse f = some w) : eqBy r v w = allNumbers (fun n => (f n).all (r n)) v := by
  cases v with
  | num n =>
    obtain ⟨m, hm, rfl⟩ := Option.map_eq_some_iff.mp h
    simp [eqBy, allNumbers, hm]
  | arr xs =>
    obtain ⟨ys, hys, rfl⟩ := Option.map_eq_some_iff.mp h
    exact eqItems_traverse r hys
  | obj ms =>
    obtain ⟨ns, hns, rfl⟩ := Option.map_eq_some_iff.mp h
    exact eqMembers_traverse r hns
  | _ =>
    cases h
    simp [eqBy, allNumbers]

theorem eqItems_traverse (r : ν → μ → Bool) {f : ν → Option μ} {xs : List (Json ν)}
    {ys : List (Json μ)} (h : traverseItems f xs = some ys) :
    eqItems r xs ys = allItemNumbers (fun n => (f n).all (r n)) xs := by
  cases xs with
  | nil =>
    cases h
    rfl
  | cons x xs =>
    obtain ⟨y, hy, h⟩ := Option.bind_eq_some_iff.mp h
    obtain ⟨ys, hys, rfl⟩ := Option.map_eq_some_iff.mp h
    rw [eqItems, allItemNumbers, eqBy_traverse r hy, eqItems_traverse r hys]

theorem eqMembers_traverse (r : ν → μ → Bool) {f : ν → Option μ} {ms : List (String × Json ν)}
    {ns : List (String × Json μ)} (h : traverseMembers f ms = some ns) :
    eqMembers r ms ns = allMemberNumbers (fun n => (f n).all (r n)) ms := by
  cases ms with
  | nil =>
    cases h
    rfl
  | cons m ms =>
    obtain ⟨w, hw, h⟩ := Option.bind_eq_some_iff.mp h
    obtain ⟨ns, hns, rfl⟩ := Option.map_eq_some_iff.mp h
    rw [eqMembers, allMemberNumbers, eqBy_traverse r hw, eqMembers_traverse r hns, beq_self_eq_true,
      Bool.true_and]

end

mutual

theorem allNumbers_of_forall {p : ν → Bool} (h : ∀ n, p n = true) (v : Json ν) :
    allNumbers p v = true := by
  cases v with
  | num n => exact h n
  | arr xs => exact allItemNumbers_of_forall h xs
  | obj ms => exact allMemberNumbers_of_forall h ms
  | _ => rfl

theorem allItemNumbers_of_forall {p : ν → Bool} (h : ∀ n, p n = true) (xs : List (Json ν)) :
    allItemNumbers p xs = true := by
  cases xs with
  | nil => rfl
  | cons x xs => simp only [allItemNumbers, allNumbers_of_forall h x,
      allItemNumbers_of_forall h xs, Bool.and_self]

theorem allMemberNumbers_of_forall {p : ν → Bool} (h : ∀ n, p n = true)
    (ms : List (String × Json ν)) : allMemberNumbers p ms = true := by
  cases ms with
  | nil => rfl
  | cons m ms => simp only [allMemberNumbers, allNumbers_of_forall h m.2,
      allMemberNumbers_of_forall h ms, Bool.and_self]

end

mutual

theorem eqBy_refl (hr : ∀ n, r n n = true) (v : Json ν) : eqBy r v v = true := by
  cases v with
  | num n => exact hr n
  | arr xs => exact eqItems_refl hr xs
  | obj ms => exact eqMembers_refl hr ms
  | _ => simp [eqBy]

theorem eqItems_refl (hr : ∀ n, r n n = true) (xs : List (Json ν)) : eqItems r xs xs = true := by
  cases xs with
  | nil => rfl
  | cons x xs => simp only [eqItems, eqBy_refl hr x, eqItems_refl hr xs, Bool.and_self]

theorem eqMembers_refl (hr : ∀ n, r n n = true) (ms : List (String × Json ν)) :
    eqMembers r ms ms = true := by
  cases ms with
  | nil => rfl
  | cons m ms => simp only [eqMembers, beq_self_eq_true, eqBy_refl hr m.2, eqMembers_refl hr ms,
      Bool.and_self]

end

mutual

theorem eqBy_symm (hr : ∀ n m, r n m = true → r m n = true) {v w : Json ν}
    (h : eqBy r v w = true) : eqBy r w v = true := by
  cases v <;> cases w <;> simp only [eqBy, Bool.false_eq_true, beq_iff_eq] at h ⊢
  case num.num => exact hr _ _ h
  case arr.arr => exact eqItems_symm hr h
  case obj.obj => exact eqMembers_symm hr h
  case bool.bool | str.str => exact h.symm

theorem eqItems_symm (hr : ∀ n m, r n m = true → r m n = true) {xs ys : List (Json ν)}
    (h : eqItems r xs ys = true) : eqItems r ys xs = true := by
  cases xs <;> cases ys <;>
    simp only [eqItems, Bool.false_eq_true, Bool.and_eq_true] at h ⊢
  exact ⟨eqBy_symm hr h.1, eqItems_symm hr h.2⟩

theorem eqMembers_symm (hr : ∀ n m, r n m = true → r m n = true)
    {ms ns : List (String × Json ν)} (h : eqMembers r ms ns = true) :
    eqMembers r ns ms = true := by
  cases ms <;> cases ns <;>
    simp only [eqMembers, Bool.false_eq_true, Bool.and_eq_true, beq_iff_eq] at h ⊢
  exact ⟨⟨h.1.1.symm, eqBy_symm hr h.1.2⟩, eqMembers_symm hr h.2⟩

end

mutual

theorem eqBy_trans (hr : ∀ n m k, r n m = true → r m k = true → r n k = true)
    {u v w : Json ν} (h : eqBy r u v = true) (h' : eqBy r v w = true) :
    eqBy r u w = true := by
  cases u <;> cases v <;> simp only [eqBy, Bool.false_eq_true, beq_iff_eq] at h <;>
    cases w <;> simp only [eqBy, Bool.false_eq_true, beq_iff_eq] at h' ⊢
  case num.num.num => exact hr _ _ _ h h'
  case arr.arr.arr => exact eqItems_trans hr h h'
  case obj.obj.obj => exact eqMembers_trans hr h h'
  case bool.bool.bool | str.str.str => exact h.trans h'
termination_by structural u

theorem eqItems_trans (hr : ∀ n m k, r n m = true → r m k = true → r n k = true)
    {xs ys zs : List (Json ν)} (h : eqItems r xs ys = true) (h' : eqItems r ys zs = true) :
    eqItems r xs zs = true := by
  cases xs <;> cases ys <;> simp only [eqItems, Bool.false_eq_true, Bool.and_eq_true] at h <;>
    cases zs <;> simp only [eqItems, Bool.false_eq_true, Bool.and_eq_true] at h' ⊢
  exact ⟨eqBy_trans hr h.1 h'.1, eqItems_trans hr h.2 h'.2⟩
termination_by structural xs

theorem eqMembers_trans (hr : ∀ n m k, r n m = true → r m k = true → r n k = true)
    {ks ms ns : List (String × Json ν)} (h : eqMembers r ks ms = true)
    (h' : eqMembers r ms ns = true) : eqMembers r ks ns = true := by
  cases ks <;> cases ms <;>
    simp only [eqMembers, Bool.false_eq_true, Bool.and_eq_true, beq_iff_eq] at h <;>
    cases ns <;>
    simp only [eqMembers, Bool.false_eq_true, Bool.and_eq_true, beq_iff_eq] at h' ⊢
  exact ⟨⟨h.1.1.trans h'.1.1, eqBy_trans hr h.1.2 h'.1.2⟩, eqMembers_trans hr h.2 h'.2⟩
termination_by structural ks

end

end Laws

end Json
