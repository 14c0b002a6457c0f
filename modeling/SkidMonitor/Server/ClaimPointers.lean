import SkidMonitor.Server.Principal

/-! The claim pointers of the OIDC settings: which ones are accepted and what they lead to in the
claims of a token. -/
namespace SkidMonitor.Auth

open Escape (replace)
open Fallible List

structure ConfigError where
  message : Str
  deriving DecidableEq

def validatedClaimPointer (name pointer : Str) : Except ConfigError Str :=
  let pointer := Text.trim pointer
  if pointer.isEmpty || pointer.head? != some '/' || Text.byteLength pointer > 1024 ||
      pointer.any Text.isControl ||
      ((pointer.splitOn '~').drop 1).any (fun suffix => !suffix.head?.any (· ∈ ['0', '1'])) then
    .error ⟨name ++
      " must be a non-empty RFC 6901 JSON pointer using only ~0 and ~1 escapes".toList⟩
  else .ok pointer

def topLevelClaimPointer (claim : Str) : Str :=
  '/' :: replace ['/'] ['~', '1'] (replace ['~'] ['~', '0'] claim)

/-- Every tilde is followed by a digit that makes it an escape. -/
def Escaped (text : Str) : Prop :=
  ∀ before after, text = before ++ '~' :: after →
    after.head? = some '0' ∨ after.head? = some '1'

section Splitting

variable {ok : Option Char → Bool} {c : Char} {text : Str}

/-- The first piece begins as the text does, unless the text begins with the separator. -/
theorem splitOn_head (h : ok (some c) = ok none) :
    ∃ piece rest, text.splitOn c = piece :: rest ∧ ok piece.head? = ok text.head? := by
  cases text with
  | nil => exact ⟨[], [], splitOn_nil c, rfl⟩
  | cons x text =>
    rw [splitOn_cons_eq_if_modifyHead]
    by_cases hx : x = c
    · subst hx
      exact ⟨[], _, if_pos (beq_self_eq_true x), h.symm⟩
    · obtain ⟨piece, rest, heq⟩ := exists_cons_of_ne_nil (splitOn_ne_nil c text)
      refine ⟨x :: piece, rest, ?_, rfl⟩
      rw [if_neg (by simpa using hx), heq]
      rfl

/-- A test of the first character of every piece but the first is a test of what follows the
separators. -/
theorem all_drop_splitOn (h : ok (some c) = ok none) :
    ((text.splitOn c).drop 1).all (fun piece => ok piece.head?) ↔
      ∀ before after, text = before ++ c :: after → ok after.head? := by
  induction text with
  | nil => simp [splitOn_nil]
  | cons x text ih =>
    rw [splitOn_cons_eq_if_modifyHead]
    by_cases hx : x = c
    · subst hx
      obtain ⟨piece, rest, heq, hok⟩ := @splitOn_head ok x text h
      rw [heq, drop_one, tail_cons] at ih
      rw [if_pos (beq_self_eq_true x), drop_one, tail_cons, heq, all_cons,
        Bool.and_eq_true, ih, hok]
      constructor
      · rintro ⟨hhead, htail⟩ before after htext
        cases before with
        | nil => exact (List.cons.inj htext).2 ▸ hhead
        | cons y before => exact htail before after (List.cons.inj htext).2
      · intro hall
        exact ⟨hall [] text rfl, fun before after htext =>
          hall (x :: before) after (congrArg (x :: ·) htext)⟩
    · obtain ⟨piece, rest, heq⟩ := exists_cons_of_ne_nil (splitOn_ne_nil c text)
      rw [heq, drop_one, tail_cons] at ih
      rw [if_neg (by simpa using hx), heq, drop_one, modifyHead_cons, tail_cons, ih]
      constructor
      · intro hall before after htext
        cases before with
        | nil => exact absurd (List.cons.inj htext).1 hx
        | cons y before => exact hall before after (List.cons.inj htext).2
      · intro hall before after htext
        exact hall (x :: before) after (congrArg (x :: ·) htext)

end Splitting

section Validated

variable {name pointer : Str}

theorem escapes_iff (text : Str) :
    ((text.splitOn '~').drop 1).any (fun suffix => !suffix.head?.any (· ∈ ['0', '1'])) = false ↔
      Escaped text := by
  rw [← not_all_eq_any_not, Bool.not_eq_false']
  refine (@all_drop_splitOn (fun c => c.any (· ∈ ['0', '1'])) '~' text rfl).trans ?_
  refine forall_congr' fun before => forall_congr' fun after => imp_congr_right fun _ => ?_
  cases after.head? <;> simp

/-- A pointer is accepted, without the blanks around it, by the five conditions alone. -/
theorem validatedClaimPointer_ok_iff {accepted : Str} :
    validatedClaimPointer name pointer = .ok accepted ↔ accepted = Text.trim pointer ∧
      accepted.head? = some '/' ∧ Text.byteLength accepted ≤ 1024 ∧
      accepted.all (!Text.isControl ·) ∧ Escaped accepted := by
  rw [← escapes_iff]
  unfold validatedClaimPointer
  dsimp only
  split_ifs with hbad
  · refine iff_of_false (by simp) ?_
    rintro ⟨rfl, hslash, hbytes, hcontrol, hescaped⟩
    have hne : Text.trim pointer ≠ [] := by
      intro hnil
      simp [hnil] at hslash
    have hplain : (Text.trim pointer).any Text.isControl = false := by simpa using hcontrol
    rw [hescaped, hplain, hslash] at hbad
    simp [hne] at hbad
    omega
  · simp only [Bool.or_eq_true, not_or] at hbad
    simp only [Except.ok.injEq]
    constructor
    · rintro rfl
      refine ⟨rfl, ?_⟩
      simp_all
    · rintro ⟨rfl, -⟩
      rfl

end Validated

/-- Both replacements together write a name by the table of escapes. -/
theorem topLevelClaimPointer_eq (claim : Str) :
    topLevelClaimPointer claim = '/' :: Escape.encode '~' Json.tokenEscapes claim := by
  have htilde : replace ['~'] ['~', '0'] claim =
      claim.flatMap fun c => if c = '~' then ['~', '0'] else [c] := by
    conv_lhs => rw [← flatMap_singleton' claim]
    refine Escape.replace_flatMap (cons_ne_nil _ _) fun c _ => ?_
    by_cases hc : c = '~'
    · exact .inl ⟨by rw [hc], if_pos hc⟩
    · exact .inr ⟨Escape.free_of_notMem (by simpa using Ne.symm hc), if_neg hc⟩
  rw [topLevelClaimPointer, htilde]
  refine congrArg ('/' :: ·) (Escape.replace_flatMap (cons_ne_nil _ _) fun c _ => ?_)
  by_cases hslash : c = '/'
  · subst hslash
    exact .inl ⟨rfl, rfl⟩
  · refine .inr ?_
    by_cases hc : c = '~'
    · subst hc
      exact ⟨Escape.free_of_notMem (by decide), rfl⟩
    · rw [if_neg hc]
      refine ⟨Escape.free_of_notMem (by simpa using Ne.symm hslash), Escape.escape_of_notMem ?_⟩
      simpa [Json.tokenEscapes] using ⟨hslash, hc⟩

/-- A pointer by the rules: it starts with a slash and uses only the two escapes. -/
def WellFormed (pointer : Str) : Prop := pointer.head? = some '/' ∧ Escaped pointer

theorem validatedClaimPointer_wellFormed {name pointer accepted : Str}
    (h : validatedClaimPointer name pointer = .ok accepted) : WellFormed accepted := by
  obtain ⟨-, hslash, -, -, hescaped⟩ := validatedClaimPointer_ok_iff.mp h
  exact ⟨hslash, hescaped⟩

/-- A claim name leads to the member of that name, and a pointer of admissible length without
control characters is accepted exactly if it is one by the rules. -/
theorem claim_pointers_exact :
    (∀ (claim : Str) (members : List (String × Claims)),
      Json.pointer (.obj members) (topLevelClaimPointer claim) =
        members.lookup (String.ofList claim)) ∧
    (∀ name pointer : Str, 1 ≤ Text.byteLength (Text.trim pointer) →
      Text.byteLength (Text.trim pointer) ≤ 1024 →
      (Text.trim pointer).all (!Text.isControl ·) →
      ((∃ accepted, validatedClaimPointer name pointer = .ok accepted) ↔
        WellFormed (Text.trim pointer))) := by
  refine ⟨fun claim members => ?_, fun name pointer _ hbytes hplain => ?_⟩
  · rw [topLevelClaimPointer_eq, Json.pointer_encode]
  · constructor
    · rintro ⟨accepted, haccepted⟩
      obtain rfl := (validatedClaimPointer_ok_iff.mp haccepted).1
      exact validatedClaimPointer_wellFormed haccepted
    · rintro ⟨hslash, hescaped⟩
      exact ⟨_, validatedClaimPointer_ok_iff.mpr ⟨rfl, hslash, hbytes, hplain, hescaped⟩⟩

/-- A pointer with blanks around it and an escaped tilde is accepted. -/
theorem claim_pointers_exact_tenant : ∃ accepted,
    validatedClaimPointer "NAME".toList " /a~0b ".toList = .ok accepted :=
  (claim_pointers_exact.2 "NAME".toList " /a~0b ".toList (by decide) (by decide) (by decide)).mpr
    ⟨by decide, (escapes_iff _).mp (by decide)⟩

end SkidMonitor.Auth
