import Mathlib

/-! Streams that are unfolded from a state: a turn gives an item, changes the state only, or ends
the stream. -/
namespace Unfold

variable {S I β : Type}

inductive Turn (S I : Type) where
  | yield (item : I) (next : S)
  | again (next : S)
  | finish

/-- The items of a stream, if so many turns are enough for it. -/
def collect (turn : S → Turn S I) : ℕ → S → Option (List I)
  | 0, _ => none
  | turns + 1, s =>
    match turn s with
    | .finish => some []
    | .again next => collect turn turns next
    | .yield item next => (collect turn turns next).map (item :: ·)

/-- What a turn from a valid state does: `owed` is what is still to come, and every turn gives some
of it or comes nearer to its end. -/
def Pays (turn : S → Turn S I) (Valid : S → Prop) (rank : S → ℕ) (owed : S → List β)
    (value : I → List β) (Good : I → Prop) (s : S) : Prop :=
  match turn s with
  | .finish => owed s = []
  | .again next => Valid next ∧ owed next = owed s ∧ rank next < rank s
  | .yield item next =>
    Valid next ∧ owed s = value item ++ owed next ∧ Good item ∧ rank next < rank s

variable {turn : S → Turn S I} {Valid : S → Prop} {rank : S → ℕ} {owed : S → List β}
  {value : I → List β} {Good : I → Prop} {s : S}

/-- A stream whose turns pay ends, and its items are together what was owed. -/
theorem exists_collect (hpays : ∀ s, Valid s → Pays turn Valid rank owed value Good s)
    (hs : Valid s) :
    ∃ items, (∀ turns, rank s < turns → collect turn turns s = some items) ∧
      items.flatMap value = owed s ∧ ∀ item ∈ items, Good item := by
  induction hrank : rank s using Nat.strongRecOn generalizing s with
  | ind n ih =>
    subst hrank
    have hpay := hpays s hs
    unfold Pays at hpay
    cases hturn : turn s with
    | finish =>
      rw [hturn] at hpay
      refine ⟨[], ?_, hpay.symm, by simp⟩
      rintro (- | turns) hlt
      · omega
      · simp [collect, hturn]
    | again next =>
      rw [hturn] at hpay
      obtain ⟨hnext, howed, hless⟩ := hpay
      obtain ⟨items, hall, hvalue, hgood⟩ := ih _ hless hnext rfl
      refine ⟨items, ?_, hvalue.trans howed, hgood⟩
      rintro (- | turns) hlt
      · omega
      · simpa [collect, hturn] using hall turns (by omega)
    | yield item next =>
      rw [hturn] at hpay
      obtain ⟨hnext, howed, hitem, hless⟩ := hpay
      obtain ⟨items, hall, hvalue, hgood⟩ := ih _ hless hnext rfl
      refine ⟨item :: items, ?_, ?_, ?_⟩
      · rintro (- | turns) hlt
        · omega
        · simp [collect, hturn, hall turns (by omega)]
      · rw [List.flatMap_cons, hvalue, howed]
      · exact List.forall_mem_cons.mpr ⟨hitem, hgood⟩

end Unfold
