import Mathlib

/-! A file that is only ever replaced by renaming another one over it. The new content is
seen at once, and is sure to outlive a system crash when its directory has been synced. -/

/-- The content, if any, of the last completed directory sync, and what was renamed over it
since, oldest first. -/
structure AtomicFile (α : Type*) where
  synced : Option α
  later : List α

namespace AtomicFile

variable {α : Type*} {f g : AtomicFile α} {a : α} {c : Option α}

def visible (f : AtomicFile α) : Option α := f.later.getLast?.or f.synced

def replace (f : AtomicFile α) (a : α) : AtomicFile α := { f with later := f.later ++ [a] }

def syncDirectory (f : AtomicFile α) : AtomicFile α := ⟨f.visible, []⟩

/-- What a system crash may leave. -/
def Survives (f : AtomicFile α) (c : Option α) : Prop := c = f.synced ∨ ∃ a ∈ f.later, c = some a

/-- The file after a system crash: the synced content, or a later one by its number. -/
def recover (f : AtomicFile α) : Option ℕ → Option (AtomicFile α)
  | none => some ⟨f.synced, []⟩
  | some k => f.later[k]?.map fun a => ⟨some a, []⟩

theorem survives_visible (f : AtomicFile α) : f.Survives f.visible := by
  unfold visible Survives
  cases h : f.later.getLast? with
  | none => exact .inl rfl
  | some a => exact .inr ⟨a, List.mem_of_getLast? h, rfl⟩

@[simp] theorem visible_replace (f : AtomicFile α) (a : α) : (f.replace a).visible = some a := by
  simp [visible, replace]

theorem survives_replace (h : (f.replace a).Survives c) : f.Survives c ∨ c = some a := by
  rcases h with h | ⟨b, hb, rfl⟩
  · exact .inl (.inl h)
  · rcases List.mem_append.mp hb with hb | hb
    · exact .inl (.inr ⟨b, hb, rfl⟩)
    · rw [List.mem_singleton.mp hb]
      exact .inr rfl

theorem survives_syncDirectory (h : f.syncDirectory.Survives c) : c = f.visible := by
  rcases h with h | ⟨_, hb, _⟩
  · exact h
  · cases hb

theorem survives_recover {k : Option ℕ} (hg : f.recover k = some g) (h : g.Survives c) :
    f.Survives c := by
  cases k with
  | none =>
    cases hg
    rcases h with h | ⟨_, hb, _⟩
    · exact .inl h
    · cases hb
  | some k =>
    obtain ⟨a, ha, rfl⟩ := Option.map_eq_some_iff.mp hg
    rcases h with h | ⟨_, hb, _⟩
    · exact .inr ⟨a, List.mem_of_getElem? ha, h⟩
    · cases hb

end AtomicFile
