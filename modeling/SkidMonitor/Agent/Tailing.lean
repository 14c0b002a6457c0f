import SkidMonitor.Agent.DatabaseLogs
import SkidMonitor.Lib.Run

/-! Runs of a tailed file: appends, and polls with every pattern of failures. What a tail has
exported is always what one pass over the bytes it has read yields. -/
namespace SkidMonitor.DatabaseLogs

open List

variable {E : Type}

/-- A file that only grows, the lines of the successful exports, and the tail. -/
structure Tailing where
  file : Bytes
  handed : List Str
  tail : TailState

def Tailing.world (s : Tailing) : LogWorld := ⟨s.file, s.handed⟩

/-- The events of a poll are the appends during it and the outcomes of its operations. -/
inductive TailLabel (E : Type) where
  | append (bytes : Bytes)
  | poll (es : List (Event Bytes (Choice E)))

/-- The tail a poll leaves, whether it failed or not. -/
def tailOf : Except (TailState × PollAndExportError E) (TailState × ℕ) → TailState
  | .ok (t, _) => t
  | .error (t, _) => t

def Tailing.step (config : DatabaseLogsReceiverConfig) (s : Tailing) : TailLabel E → Option Tailing
  | .append bytes => some { s with file := s.file ++ bytes }
  | .poll es => do
    let (out, w) ← (logWorld E).execute es (pollAndExportSource config s.tail) s.world
    return ⟨w.file, w.handed, tailOf out⟩

/-- The poll returns the number of exported lines, and no error. -/
def Succeeds (config : DatabaseLogsReceiverConfig) (s : Tailing)
    (es : List (Event Bytes (Choice E))) : Prop :=
  ∃ x w, (logWorld E).execute es (pollAndExportSource config s.tail) s.world = some (.ok x, w)

section Steps
variable {config : DatabaseLogsReceiverConfig} {s t : Tailing} {l : TailLabel E}
  {es : List (Event Bytes (Choice E))}

theorem untilOp_prefix (n : ℕ) (es : List (Event Bytes (Choice E))) : untilOp n es <+: es := by
  fun_induction untilOp n es with
  | case1 | case2 => exact nil_prefix
  | case3 _ _ _ _ ih | case4 _ _ _ ih => exact cons_prefix_cons.mpr ⟨rfl, ih⟩

theorem measuredFile_prefix (file : Bytes) (es : List (Event Bytes (Choice E))) :
    measuredFile file es <+: file ++ appended es := by
  obtain ⟨rest, hes⟩ := untilOp_prefix 2 es
  refine ⟨appended rest, ?_⟩
  rw [measuredFile, append_assoc, ← appended_append, hes]

/-- A poll fails and leaves the tail as it was, or does what `Polled` says; a tail that
it has brought to the end of the file then means that it has succeeded. -/
theorem poll_step (h : s.step config (.poll es) = some t) :
    t.file = s.file ++ appended es ∧
      (t.tail = s.tail ∧ t.handed = s.handed ∧ ¬ Succeeds config s es ∨
        ∃ lines, Polled config s.tail (measuredFile s.file es) t.tail lines ∧
          t.handed = s.handed ++ lines ∧
          ((measuredFile s.file es).length ≤
            (s.tail.measured config (measuredFile s.file es)).offset → Succeeds config s es)) := by
  obtain ⟨⟨out, w⟩, hx, ht⟩ := Option.bind_eq_some_iff.mp h
  cases ht
  obtain ⟨hfile, ⟨⟨e, rfl⟩, hhanded⟩ | ⟨tail, lines, hpolled, hhanded, hout⟩⟩ := poll_cases hx
  · refine ⟨hfile, .inl ⟨rfl, hhanded, ?_⟩⟩
    rintro ⟨x, w', hok⟩
    rw [hx] at hok
    cases hok
  · refine ⟨hfile, .inr ⟨lines, ?_, hhanded, fun hend => ?_⟩⟩
    · rcases hout with rfl | ⟨_, e, rfl⟩ <;> exact hpolled
    · rcases hout with rfl | ⟨hmore, e, rfl⟩
      · exact ⟨_, _, hx⟩
      · exact absurd hend (Nat.not_le_of_lt hmore)

end Steps

/-- The tail has read the file from `start` to its offset, and `lines` are the lines one pass
over these bytes yields. -/
structure Caught (config : DatabaseLogsReceiverConfig) (start : ℕ) (file : Bytes) (tail : TailState)
    (lines : List Str) : Prop where
  initialized : tail.initialized = true
  start_le : start ≤ tail.offset
  offset_le : tail.offset ≤ file.length
  fingerprint : ∀ f, tail.fingerprint = some f → f <+: file
  completed : completeLines config {} ((file.take tail.offset).drop start) = (tail.lineOnly, lines)

section Caught
variable {config : DatabaseLogsReceiverConfig} {start : ℕ} {file g : Bytes} {s t : TailState}
  {lines more : List Str}

theorem Caught.grow (h : Caught config start file s lines) (hg : file <+: g) :
    Caught config start g s lines where
  initialized := h.initialized
  start_le := h.start_le
  offset_le := Nat.le_trans h.offset_le hg.length_le
  fingerprint f hf := (h.fingerprint f hf).trans hg
  completed := by
    obtain ⟨rest, rfl⟩ := hg
    rw [take_append_of_le_length h.offset_le]
    exact h.completed

/-- Fingerprints agree if one of them continues the other. -/
theorem replaced_iff {previous current : Bytes} :
    fingerprintReplaced previous current = false ↔ previous <+: current ∨ current <+: previous := by
  rw [fingerprintReplaced]
  split
  · rename_i hle
    simp only [Bool.not_eq_false', isPrefixOf_iff_prefix]
    refine ⟨.inl, fun h => h.elim id fun hc => ?_⟩
    rw [hc.eq_of_length_le hle]
  · rename_i hlt
    simp only [Bool.not_eq_false', isPrefixOf_iff_prefix]
    exact ⟨.inr, fun h => h.elim (fun hp => absurd hp.length_le hlt) id⟩

/-- A file that has grown since is not taken for another one. -/
theorem Caught.not_rotated (h : Caught config start g s lines) :
    s.rotated g.length (some (g.take rotationFingerprintBytes)) = false := by
  cases hf : s.fingerprint with
  | none => simp [TailState.rotated, hf, h.offset_le]
  | some f =>
    have hcurrent : g.take rotationFingerprintBytes <+: g := ⟨_, take_append_drop _ g⟩
    have hsame := replaced_iff.mpr <| prefix_or_prefix_of_prefix (h.fingerprint f hf) hcurrent
    simp [TailState.rotated, hf, h.offset_le, hsame]

theorem Caught.measured (h : Caught config start g s lines) :
    Caught config start g (s.measured config g) lines := by
  have hm : s.measured config g =
      { s with fingerprint := some (g.take rotationFingerprintBytes) } := by
    simp [TailState.measured, TailState.observe, h.initialized, h.not_rotated]
  rw [hm]
  exact ⟨h.initialized, h.start_le, h.offset_le,
    fun f hf => Option.some.inj hf ▸ take_prefix _ g, h.completed⟩

theorem slice_add {start off n : ℕ} (h : start ≤ off) (hle : off ≤ g.length) :
    (g.take (off + n)).drop start = (g.take off).drop start ++ (g.drop off).take n := by
  rw [take_add, drop_append_of_le_length]
  rw [length_take]
  omega

theorem Caught.polled (h : Caught config start g (s.measured config g) lines)
    (hp : Polled config s g t more) : Caught config start g t (lines ++ more) := by
  cases hp with
  | measured => simpa using h
  | read hn hle hc =>
    rename_i n
    obtain ⟨⟨hi, ho, hf⟩, hline⟩ := @completeLines_lineOnly config
      { s.measured config g with offset := (s.measured config g).offset + n }
      ((g.drop (s.measured config g).offset).take n)
    rw [hc] at hi ho hf hline
    simp only at hi ho hf hline
    refine ⟨hi.trans h.initialized, ?_, ?_, fun f h' => h.fingerprint f (hf ▸ h'), ?_⟩
    · exact ho ▸ Nat.le_trans h.start_le (Nat.le_add_right _ n)
    · exact ho ▸ hle
    · rw [ho, slice_add h.start_le h.offset_le, completeLines_append, h.completed]
      exact congrArg (fun r => (r.1, lines ++ r.2)) hline

end Caught

section Lossless
variable {config : DatabaseLogsReceiverConfig} {s t u : Tailing} {labels : List (TailLabel E)}

/-- No poll of the run succeeds. -/
def NoneSucceeds (config : DatabaseLogsReceiverConfig) (s : Tailing) (labels : List (TailLabel E)) :
    Prop :=
  ∀ pre es post u, labels = pre ++ .poll es :: post →
    Runs.run (Tailing.step config) s pre = some u → ¬ Succeeds config u es

/-- Where a tail starts: at byte 0, or where the file ends at the first successful poll. -/
def InitialOffset (config : DatabaseLogsReceiverConfig) (s : Tailing) (labels : List (TailLabel E))
    (start : ℕ) : Prop :=
  match config.startAt with
  | .beginning => start = 0
  | .atEnd => ∃ pre es post u, labels = pre ++ .poll es :: post ∧
      Runs.run (Tailing.step config) s pre = some u ∧ NoneSucceeds config s pre ∧
      Succeeds config u es ∧ start = (measuredFile u.file es).length

theorem InitialOffset.later {start : ℕ} (h : InitialOffset config s labels start)
    (l : TailLabel E) : InitialOffset config s (labels ++ [l]) start := by
  unfold InitialOffset at h ⊢
  cases hstart : config.startAt with
  | beginning => simpa [hstart] using h
  | atEnd =>
    simp only [hstart] at h ⊢
    obtain ⟨pre, es, post, u, rfl, hrest⟩ := h
    exact ⟨pre, es, post ++ [l], u, by simp, hrest⟩

theorem NoneSucceeds.concat {l : TailLabel E} (h : NoneSucceeds config s labels)
    (hr : Runs.run (Tailing.step config) s labels = some u)
    (hl : ∀ es, l = .poll es → ¬ Succeeds config u es) : NoneSucceeds config s (labels ++ [l]) := by
  intro pre es post v he hv
  rcases eq_nil_or_concat post with rfl | ⟨post', l', rfl⟩
  · obtain ⟨rfl, hlast⟩ := append_inj' he rfl
    rw [hr] at hv
    cases hv
    exact hl es (singleton_inj.mp hlast)
  · rw [concat_eq_append, ← cons_append, ← append_assoc] at he
    exact h pre es post' v (append_inj' he rfl).1 hv

theorem caught_first {g : Bytes} :
    Caught config (match config.startAt with | .beginning => 0 | .atEnd => g.length) g
      (TailState.measured {} config g) [] := by
  refine ⟨rfl, Nat.le_refl _, ?_, fun f hf => Option.some.inj hf ▸ take_prefix _ g, ?_⟩
  · cases h : config.startAt <;> simp [TailState.measured, TailState.observe, h]
  · cases h : config.startAt <;>
      simp [TailState.measured, TailState.observe, h, completeLines, TailState.lineOnly]

/-- Before its first measurement the tail is untouched; from then on it follows the file. -/
def Tracked (config : DatabaseLogsReceiverConfig) (s : Tailing) (labels : List (TailLabel E))
    (t : Tailing) : Prop :=
  (t.tail = {} ∧ t.handed = [] ∧ NoneSucceeds config s labels) ∨
    ∃ start, InitialOffset config s labels start ∧ Caught config start t.file t.tail t.handed

theorem tracked_append {bytes : Bytes} (hr : Runs.run (Tailing.step config) s labels = some u)
    (h : Tracked config s labels u) :
    Tracked config s (labels ++ [.append bytes]) { u with file := u.file ++ bytes } := by
  rcases h with ⟨htail, hhanded, hnone⟩ | ⟨start, hstart, hcaught⟩
  · exact .inl ⟨htail, hhanded, hnone.concat hr nofun⟩
  · exact .inr ⟨start, hstart.later _, hcaught.grow (prefix_append _ _)⟩

theorem tracked_poll {es : List (Event Bytes (Choice E))}
    (hr : Runs.run (Tailing.step config) s labels = some u) (h : Tracked config s labels u)
    (hs : u.step config (.poll es) = some t) : Tracked config s (labels ++ [.poll es]) t := by
  obtain ⟨hfile, hstep⟩ := poll_step hs
  have hgrown : u.file <+: t.file := hfile ▸ prefix_append _ _
  have hmeasured : measuredFile u.file es <+: t.file := hfile ▸ measuredFile_prefix _ _
  rcases h with ⟨htail, hhanded, hnone⟩ | ⟨start, hstart, hcaught⟩
  · rcases hstep with ⟨htail', hhanded', hfail⟩ | ⟨lines, hpolled, hhanded', hend⟩
    · refine .inl ⟨htail'.trans htail, hhanded'.trans hhanded, hnone.concat hr ?_⟩
      rintro es' ⟨⟩
      exact hfail
    · rw [htail] at hpolled hend
      rw [hhanded] at hhanded'
      refine .inr ⟨_, ?_, hhanded' ▸ (caught_first.polled hpolled).grow hmeasured⟩
      -- A tail that starts at the end has nothing to read yet, so its first poll succeeds.
      cases hat : config.startAt with
      | beginning => simp [InitialOffset, hat]
      | atEnd =>
        simp only [InitialOffset, hat]
        refine ⟨labels, es, [], u, rfl, hr, hnone, hend ?_, rfl⟩
        simp [TailState.measured, TailState.observe, hat]
  · rcases hstep with ⟨htail', hhanded', _⟩ | ⟨lines, hpolled, hhanded', _⟩
    · exact .inr ⟨start, hstart.later _, htail' ▸ hhanded' ▸ hcaught.grow hgrown⟩
    · have hm : Caught config start (measuredFile u.file es) u.tail u.handed :=
        hcaught.grow (prefix_append _ _)
      exact .inr ⟨start, hstart.later _, hhanded' ▸ (hm.measured.polled hpolled).grow hmeasured⟩

theorem tracked_run {file : Bytes}
    (hr : Runs.run (Tailing.step config) ⟨file, [], {}⟩ labels = some t) :
    Tracked config ⟨file, [], {}⟩ labels t := by
  refine Runs.run_history (I := Tracked config ⟨file, [], {}⟩) (.inl ⟨rfl, rfl, ?_⟩) ?_ hr
  · intro pre es post u he _
    simp at he
  · intro labels u l v hu h hs
    cases l with
    | append bytes =>
      cases hs
      exact tracked_append hu h
    | poll es => exact tracked_poll hu h hs

/-- Nothing is lost or duplicated: the exported lines are those that one pass over the bytes
from the initial offset to the current one completes, and growth is never taken for rotation. -/
theorem tailing_is_lossless {file : Bytes}
    (hr : Runs.run (Tailing.step config) ⟨file, [], {}⟩ labels = some t) :
    (t.tail.initialized = false ∧ t.handed = [] ∨
      ∃ start, InitialOffset config ⟨file, [], {}⟩ labels start ∧ start ≤ t.tail.offset ∧
        t.tail.offset ≤ t.file.length ∧
        t.handed = (completeLines config {} ((t.file.take t.tail.offset).drop start)).2) ∧
      (t.tail.initialized = true → ∀ g, t.file <+: g →
        t.tail.rotated g.length (some (g.take rotationFingerprintBytes)) = false) := by
  rcases tracked_run hr with ⟨htail, hhanded, _⟩ | ⟨start, hstart, hcaught⟩
  · rw [htail]
    exact ⟨.inl ⟨rfl, hhanded⟩, nofun⟩
  · refine ⟨.inr ⟨start, hstart, hcaught.start_le, hcaught.offset_le, ?_⟩, fun _ g hg => ?_⟩
    · rw [hcaught.completed]
    · exact (hcaught.grow hg).not_rotated

/-- A receiver that reads at most four bytes a poll. -/
def sampleConfig : DatabaseLogsReceiverConfig where
  startAt := .beginning
  maxLineBytes := 8
  maxReadBytes := 4

/-- A poll that reads `n` bytes and completes lines, and how its export ends. -/
def samplePoll (n : ℕ) (exported : Choice Unit) : TailLabel Unit :=
  .poll (List.replicate 5 (.perform (.done 0)) ++ [.perform (.done n), .perform exported])

theorem tailing_is_lossless_sample :
    ∃ t, Runs.run (Tailing.step sampleConfig) ⟨[97, 10, 98], [], {}⟩
        [samplePoll 3 (.fail ()), .append [99, 10], samplePoll 2 (.done 0), samplePoll 3 (.done 0)] =
          some t ∧
      t.handed = [['a'], ['b', 'c']] ∧
      (t.tail.initialized = false ∧ t.handed = [] ∨
        ∃ start, InitialOffset sampleConfig ⟨[97, 10, 98], [], {}⟩
            [samplePoll 3 (.fail ()), .append [99, 10], samplePoll 2 (.done 0),
              samplePoll 3 (.done 0)] start ∧
          start ≤ t.tail.offset ∧ t.tail.offset ≤ t.file.length ∧
          t.handed = (completeLines sampleConfig {} ((t.file.take t.tail.offset).drop start)).2) ∧
      (t.tail.initialized = true → ∀ g, t.file <+: g →
        t.tail.rotated g.length (some (g.take rotationFingerprintBytes)) = false) :=
  ⟨_, rfl, by decide, tailing_is_lossless rfl⟩

end Lossless

section Rotation
variable {config : DatabaseLogsReceiverConfig} {s t u : Tailing} {labels : List (TailLabel E)}

/-- A poll goes through unless it leaves tail and exports as they were. -/
def GoesThrough (config : DatabaseLogsReceiverConfig) (s : Tailing)
    (es : List (Event Bytes (Choice E))) : Prop :=
  ∀ t, s.step config (.poll es) = some t → ¬ (t.tail = s.tail ∧ t.handed = s.handed)

/-- Each poll that goes through with the tail that the state `s` has finds its file rotated. -/
def StaysNoticeable (config : DatabaseLogsReceiverConfig) (s : Tailing)
    (labels : List (TailLabel E)) : Prop :=
  ∀ pre es post u, labels = pre ++ .poll es :: post →
    Runs.run (Tailing.step config) s pre = some u →
    Runs.Along (Tailing.step config) (fun v => v.tail = s.tail) s pre → GoesThrough config u es →
    s.tail.rotated (measuredFile u.file es).length
      (some ((measuredFile u.file es).take rotationFingerprintBytes)) = true

theorem StaysNoticeable.earlier {l : TailLabel E} (h : StaysNoticeable config s (labels ++ [l])) :
    StaysNoticeable config s labels := by
  rintro pre es post u rfl hu hsame
  exact h pre es (post ++ [l]) u (by simp) hu hsame

theorem caught_rotated {tail : TailState} {g : Bytes} (hinit : tail.initialized = true)
    (hrot : tail.rotated g.length (some (g.take rotationFingerprintBytes)) = true) :
    Caught config 0 g (tail.measured config g) [] := by
  have hm : tail.measured config g =
      { initialized := true, fingerprint := some (g.take rotationFingerprintBytes) } := by
    simp [TailState.measured, TailState.observe, hinit, hrot]
  rw [hm]
  exact ⟨rfl, Nat.le_refl _, Nat.zero_le _,
    fun f hf => Option.some.inj hf ▸ take_prefix _ g, rfl⟩

/-- No poll has gone through yet, or the tail follows the new file from its first byte. -/
def Switched (config : DatabaseLogsReceiverConfig) (s : Tailing) (labels : List (TailLabel E))
    (t : Tailing) : Prop :=
  (Runs.Along (Tailing.step config) (fun v => v.tail = s.tail) s labels ∧ t.tail = s.tail ∧
      t.handed = s.handed) ∨
    ∃ lines, t.handed = s.handed ++ lines ∧ Caught config 0 t.file t.tail lines

theorem switched_poll {es : List (Event Bytes (Choice E))} (hinit : s.tail.initialized = true)
    (hr : Runs.run (Tailing.step config) s labels = some u) (h : Switched config s labels u)
    (hseen : StaysNoticeable config s (labels ++ [.poll es]))
    (hs : u.step config (.poll es) = some t) : Switched config s (labels ++ [.poll es]) t := by
  obtain ⟨hfile, hstep⟩ := poll_step hs
  have hgrown : u.file <+: t.file := hfile ▸ prefix_append _ _
  have hmeasured : measuredFile u.file es <+: t.file := hfile ▸ measuredFile_prefix _ _
  rcases h with ⟨hsame, htail, hhanded⟩ | ⟨lines, hhanded, hcaught⟩
  · by_cases hkept : t.tail = u.tail ∧ t.handed = u.handed
    · have hold := hkept.1.trans htail
      exact .inl ⟨Runs.along_concat hsame hr hs hold, hold, hkept.2.trans hhanded⟩
    · have hrot := hseen labels es [] u rfl hr hsame fun t' ht' => by
        rw [hs] at ht'
        cases ht'
        exact hkept
      obtain ⟨lines, hpolled, hhanded', _⟩ :=
        hstep.resolve_left fun h => hkept ⟨h.1, h.2.1⟩
      rw [htail] at hpolled
      exact .inr ⟨lines, hhanded ▸ hhanded',
        ((caught_rotated hinit hrot).polled hpolled).grow hmeasured⟩
  · rcases hstep with ⟨htail', hhanded', _⟩ | ⟨more, hpolled, hhanded', _⟩
    · exact .inr ⟨lines, hhanded'.trans hhanded, htail' ▸ hcaught.grow hgrown⟩
    · have hm : Caught config 0 (measuredFile u.file es) u.tail lines :=
        hcaught.grow (prefix_append _ _)
      refine .inr ⟨lines ++ more, ?_, (hm.measured.polled hpolled).grow hmeasured⟩
      rw [hhanded', hhanded, append_assoc]

theorem switched_run (hinit : s.tail.initialized = true) (hseen : StaysNoticeable config s labels)
    (hr : Runs.run (Tailing.step config) s labels = some t) : Switched config s labels t := by
  refine Runs.run_history (I := fun labels u => StaysNoticeable config s labels →
    Switched config s labels u) (fun _ => .inl ⟨Runs.along_nil rfl, rfl, rfl⟩) ?_ hr hseen
  intro labels u l v hu h hs hseen
  cases l with
  | append bytes =>
    have hstep := hs
    cases hs
    rcases h hseen.earlier with ⟨hsame, htail, hhanded⟩ | ⟨lines, hhanded, hcaught⟩
    · exact .inl ⟨Runs.along_concat hsame hu hstep htail, htail, hhanded⟩
    · exact .inr ⟨lines, hhanded, hcaught.grow (prefix_append _ _)⟩
  | poll es => exact switched_poll hinit hu (h hseen.earlier) hseen hs

theorem file_grows (hr : Runs.run (Tailing.step config) s labels = some t) : s.file <+: t.file := by
  refine Runs.run_invariant (I := fun u => s.file <+: u.file) ?_ hr prefix_rfl
  intro u l v hu hs
  cases l with
  | append bytes =>
    cases hs
    exact hu.trans (prefix_append _ _)
  | poll es => exact hu.trans ((poll_step hs).1 ▸ prefix_append _ _)

/-- Bytes that disagree with the fingerprint go on doing so while the file grows. -/
theorem noticeable_of_replaced {f : Bytes} (hf : s.tail.fingerprint = some f)
    (h : fingerprintReplaced f (s.file.take rotationFingerprintBytes) = true) :
    StaysNoticeable config s labels := by
  intro pre es post u _ hu _ _
  have hgrown : s.file.take rotationFingerprintBytes <+:
      (measuredFile u.file es).take rotationFingerprintBytes :=
    ((file_grows hu).trans (prefix_append _ _)).take _
  have hstays : fingerprintReplaced f
      ((measuredFile u.file es).take rotationFingerprintBytes) = true := by
    by_contra hsame
    rw [Bool.not_eq_true] at hsame
    have hagree : fingerprintReplaced f (s.file.take rotationFingerprintBytes) = false := by
      refine replaced_iff.mpr ?_
      rcases replaced_iff.mp hsame with hle | hle
      · exact prefix_or_prefix_of_prefix hle hgrown
      · exact .inr (hgrown.trans hle)
    rw [h] at hagree
    cases hagree
  simp [TailState.rotated, hf, hstays]

/-- If the file at the path of a tail was replaced, and the first poll that goes through finds it
so, the exports from then on are the lines of the new file. -/
theorem rotation_survives_exports (hinit : s.tail.initialized = true)
    (hseen : StaysNoticeable config s labels)
    (hr : Runs.run (Tailing.step config) s labels = some t) :
    t.tail = s.tail ∧ t.handed = s.handed ∨
      ∃ lines, t.handed = s.handed ++ lines ∧
        completeLines config {} (t.file.take t.tail.offset) = (t.tail.lineOnly, lines) := by
  rcases switched_run hinit hseen hr with ⟨_, htail, hhanded⟩ | ⟨lines, hhanded, hcaught⟩
  · exact .inl ⟨htail, hhanded⟩
  · exact .inr ⟨lines, hhanded, hcaught.completed⟩

theorem rotation_survives_exports_sample :
    ∃ s t, Runs.run (Tailing.step sampleConfig) ⟨[97, 10, 98, 10], [], {}⟩ [samplePoll 4 (.done 0)] =
        some s ∧
      Runs.run (Tailing.step sampleConfig) { s with file := [99, 10] }
        [samplePoll 2 (.fail ()), .append [100, 10, 101], samplePoll 4 (.done 0)] = some t ∧
      t.handed = s.handed ++ [['c'], ['d']] ∧
      (t.tail = s.tail ∧ t.handed = s.handed ∨
        ∃ lines, t.handed = s.handed ++ lines ∧
          completeLines sampleConfig {} (t.file.take t.tail.offset) = (t.tail.lineOnly, lines)) :=
  ⟨_, _, rfl, rfl, by decide,
    @rotation_survives_exports Unit sampleConfig ⟨[99, 10], _, _⟩ _
      [samplePoll 2 (.fail ()), .append [100, 10, 101], samplePoll 4 (.done 0)] rfl
      (noticeable_of_replaced rfl (by decide)) rfl⟩

/-- The new file begins like the old one, and has become longer than the old offset when the
poll after the failed export measures it: its first two lines are lost. -/
theorem rotation_lost_to_failed_export :
    ∃ s t, Runs.run (Tailing.step sampleConfig) ⟨[97, 10, 98, 10], [], {}⟩ [samplePoll 4 (.done 0)] =
        some s ∧ s.tail.initialized = true ∧
      s.tail.rotated 2 (some [97, 10]) = true ∧
      Runs.run (Tailing.step sampleConfig) { s with file := [97, 10] }
        [samplePoll 2 (.fail ()), .append [98, 10, 99, 10, 100, 10], samplePoll 4 (.done 0)] =
          some t ∧
      t.handed = s.handed ++ [['c'], ['d']] ∧ t.tail.offset = t.file.length ∧
      (completeLines sampleConfig {} t.file).2 = [['a'], ['b'], ['c'], ['d']] :=
  ⟨_, _, rfl, rfl, by decide, rfl, by decide, by decide, by decide⟩

end Rotation

end SkidMonitor.DatabaseLogs
