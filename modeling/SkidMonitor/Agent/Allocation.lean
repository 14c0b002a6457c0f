import SkidMonitor.Agent.Sequence

/-! Every value is allocated once and in order, whatever fails and whoever dies. -/
namespace SkidMonitor.Sequence

open List
open Runs

theorem readSequenceState_proper {text : Str} {v : ℕ} (h : readSequenceState text = .ok v) :
    v ≠ 0 ∧ v ≤ maxSequence ∧ Numeral.readU64 (stripNewline text) = some (UInt64.ofNat v) := by
  unfold readSequenceState at h
  split at h
  · cases h
  · simp only at h
    split at h
    · cases h
    · split at h
      · cases h
      · rename_i value hvalue
        split at h
        · cases h
        · rename_i hzero
          cases h
          refine ⟨?_, ?_, by rw [UInt64.ofNat_toNat, hvalue]⟩
          · intro h0
            exact hzero (UInt64.toNat_inj.mp h0)
          · have := value.toNat_lt
            unfold maxSequence
            omega

theorem stripNewline_stateText (n : ℕ) : stripNewline (stateText n) = Numeral.print n := by
  simp [stripNewline, stateText]

/-- What was written is not read as another value. -/
theorem eq_of_readSequenceState {n v : ℕ} (hn : n ≤ maxSequence)
    (h : readSequenceState (stateText n) = .ok v) : v = n := by
  obtain ⟨_, hv, hread⟩ := readSequenceState_proper h
  have hprint := Numeral.readU64_print (UInt64.ofNat n)
  unfold maxSequence at hn hv
  rw [UInt64.toNat_ofNat_of_lt' (by simp [UInt64.size]; omega)] at hprint
  rw [stripNewline_stateText, hprint, Option.some.injEq] at hread
  have := congrArg UInt64.toNat hread
  rw [UInt64.toNat_ofNat_of_lt' (by simp [UInt64.size]; omega),
    UInt64.toNat_ofNat_of_lt' (by simp [UInt64.size]; omega)] at this
  exact this.symm

/-- One operation leaves the file alone and does not end the call, or replaces the file, or
syncs its directory and ends the call. -/
theorem persistSequenceState_cases {file file' : AtomicFile Str} {next : ℕ}
    {stage : PersistStage} {outcome : Outcome} {result : Except SequenceError (Option PersistStage)}
    (h : persistSequenceState file next stage outcome = (file', result)) :
    (file' = file ∧ result ≠ .ok none ∧ result ≠ .ok (some .syncParent)) ∨
      (file' = file.replace (stateText next) ∧ result = .ok (some .syncParent)) ∨
      (stage = .syncParent ∧ file' = file.syncDirectory ∧ result = .ok none) := by
  unfold persistSequenceState at h
  split at h <;> cases h
  case h_2 => exact .inl ⟨rfl, by split <;> nofun, by split <;> nofun⟩
  case h_10 => exact .inr (.inl ⟨rfl, rfl⟩)
  case h_12 => exact .inr (.inr ⟨rfl, rfl, rfl⟩)
  all_goals exact .inl ⟨rfl, nofun, nofun⟩

/-- Whatever a crash leaves is read as a value above all that were allocated. -/
def Floor (file : AtomicFile Str) (released : List (ℕ × ℕ)) : Prop :=
  (file.Survives none → released = []) ∧
    ∀ text v, file.Survives (some text) → readSequenceState text = .ok v → ∀ r ∈ released, r.2 < v

/-- The file holds the text of `next` once it has been renamed into place. -/
def Written (file : AtomicFile Str) (next : ℕ) (stage : PersistStage) : Prop :=
  stage = .syncParent → file.visible = some (stateText next)

section Persist
variable {file file' : AtomicFile Str} {released : List (ℕ × ℕ)} {next : ℕ}
  {stage : PersistStage} {outcome : Outcome} {result : Except SequenceError (Option PersistStage)}

theorem floor_persist (h : persistSequenceState file next stage outcome = (file', result))
    (hfloor : Floor file released) (hnext : next ≤ maxSequence) (hlt : ∀ r ∈ released, r.2 < next)
    (hwritten : Written file next stage) : Floor file' released := by
  rcases persistSequenceState_cases h with ⟨rfl, _⟩ | ⟨rfl, _⟩ | ⟨rfl, rfl, _⟩
  · exact hfloor
  · refine ⟨fun hc => ?_, fun text v hc hv r hr => ?_⟩
    · rcases AtomicFile.survives_replace hc with hc | hc
      · exact hfloor.1 hc
      · cases hc
    · rcases AtomicFile.survives_replace hc with hc | hc
      · exact hfloor.2 text v hc hv r hr
      · cases hc
        rw [eq_of_readSequenceState hnext hv]
        exact hlt r hr
  · refine ⟨fun hc => hfloor.1 ?_, fun text v hc hv r hr => hfloor.2 text v ?_ hv r hr⟩ <;>
      rw [AtomicFile.survives_syncDirectory hc] <;> exact file.survives_visible

theorem written_persist {stage' : PersistStage}
    (h : persistSequenceState file next stage outcome = (file', .ok (some stage'))) :
    Written file' next stage' := by
  rcases persistSequenceState_cases h with ⟨_, _, hne⟩ | ⟨rfl, _⟩ | ⟨_, _, hend⟩
  · rintro rfl
    exact (hne rfl).elim
  · exact fun _ => AtomicFile.visible_replace file (stateText next)
  · cases hend

/-- When the call ends, only what it wrote can be left by a crash. -/
theorem floor_persisted {call : ℕ}
    (h : persistSequenceState file (next + 1) stage outcome = (file', .ok none))
    (hnext : next + 1 ≤ maxSequence) (hlt : ∀ r ∈ released, r.2 < next)
    (hwritten : Written file (next + 1) stage) : Floor file' (released ++ [(call, next)]) := by
  have hcontent : ∀ c, file'.Survives c → c = some (stateText (next + 1)) := by
    rcases persistSequenceState_cases h with ⟨_, hne, _⟩ | ⟨_, hnot⟩ | ⟨hstage, rfl, _⟩
    · exact (hne rfl).elim
    · cases hnot
    · intro c hc
      rw [AtomicFile.survives_syncDirectory hc, hwritten hstage]
  refine ⟨fun hc => (nomatch hcontent _ hc), fun text v hc hv r hr => ?_⟩
  cases hcontent _ hc
  rw [eq_of_readSequenceState hnext hv]
  rcases mem_append.mp hr with hr | hr
  · exact Nat.lt_succ_of_lt (hlt r hr)
  · rw [mem_singleton.mp hr]
    exact Nat.lt_succ_self next

end Persist

/-- What holds of the holder of the lock, over the state file and the allocated values. -/
def Stage.Sound (file : AtomicFile Str) (released : List (ℕ × ℕ)) : Stage → Prop
  | .inspecting initial => initial ≤ maxSequence
  | .creating initial stage =>
    0 < initial ∧ initial ≤ maxSequence ∧ released = [] ∧ Written file initial stage
  | .ready seq =>
    0 < seq.next ∧ seq.next ≤ maxSequence ∧ (∀ r ∈ released, r.2 < seq.next) ∧
      ∀ critical, seq.mutex = some critical → critical.allocated = seq.next ∧
        seq.next < maxSequence ∧ Written file (seq.next + 1) critical.stage

/-- The invariant of the file, of the holder and of the allocated values. -/
structure Sound (s : State) : Prop where
  floor : Floor s.file s.released
  holder : ∀ h, s.holder = some h → h.stage.Sound s.file s.released
  increasing : (s.released.map Prod.snd).Pairwise (· < ·)
  proper : ∀ r ∈ s.released, 0 < r.2 ∧ r.2 < maxSequence

theorem sound_initial (content : Option Str) : Sound (.initial content) :=
  ⟨⟨fun _ => rfl, fun _ _ _ _ _ hr => nomatch hr⟩, nofun, .nil, fun _ hr => nomatch hr⟩

section Step
variable {s t : State}

/-- Another file and holder of the lock. -/
theorem Sound.setFile (hs : Sound s) {file : AtomicFile Str} {holder : Option Holder}
    (hfloor : Floor file s.released)
    (h : ∀ x, holder = some x → x.stage.Sound file s.released) :
    Sound { s with file, holder } :=
  ⟨hfloor, h, hs.increasing, hs.proper⟩

theorem Sound.setHolder (hs : Sound s) {holder : Option Holder}
    (h : ∀ x, holder = some x → x.stage.Sound s.file s.released) : Sound { s with holder } :=
  hs.setFile hs.floor h

theorem Sound.unlock (hs : Sound s) : Sound s.unlock := hs.setHolder nofun

theorem Sound.openWithStart (hs : Sound s) (process : ℕ) (initial : UInt64) (outcome : Outcome) :
    Sound (s.openWithStart process initial outcome) := by
  unfold State.openWithStart
  split
  · refine hs.setHolder fun x hx => ?_
    cases hx
    have := initial.toNat_lt
    unfold Stage.Sound maxSequence
    omega
  · exact hs

theorem Sound.inspect (hs : Sound s) {process initial : ℕ} {outcome : Outcome}
    (hinitial : initial ≤ maxSequence) : Sound (s.inspect process initial outcome) := by
  unfold State.inspect
  have hvisible := s.file.survives_visible
  split
  · rename_i hnone
    rw [hnone] at hvisible
    refine hs.setHolder fun x hx => ?_
    cases hx
    exact ⟨by omega, by unfold maxSequence at *; omega, hs.floor.1 hvisible, nofun⟩
  · rename_i text htext
    rw [htext] at hvisible
    split
    · rename_i next hnext
      obtain ⟨hpos, hmax, _⟩ := readSequenceState_proper hnext
      refine hs.setHolder fun x hx => ?_
      cases hx
      exact ⟨Nat.pos_of_ne_zero hpos, hmax, hs.floor.2 text next hvisible hnext, nofun⟩
    · exact hs.unlock
  · exact hs.unlock

theorem Sound.creation (hs : Sound s) {process initial : ℕ} {stage : PersistStage}
    {outcome : Outcome} (h : (Stage.creating initial stage).Sound s.file s.released) :
    Sound (s.creation process initial stage outcome) := by
  obtain ⟨hpos, hmax, hnone, hwritten⟩ := h
  unfold State.creation
  rcases hp : persistSequenceState s.file initial stage outcome with ⟨file, result⟩
  have hlt : ∀ r ∈ s.released, r.2 < initial := by
    rw [hnone]
    exact nofun
  have hfloor := floor_persist hp hs.floor hmax hlt hwritten
  match result with
  | .error e => exact hs.setFile hfloor nofun
  | .ok none =>
    refine hs.setFile hfloor fun x hx => ?_
    cases hx
    exact ⟨hpos, hmax, hlt, nofun⟩
  | .ok (some stage') =>
    refine hs.setFile hfloor fun x hx => ?_
    cases hx
    exact ⟨hpos, hmax, hnone, written_persist hp⟩

variable {process : ℕ} {seq : DurableSequence}

theorem Sound.setReady (hs : Sound s) (process : ℕ) {file : AtomicFile Str}
    (hfloor : Floor file s.released) (h : (Stage.ready seq).Sound file s.released) :
    Sound ({ s with file }.setReady process seq) := by
  refine hs.setFile hfloor fun x hx => ?_
  cases hx
  exact h

theorem Sound.acquire (hs : Sound s) (h : (Stage.ready seq).Sound s.file s.released) {call : ℕ}
    (ht : s.acquire process seq call = some t) : Sound t := by
  obtain ⟨hpos, hmax, hlt, _⟩ := h
  unfold State.acquire at ht
  split at ht
  · simp only at ht
    split at ht <;> rename_i hnext <;> cases ht
    · refine hs.setReady process hs.floor ⟨hpos, hmax, hlt, fun critical hc => ?_⟩
      cases hc
      exact ⟨rfl, hnext, nofun⟩
    · exact hs.setReady process hs.floor ⟨hpos, hmax, hlt, nofun⟩
  · cases ht

theorem Sound.persist (hs : Sound s) (h : (Stage.ready seq).Sound s.file s.released)
    {critical : Critical} (hc : seq.mutex = some critical) (outcome : Outcome) :
    Sound (s.persist process seq critical outcome) := by
  obtain ⟨hpos, hmax, hlt, hcritical⟩ := h
  obtain ⟨hallocated, hnext, hwritten⟩ := hcritical critical hc
  unfold State.persist
  simp only [hallocated]
  rcases hp : persistSequenceState s.file (seq.next + 1) critical.stage outcome with ⟨file, result⟩
  have hlt' : ∀ r ∈ s.released, r.2 < seq.next + 1 := fun r hr => Nat.lt_succ_of_lt (hlt r hr)
  have hfloor := floor_persist hp hs.floor hnext hlt' hwritten
  match result with
  | .error e => exact hs.setReady process hfloor ⟨hpos, hmax, hlt, nofun⟩
  | .ok (some stage) =>
    refine hs.setReady process hfloor ⟨hpos, hmax, hlt, fun critical' hc' => ?_⟩
    cases hc'
    exact ⟨rfl, hnext, written_persist hp⟩
  | .ok none =>
    refine ⟨floor_persisted hp hnext hlt hwritten, ?_, ?_, ?_⟩
    · intro x hx
      cases hx
      refine ⟨Nat.succ_pos _, hnext, fun r hr => ?_, nofun⟩
      rcases mem_append.mp hr with hr | hr
      · exact hlt' r hr
      · rw [mem_singleton.mp hr]
        exact Nat.lt_succ_self _
    · change (List.map Prod.snd (s.released ++ [_])).Pairwise _
      rw [map_append]
      refine pairwise_append.mpr ⟨hs.increasing, pairwise_singleton _ _, ?_⟩
      intro v hv w hw
      obtain ⟨r, hr, rfl⟩ := mem_map.mp hv
      rw [mem_singleton.mp hw]
      exact hlt r hr
    · intro r hr
      rcases mem_append.mp hr with hr | hr
      · exact hs.proper r hr
      · rw [mem_singleton.mp hr]
        exact ⟨hpos, hnext⟩

end Step

/-- What one event does, whatever it is. -/
inductive Moves (s : State) : State → Prop where
  | openWithStart (process : ℕ) (initial : UInt64) (outcome : Outcome) :
      Moves s (s.openWithStart process initial outcome)
  | inspect {process initial : ℕ} (outcome : Outcome)
      (holder : s.holder = some ⟨process, .inspecting initial⟩) :
      Moves s (s.inspect process initial outcome)
  | creation {process initial : ℕ} {stage : PersistStage} (outcome : Outcome)
      (holder : s.holder = some ⟨process, .creating initial stage⟩) :
      Moves s (s.creation process initial stage outcome)
  | nextBlocking {process : ℕ} {seq : DurableSequence}
      (holder : s.holder = some ⟨process, .ready seq⟩) :
      Moves s { s.setReady process { seq with waiting := seq.waiting ++ [s.calls] } with
        calls := s.calls + 1 }
  | acquire {process call : ℕ} {seq : DurableSequence} {t : State}
      (holder : s.holder = some ⟨process, .ready seq⟩)
      (acquired : s.acquire process seq call = some t) : Moves s t
  | persist {process : ℕ} {seq : DurableSequence} {critical : Critical} (outcome : Outcome)
      (holder : s.holder = some ⟨process, .ready seq⟩) (mutex : seq.mutex = some critical) :
      Moves s (s.persist process seq critical outcome)
  | leave {process call : ℕ} {seq : DurableSequence} {t : State}
      (holder : s.holder = some ⟨process, .ready seq⟩)
      (left : s.leave process seq call = some t) : Moves s t
  | unlock : Moves s s.unlock
  | idle : Moves s s
  | crash {survivor : Option ℕ} {file : AtomicFile Str}
      (recovered : s.file.recover survivor = some file) : Moves s { s with file, holder := none }

theorem moves_step {s t : State} {e : Event} (h : s.step e = some t) : Moves s t := by
  unfold State.step at h
  split at h
  · cases h
    exact .openWithStart ..
  · split at h <;> cases h
    exact .inspect _ ‹_›
  · split at h <;> cases h
    exact .creation _ ‹_›
  · split at h <;> cases h
    exact .nextBlocking ‹_›
  · split at h
    · exact .acquire ‹_› h
    · cases h
  · split at h
    · obtain ⟨critical, hmutex, rfl⟩ := Option.map_eq_some_iff.mp h
      exact .persist _ ‹_› hmutex
    · cases h
  · split at h
    · exact .leave ‹_› h
    · cases h
  · split at h <;> cases h
    exact .unlock
  · cases h
    unfold State.kill
    split
    · exact .unlock
    · exact .idle
  · obtain ⟨file, hfile, rfl⟩ := Option.map_eq_some_iff.mp h
    exact .crash hfile

theorem leave_cases {s t : State} {process call : ℕ} {seq : DurableSequence}
    (h : s.leave process seq call = some t) :
    ∃ result, (call, result) ∈ seq.leaving ∧
      t = { s.setReady process { seq with leaving := seq.leaving.filter (·.1 ≠ call) } with
        returned := s.returned ++ (result.toOption.map (call, ·)).toList } := by
  obtain ⟨⟨call', result⟩, hresult, rfl⟩ := Option.map_eq_some_iff.mp h
  have hcall := find?_some hresult
  rw [decide_eq_true_eq] at hcall
  subst hcall
  refine ⟨result, mem_of_find?_eq_some hresult, ?_⟩
  cases result with
  | ok value => rfl
  | error e => simp [State.setReady, Except.toOption]

theorem sound_step {s t : State} {e : Event} (hs : Sound s) (h : s.step e = some t) :
    Sound t := by
  cases moves_step h with
  | openWithStart process initial outcome => exact hs.openWithStart process initial outcome
  | inspect outcome hholder => exact hs.inspect (hs.holder _ hholder)
  | creation outcome hholder => exact hs.creation (hs.holder _ hholder)
  | nextBlocking hholder =>
    obtain ⟨hpos, hmax, hlt, hcritical⟩ := hs.holder _ hholder
    refine ⟨hs.floor, fun x hx => ?_, hs.increasing, hs.proper⟩
    cases hx
    exact ⟨hpos, hmax, hlt, hcritical⟩
  | acquire hholder ht => exact hs.acquire (hs.holder _ hholder) ht
  | persist outcome hholder hmutex => exact hs.persist (hs.holder _ hholder) hmutex outcome
  | leave hholder ht =>
    obtain ⟨result, _, rfl⟩ := leave_cases ht
    obtain ⟨hpos, hmax, hlt, hcritical⟩ := hs.holder _ hholder
    refine ⟨hs.floor, fun x hx => ?_, hs.increasing, hs.proper⟩
    cases hx
    exact ⟨hpos, hmax, hlt, hcritical⟩
  | unlock => exact hs.unlock
  | idle => exact hs
  | crash hfile =>
    refine hs.setFile ⟨fun hc => ?_, fun text v hc => ?_⟩ nofun
    · exact hs.floor.1 (AtomicFile.survives_recover hfile hc)
    · exact hs.floor.2 text v (AtomicFile.survives_recover hfile hc)

/-- The calls that have not returned yet. -/
def DurableSequence.calls (seq : DurableSequence) : List ℕ :=
  seq.waiting ++ (seq.mutex.map Critical.call).toList ++ seq.leaving.map Prod.fst

/-- The open calls have not returned before, and what they bring was allocated to them. -/
structure DurableSequence.Booked (s : State) (seq : DurableSequence) : Prop where
  nodup : seq.calls.Nodup
  begun : ∀ c ∈ seq.calls, c < s.calls
  pending : ∀ c ∈ seq.calls, c ∉ s.returned.map Prod.fst
  leaving : ∀ c v, (c, .ok v) ∈ seq.leaving → (c, v) ∈ s.released

/-- Every returned value was allocated to its call, which returned once. -/
structure Booked (s : State) : Prop where
  released_lt : ∀ r ∈ s.released, r.1 < s.calls
  returned_released : ∀ r ∈ s.returned, r ∈ s.released
  returned_nodup : (s.returned.map Prod.fst).Nodup
  ready : ∀ process seq, s.holder = some ⟨process, .ready seq⟩ → seq.Booked s

theorem booked_initial (content : Option Str) : Booked (.initial content) :=
  ⟨(fun _ hr => nomatch hr), (fun _ hr => nomatch hr), .nil, nofun⟩

section Booked
variable {s t : State} {process : ℕ} {seq seq' : DurableSequence}

theorem DurableSequence.booked_fresh (s : State) (next : ℕ) : (fresh next).Booked s :=
  ⟨.nil, nofun, nofun, nofun⟩

/-- A step that keeps the books and the open calls. -/
theorem DurableSequence.Booked.perm (h : seq.Booked s) (hcalls : t.calls = s.calls)
    (hreturned : t.returned = s.returned) (hperm : seq'.calls.Perm seq.calls)
    (hleaving : ∀ c v, (c, .ok v) ∈ seq'.leaving → (c, v) ∈ t.released) : seq'.Booked t := by
  refine ⟨hperm.nodup_iff.mpr h.nodup, fun c hc => ?_, fun c hc => ?_, hleaving⟩
  · rw [hcalls]
    exact h.begun c (hperm.mem_iff.mp hc)
  · rw [hreturned]
    exact h.pending c (hperm.mem_iff.mp hc)

theorem calls_finish {call allocated : ℕ} {stage : PersistStage}
    (hc : seq.mutex = some ⟨call, allocated, stage⟩) (result : Except SequenceError ℕ) :
    (seq.finish call result).calls.Perm seq.calls := by
  simp only [DurableSequence.calls, DurableSequence.finish, hc, Option.map_none, Option.map_some,
    Option.toList_none, Option.toList_some, append_nil, map_append, map_cons,
    map_nil, append_assoc]
  exact (perm_append_comm).append_left _

theorem calls_acquire {call : ℕ} (hmutex : seq.mutex = none) (hcall : call ∈ seq.waiting)
    (stage : PersistStage) : ({ seq with
      waiting := seq.waiting.erase call, mutex := some ⟨call, seq.next, stage⟩ } :
        DurableSequence).calls.Perm seq.calls := by
  simp only [DurableSequence.calls, hmutex, Option.map_none, Option.map_some, Option.toList_none,
    Option.toList_some, append_nil]
  refine List.Perm.append_right _ ?_
  exact (perm_append_comm).trans (perm_cons_erase hcall).symm

/-- A step that neither allocates nor returns keeps the books if it keeps those of its holder. -/
theorem Booked.setFile (hs : Booked s) {file : AtomicFile Str} {holder : Option Holder}
    (h : ∀ process seq, holder = some ⟨process, .ready seq⟩ → seq.Booked s) :
    Booked { s with file, holder } := by
  refine ⟨hs.released_lt, hs.returned_released, hs.returned_nodup, fun process seq hseq => ?_⟩
  have hb := h process seq hseq
  exact ⟨hb.nodup, hb.begun, hb.pending, hb.leaving⟩

theorem Booked.inspect (hs : Booked s) (process initial : ℕ) (outcome : Outcome) :
    Booked (s.inspect process initial outcome) := by
  unfold State.inspect
  split
  · exact hs.setFile nofun
  · split
    · refine hs.setFile fun process seq hseq => ?_
      cases hseq
      exact DurableSequence.booked_fresh s _
    · exact hs.setFile nofun
  · exact hs.setFile nofun

theorem Booked.creation (hs : Booked s) (process initial : ℕ) (stage : PersistStage)
    (outcome : Outcome) : Booked (s.creation process initial stage outcome) := by
  unfold State.creation
  rcases persistSequenceState s.file initial stage outcome with ⟨file, result⟩
  match result with
  | .error e => exact hs.setFile nofun
  | .ok (some stage) => exact hs.setFile nofun
  | .ok none =>
    refine hs.setFile fun process seq hseq => ?_
    cases hseq
    exact DurableSequence.booked_fresh s _

/-- The open calls are the same, in other stages. -/
theorem Booked.setReady (hs : Booked s) (h : seq.Booked s) (process : ℕ)
    {file : AtomicFile Str} (hperm : seq'.calls.Perm seq.calls)
    (hleaving : ∀ c v, (c, .ok v) ∈ seq'.leaving → (c, v) ∈ s.released) :
    Booked ({ s with file }.setReady process seq') := by
  refine hs.setFile fun process seq hseq => ?_
  cases hseq
  exact h.perm rfl rfl hperm hleaving

theorem Booked.nextBlocking (hs : Booked s) (h : seq.Booked s) :
    Booked { s.setReady process { seq with waiting := seq.waiting ++ [s.calls] } with
      calls := s.calls + 1 } := by
  have hperm : ({ seq with waiting := seq.waiting ++ [s.calls] } : DurableSequence).calls.Perm
      (s.calls :: seq.calls) := by
    simp only [DurableSequence.calls, append_assoc, singleton_append]
    exact perm_middle
  refine ⟨fun r hr => Nat.lt_succ_of_lt (hs.released_lt r hr), hs.returned_released,
    hs.returned_nodup, fun process seq hseq => ?_⟩
  cases hseq
  refine ⟨hperm.nodup_iff.mpr (nodup_cons.mpr ⟨fun hmem => ?_, h.nodup⟩), fun c hc => ?_,
    fun c hc => ?_, h.leaving⟩
  · exact Nat.lt_irrefl _ (h.begun _ hmem)
  · rcases mem_cons.mp (hperm.mem_iff.mp hc) with rfl | hc
    · exact Nat.lt_succ_self _
    · exact Nat.lt_succ_of_lt (h.begun c hc)
  · rcases mem_cons.mp (hperm.mem_iff.mp hc) with rfl | hc
    · intro hmem
      obtain ⟨r, hr, hcall⟩ := mem_map.mp hmem
      have := hs.released_lt r (hs.returned_released r hr)
      omega
    · exact h.pending c hc

theorem Booked.acquire (hs : Booked s) (h : seq.Booked s) {call : ℕ}
    (ht : s.acquire process seq call = some t) : Booked t := by
  unfold State.acquire at ht
  split at ht
  · rename_i hguard
    have hperm := calls_acquire hguard.1 hguard.2 .start
    simp only at ht
    split at ht <;> cases ht
    · exact hs.setReady h process hperm h.leaving
    · have hfinish := (calls_finish (.refl _) (.error .exhausted)).trans hperm
      refine hs.setReady h process hfinish fun c v hc => ?_
      rcases mem_append.mp hc with hc | hc
      · exact h.leaving c v hc
      · cases mem_singleton.mp hc
  · cases ht

theorem Booked.persist (hs : Booked s) (h : seq.Booked s) {critical : Critical}
    (hc : seq.mutex = some critical) (outcome : Outcome) :
    Booked (s.persist process seq critical outcome) := by
  unfold State.persist
  simp only
  rcases persistSequenceState s.file (critical.allocated + 1) critical.stage outcome with
    ⟨file, result⟩
  match result with
  | .ok (some stage) =>
    refine hs.setReady h process (.of_eq ?_) h.leaving
    simp only [DurableSequence.calls, hc, Option.map_some]
  | .error e =>
    refine hs.setReady h process (calls_finish hc (.error e)) fun c v hmem => ?_
    rcases mem_append.mp hmem with hmem | hmem
    · exact h.leaving c v hmem
    · cases mem_singleton.mp hmem
  | .ok none =>
    refine ⟨fun r hr => ?_, fun r hr => ?_, hs.returned_nodup, fun process seq' hseq => ?_⟩
    · rcases mem_append.mp hr with hr | hr
      · exact hs.released_lt r hr
      · rw [mem_singleton.mp hr]
        exact h.begun _ (by simp [DurableSequence.calls, hc])
    · exact mem_append_left _ (hs.returned_released r hr)
    · cases hseq
      refine h.perm rfl rfl (calls_finish hc (.ok critical.allocated)) fun c v hmem => ?_
      rcases mem_append.mp hmem with hmem | hmem
      · exact mem_append_left _ (h.leaving c v hmem)
      · cases mem_singleton.mp hmem
        exact mem_append_right _ (mem_singleton_self _)

theorem Booked.leave (hs : Booked s) (h : seq.Booked s) {call : ℕ}
    (ht : s.leave process seq call = some t) : Booked t := by
  obtain ⟨result, hmem, rfl⟩ := leave_cases ht
  have hcall : call ∈ seq.calls := mem_append_right _ (mem_map_of_mem hmem)
  have hvalue : ∀ r ∈ (result.toOption.map (call, ·)).toList, r.1 = call ∧ r ∈ s.released := by
    intro r hr
    cases result with
    | error e => cases hr
    | ok value =>
      cases mem_singleton.mp hr
      exact ⟨rfl, h.leaving call value hmem⟩
  have hsub : ({ seq with leaving := seq.leaving.filter (·.1 ≠ call) } : DurableSequence).calls.Sublist
      seq.calls := (filter_sublist.map _).append_left _
  have hgone : call ∉ ({ seq with leaving := seq.leaving.filter (·.1 ≠ call) } :
      DurableSequence).calls := by
    intro hin
    rcases mem_append.mp hin with hin | hin
    · exact (nodup_append.mp h.nodup).2.2 call hin call (mem_map_of_mem hmem) rfl
    · obtain ⟨r, hr, hr'⟩ := mem_map.mp hin
      exact of_decide_eq_true (mem_filter.mp hr).2 hr'
  refine ⟨hs.released_lt, fun r hr => ?_, ?_, fun process seq' hseq => ?_⟩
  · rcases mem_append.mp hr with hr | hr
    · exact hs.returned_released r hr
    · exact (hvalue r hr).2
  · change (List.map Prod.fst (s.returned ++ _)).Nodup
    rw [map_append]
    refine nodup_append.mpr ⟨hs.returned_nodup, ?_, fun c hc d hd => ?_⟩
    · cases result with
      | error e => exact .nil
      | ok value => exact pairwise_singleton _ _
    · obtain ⟨r, hr, rfl⟩ := mem_map.mp hd
      rintro rfl
      rw [(hvalue r hr).1] at hc
      exact h.pending call hcall hc
  · cases hseq
    refine ⟨hsub.nodup h.nodup, fun c hc => h.begun c (hsub.subset hc), fun c hc => ?_,
      fun c v hcv => h.leaving c v (mem_filter.mp hcv).1⟩
    intro hret
    change c ∈ List.map Prod.fst (s.returned ++ _) at hret
    rw [map_append] at hret
    rcases mem_append.mp hret with hret | hret
    · exact h.pending c (hsub.subset hc) hret
    · obtain ⟨r, hr, rfl⟩ := mem_map.mp hret
      rw [(hvalue r hr).1] at hc
      exact hgone hc

theorem booked_step {e : Event} (hs : Booked s) (h : s.step e = some t) : Booked t := by
  cases moves_step h with
  | openWithStart process initial outcome =>
    unfold State.openWithStart
    split
    · exact hs.setFile nofun
    · exact hs
  | inspect outcome hholder => exact hs.inspect _ _ outcome
  | creation outcome hholder => exact hs.creation _ _ _ outcome
  | nextBlocking hholder => exact hs.nextBlocking (hs.ready _ _ hholder)
  | acquire hholder ht => exact hs.acquire (hs.ready _ _ hholder) ht
  | persist outcome hholder hmutex => exact hs.persist (hs.ready _ _ hholder) hmutex outcome
  | leave hholder ht => exact hs.leave (hs.ready _ _ hholder) ht
  | unlock => exact hs.setFile nofun
  | idle => exact hs
  | crash hfile => exact hs.setFile nofun

theorem released_step {e : Event} (h : s.step e = some t) : s.released <+: t.released := by
  cases moves_step h with
  | openWithStart process initial outcome =>
    unfold State.openWithStart
    split <;> exact prefix_rfl
  | inspect outcome hholder =>
    unfold State.inspect
    split <;> try split
    all_goals exact prefix_rfl
  | @creation _ initial stage outcome hholder =>
    unfold State.creation
    rcases persistSequenceState s.file initial stage outcome with ⟨file, _ | _ | _⟩ <;>
      exact prefix_rfl
  | acquire hholder ht =>
    unfold State.acquire at ht
    split at ht
    · simp only at ht
      split at ht <;> cases ht <;> exact prefix_rfl
    · cases ht
  | @persist _ _ critical outcome hholder hmutex =>
    unfold State.persist
    simp only
    rcases persistSequenceState s.file (critical.allocated + 1) critical.stage outcome with
      ⟨file, result⟩
    match result with
    | .error e => exact prefix_rfl
    | .ok none => exact prefix_append _ _
    | .ok (some stage) => exact prefix_rfl
  | leave hholder ht =>
    obtain ⟨result, _, rfl⟩ := leave_cases ht
    exact prefix_rfl
  | nextBlocking | unlock | idle | crash => exact prefix_rfl

end Booked

section Runs
variable {content : Option Str} {es : List Event} {s : State}

theorem invariant_run (hrun : run State.step (.initial content) es = some s) :
    Sound s ∧ Booked s := by
  refine run_invariant (I := fun s => Sound s ∧ Booked s) ?_ hrun
    ⟨sound_initial content, booked_initial content⟩
  intro s e t hs h
  exact ⟨sound_step hs.1 h, booked_step hs.2 h⟩

theorem released_run {as : List Event} {u : State} (hrun : run State.step u as = some s) :
    u.released <+: s.released :=
  run_rel (I := fun _ => True) (R := fun s t : State => s.released <+: t.released)
    (fun _ => prefix_rfl) (fun _ _ _ => List.IsPrefix.trans) (fun _ _ _ _ _ => trivial)
    (fun _ _ _ _ h => released_step h) trivial hrun

/-- Values are allocated in increasing order of the release of the mutex, and a call that began
after another one had returned gets the larger value. The last value is never allocated. -/
theorem sequence_in_order (hrun : run State.step (.initial content) es = some s) :
    (s.released.map Prod.snd).Pairwise (· < ·) ∧
      (∀ r ∈ s.released, r.2 ≠ 0 ∧ r.2 ≠ maxSequence) ∧
      (∀ r ∈ s.returned, r ∈ s.released) ∧ (s.returned.map Prod.snd).Nodup ∧
      (∀ pre post u, es = pre ++ post → run State.step (.initial content) pre = some u →
        ∀ r ∈ s.returned, u.calls ≤ r.1 → ∀ r' ∈ u.returned, r'.2 < r.2) ∧
      ∀ process seq call, s.holder = some ⟨process, .ready seq⟩ → seq.next = maxSequence →
        seq.mutex = none → call ∈ seq.waiting →
        s.step (.acquire call) = some (s.setReady process
          ({ seq with waiting := seq.waiting.erase call }.finish call (.error .exhausted))) := by
  obtain ⟨hsound, hbooked⟩ := invariant_run hrun
  refine ⟨hsound.increasing, fun r hr => ?_, hbooked.returned_released, ?_, ?_, ?_⟩
  · obtain ⟨hpos, hmax⟩ := hsound.proper r hr
    omega
  · refine List.Nodup.map_on ?_ (List.Nodup.of_map _ hbooked.returned_nodup)
    intro r hr r' hr' hvalue
    exact inj_on_of_nodup_map (hsound.increasing.imp (fun h => h.ne))
      (hbooked.returned_released r hr) (hbooked.returned_released r' hr') hvalue
  · rintro pre post u rfl hpre r hr hcall r' hr'
    obtain ⟨u', hu, hpost⟩ := run_append.mp hrun
    cases hpre.symm.trans hu
    obtain ⟨rest, hrest⟩ := released_run hpost
    obtain ⟨_, hbooked'⟩ := invariant_run hpre
    have hlate : r ∈ rest := by
      have hmem := hbooked.returned_released r hr
      rw [← hrest] at hmem
      rcases mem_append.mp hmem with hmem | hmem
      · have := hbooked'.released_lt r hmem
        omega
      · exact hmem
    have hincreasing := hsound.increasing
    rw [← hrest, map_append] at hincreasing
    exact (pairwise_append.mp hincreasing).2.2 r'.2
      (mem_map_of_mem (hbooked'.returned_released r' hr')) r.2 (mem_map_of_mem hlate)
  · intro process seq call hholder hnext hmutex hcall
    simp only [State.step, hholder, State.acquire]
    rw [if_pos ⟨hmutex, hcall⟩, if_neg (by omega)]

end Runs

/-- The operations of one `persist_sequence_state` that all succeed. -/
def persistEvents (event : Outcome → Event) : List Event := List.replicate 6 (event .ok)

/-- A first process allocates 5 and dies when it has renamed 7 into place; its directory had not
been synced, but the rename outlives a system crash. The next process goes on with 7. -/
def crashEvents : List Event :=
  [.openWithStart 0 5 .ok, .inspect .ok] ++ persistEvents .creation ++
    [.nextBlocking, .acquire 0] ++ persistEvents .persist ++ [.leave 0, .nextBlocking, .acquire 1] ++
    List.replicate 5 (.persist .ok) ++
    [.crash (some 0), .openWithStart 1 3 .ok, .inspect .ok, .nextBlocking, .acquire 2] ++
    persistEvents .persist ++ [.leave 2]

theorem sequence_in_order_sample : ∃ s, run State.step (.initial none) crashEvents = some s ∧
    s.returned = [(0, 5), (2, 7)] ∧ (s.released.map Prod.snd).Pairwise (· < ·) ∧
      ∀ r ∈ s.returned, r ∈ s.released := by
  have hrun : (run State.step (.initial none) crashEvents).map State.returned =
      some [(0, 5), (2, 7)] := by decide +kernel
  obtain ⟨s, hs, hreturned⟩ := Option.map_eq_some_iff.mp hrun
  obtain ⟨hincreasing, _, hreleased, _⟩ := sequence_in_order hs
  exact ⟨s, hs, hreturned, hincreasing, hreleased⟩

/-- Two threads allocate 5 and 6; the first is suspended after it has released the mutex. -/
def overtakingEvents : List Event :=
  [.openWithStart 0 5 .ok, .inspect .ok] ++ persistEvents .creation ++
    [.nextBlocking, .nextBlocking, .acquire 0] ++ persistEvents .persist ++ [.acquire 1] ++
    persistEvents .persist ++ [.leave 1, .leave 0]

theorem returns_overtake : ¬ ∀ content es s, run State.step (.initial content) es = some s →
    (s.returned.map Prod.snd).Pairwise (· < ·) := by
  intro h
  have hrun : (run State.step (.initial none) overtakingEvents).map State.returned =
      some [(1, 6), (0, 5)] := by decide +kernel
  obtain ⟨s, hs, hreturned⟩ := Option.map_eq_some_iff.mp hrun
  have hsorted := h _ _ s hs
  rw [hreturned] at hsorted
  exact absurd hsorted (by decide)

end SkidMonitor.Sequence
