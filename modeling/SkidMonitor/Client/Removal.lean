import SkidMonitor.Client.Listeners

/-! The signals that come after the removal of their listener. -/
namespace SkidMonitor.Client.ReceiverLoop

open List

variable {cfg : ReceiverConfig} {s t : ReceiverLoop} {label : ReceiverLabel}
  {labels : List ReceiverLabel} {addr : Str}

section Removal

variable {before new sent : List ReceiverMessage}

/-- No signal of the listener before a snapshot that lists it. -/
def Quiet (addr : Str) (messages : List ReceiverMessage) : Prop :=
  ∀ pre signal post, messages = pre ++ .signal addr signal :: post →
    ∃ addrs, .listening addrs ∈ pre ∧ addr ∈ addrs

theorem quiet_of_silent (h : ∀ signal, .signal addr signal ∉ new) : Quiet addr new := by
  rintro pre signal post rfl
  exact absurd (mem_append_right _ mem_cons_self) (h signal)

/-- Once the listener is listed again, anything may follow. -/
theorem Quiet.append {addrs : List Str} (h : Quiet addr new)
    (hlisted : .listening addrs ∈ new) (haddr : addr ∈ addrs) : Quiet addr (new ++ sent) := by
  intro pre signal post heq
  rcases append_eq_append_iff.mp heq with ⟨rest, rfl, _⟩ | ⟨rest, rfl, hrest⟩
  · exact ⟨addrs, mem_append_left _ hlisted, haddr⟩
  · cases rest with
    | nil =>
      rw [append_nil] at hlisted
      exact ⟨addrs, hlisted, haddr⟩
    | cons m rest =>
      obtain ⟨rfl, _⟩ := List.cons.inj hrest
      exact h pre signal rest rfl

/-- The listener was removed and has not been listed since: its threads hold no signal, and those
that may take one wait for a snapshot. -/
structure Silent (addr : Str) (new : List ReceiverMessage) (s : ReceiverLoop) : Prop where
  silent : ∀ signal, .signal addr signal ∉ new
  started : s.control.started = true
  threads : ∀ (i : ℕ) (l : Listener), s.listeners[i]? = some l → l.addr = addr →
    l.pc.holds = false ∧
      (l.stop = true ∨ i ∈ s.control.receivers ∨ s.control = .snapshot (.added i))

/-- What the messages after a removal are like. -/
def Held (addr : Str) (before : List ReceiverMessage) (s : ReceiverLoop) : Prop :=
  ∃ new, s.messages = before ++ new ∧ (Silent addr new s ∨
    Quiet addr new ∧ (s.rx = false ∨ ∃ addrs, .listening addrs ∈ new ∧ addr ∈ addrs))

/-- No thread of the listener goes on with a signal before the snapshot that lists the listener. -/
def Patient (addr : Str) (s : ReceiverLoop) (label : ReceiverLabel) : Prop :=
  ∀ (i : ℕ) (input : ThreadInput) (l : Listener), label = .thread i input →
    s.listeners[i]? = some l → l.addr = addr → s.control = .snapshot (.added i) →
    ∀ signal, l.pc ≠ .received signal

/-- Nothing is sent any more once the receiving end is gone. -/
theorem closed_step (h : Step cfg s label t) (hrx : s.rx = false) :
    t.rx = false ∧ t.messages = s.messages := by
  have hnone : ∀ {sent : List ReceiverMessage} {P : ReceiverMessage → Prop},
      (∀ m ∈ sent, s.rx = true ∧ P m) → s.messages ++ sent = s.messages := by
    intro sent P hsent
    cases sent with
    | nil => exact append_nil _
    | cons m sent =>
      rw [hrx] at hsent
      exact absurd (hsent m mem_cons_self).1 Bool.noConfusion
  cases h with
  | bound | spawned => exact ⟨hrx, rfl⟩
  | reported hsent hreceivers hfrom hto _ => exact ⟨hrx, hnone hsent⟩
  | removed hcontrol hi => exact ⟨hrx, rfl⟩
  | inactive hcontrol hi hsent => exact ⟨hrx, hnone hsent⟩
  | stopped hcontrol => exact ⟨hrx, rfl⟩
  | listed hcontrol hopen =>
    rw [hrx] at hopen
    cases hopen
  | unlisted hcontrol hclosed => exact ⟨hrx, rfl⟩
  | dropped => exact ⟨rfl, rfl⟩
  | thread hl hadvances => exact ⟨hrx, hnone hadvances.sends⟩

theorem dropped_step (h : Step cfg s label t) (hrx : s.rx = true) (hrx' : t.rx = false) :
    t.messages = s.messages := by
  cases h <;> first | rfl | (rw [show s.rx = false from hrx'] at hrx; cases hrx)

/-- The messages grow. -/
theorem messages_step (h : Step cfg s label t) : ∃ sent, t.messages = s.messages ++ sent := by
  cases h <;> first | exact ⟨_, rfl⟩ | exact ⟨[], (append_nil _).symm⟩

theorem Silent.errors (h : Silent addr new s) (hsent : ∀ m ∈ sent, m.isError = true) :
    ∀ signal, .signal addr signal ∉ new ++ sent := by
  intro signal hmem
  rcases mem_append.mp hmem with hmem | hmem
  · exact h.silent signal hmem
  · exact absurd (hsent _ hmem) (by simp [ReceiverMessage.isError])

theorem silent_step (h : Step cfg s label t) (hpatient : Patient addr s label)
    (hrx : t.rx = true) (htidy : Tidy cfg.net s) (hs : Silent addr new s) :
    ∃ sent, t.messages = s.messages ++ sent ∧ (Silent addr (new ++ sent) t ∨
      Quiet addr (new ++ sent) ∧ ∃ addrs, .listening addrs ∈ sent ∧ addr ∈ addrs) := by
  cases h with
  | @bound label attempt configured socket control hattempt hbind hvacant hcontrol =>
    refine ⟨[], (append_nil _).symm, .inl ?_⟩
    rw [append_nil]
    obtain ⟨_, _, hfrom, _⟩ | ⟨hfrom, rfl⟩ := hcontrol
    · exact absurd hs.started (by simp [hfrom, ControlPc.started])
    refine ⟨hs.silent, rfl, fun i l hl haddr => ?_⟩
    rcases Table.of_getElem?_concat hl with hl | ⟨rfl, rfl⟩
    · obtain ⟨hholds, hwaits⟩ := hs.threads i l hl haddr
      simp only [hfrom, ControlPc.receivers, not_mem_nil, reduceCtorEq, or_false] at hwaits
      exact ⟨hholds, .inl hwaits⟩
    · exact ⟨rfl, .inr (.inl (mem_singleton_self _))⟩
  | spawned hl hcontrol =>
    refine ⟨[], (append_nil _).symm, .inl ?_⟩
    rw [append_nil]
    obtain ⟨_, hfrom, _⟩ | ⟨hfrom, rfl⟩ := hcontrol
    · exact absurd hs.started (by simp [hfrom, ControlPc.started])
    refine ⟨hs.silent, rfl, fun j l' hl' haddr => ?_⟩
    obtain ⟨l₀, hl₀, haddr₀, _, hstop, hpc⟩ := of_getElem?_setPc hl'
    obtain ⟨hholds, hwaits⟩ := hs.threads j l₀ hl₀ (haddr₀ ▸ haddr)
    simp only [hfrom, ControlPc.receivers, mem_singleton, reduceCtorEq, or_false] at hwaits
    refine ⟨?_, ?_⟩
    · rw [hpc]
      split_ifs
      · rfl
      · exact hholds
    · rcases hwaits with hwaits | rfl
      · exact .inl (hstop.trans hwaits)
      · exact .inr (.inr rfl)
  | reported hsent hreceivers hfrom hto hstarted =>
    refine ⟨_, rfl, .inl ⟨hs.errors fun m hm => (hsent m hm).2, hstarted hs.started, ?_⟩⟩
    intro i l hl haddr
    obtain ⟨hholds, hwaits⟩ := hs.threads i l hl haddr
    refine ⟨hholds, ?_⟩
    rw [hreceivers]
    exact hwaits.imp id (Or.imp id fun hsnapshot => absurd hsnapshot (hfrom _ 0 []).1)
  | removed hcontrol hi =>
    refine ⟨[], (append_nil _).symm, .inl ?_⟩
    rw [append_nil]
    refine ⟨hs.silent, rfl, fun j l hl haddr => ?_⟩
    obtain ⟨hholds, hwaits⟩ := hs.threads j l hl haddr
    simp only [hcontrol, ControlPc.receivers, not_mem_nil, reduceCtorEq, or_false] at hwaits
    exact ⟨hholds, .inl hwaits⟩
  | inactive hcontrol hi hsent =>
    exact ⟨_, rfl, .inl ⟨hs.errors fun m hm => (hsent m hm).2, hs.started, hs.threads⟩⟩
  | stopped hcontrol =>
    refine ⟨[], (append_nil _).symm, .inl ?_⟩
    rw [append_nil]
    refine ⟨hs.silent, rfl, fun j l hl haddr => ?_⟩
    obtain ⟨l₀, hl₀, rfl⟩ := Table.of_getElem?_modify hl
    have haddr₀ : l₀.addr = addr := by
      rw [← haddr]
      split_ifs <;> rfl
    obtain ⟨hholds, hwaits⟩ := hs.threads j l₀ hl₀ haddr₀
    simp only [hcontrol, ControlPc.receivers, not_mem_nil, reduceCtorEq, or_false] at hwaits
    split_ifs
    · exact ⟨hholds, .inl rfl⟩
    · exact ⟨hholds, .inl hwaits⟩
  | listed hcontrol hopen =>
    have hsilent : ∀ signal, .signal addr signal ∉ new ++ [.listening s.activeListeners] := by
      simp [hs.silent]
    refine ⟨_, rfl, ?_⟩
    by_cases hlisted : addr ∈ s.activeListeners
    · exact .inr ⟨quiet_of_silent hsilent, _, mem_singleton_self _, hlisted⟩
    · refine .inl ⟨hsilent, rfl, fun j l hl haddr => ?_⟩
      refine ⟨(hs.threads j l hl haddr).1, .inl ?_⟩
      by_contra hstop
      -- A listener that is not stopped is registered by now.
      have hcovered := htidy.covered j l hl (by simpa using hstop)
      simp only [hcontrol, ControlPc.receivers, not_mem_nil, reduceCtorEq, exists_false,
        or_false, false_or] at hcovered
      apply hlisted
      rw [activeListeners, mem_insertionSort, ← AList.mem_keys, ← AList.lookup_isSome, ← haddr,
        hcovered]
      rfl
  | unlisted hcontrol hclosed =>
    rw [hclosed] at hrx
    cases hrx
  | dropped => cases hrx
  | @thread i l input pc sent hl hadvances =>
    refine ⟨_, rfl, .inl ⟨fun signal hmem => ?_, hs.started, fun j l' hl' haddr => ?_⟩⟩
    · rcases mem_append.mp hmem with hmem | hmem
      · exact hs.silent signal hmem
      · rcases (hadvances.sends _ hmem).2 with herror | ⟨_, hpc, heq⟩
        · simp [ReceiverMessage.isError] at herror
        · cases heq
          have hholds := (hs.threads i l hl rfl).1
          simp [hpc, ListenerPc.holds] at hholds
    · obtain ⟨l₀, hl₀, haddr₀, _, hstop, hpc⟩ := of_getElem?_setPc hl'
      obtain ⟨hholds, hwaits⟩ := hs.threads j l₀ hl₀ (haddr₀ ▸ haddr)
      refine ⟨?_, hstop ▸ hwaits⟩
      rw [hpc]
      split_ifs with hij
      · subst hij
        rw [hl] at hl₀
        cases hl₀
        by_contra hpc'
        rcases hadvances.takes (by simpa using hpc') with htakes | ⟨hstop', signal, hreceived⟩
        · rw [hholds] at htakes
          cases htakes
        · rcases hwaits with hstop'' | hmem | hsnapshot
          · rw [hstop'] at hstop''
            cases hstop''
          · obtain ⟨l'', hl'', hidle, _⟩ := htidy.pending i hmem
            rw [hl] at hl''
            cases hl''
            rw [hreceived] at hidle
            cases hidle
          · exact hpatient i input l rfl hl (haddr₀ ▸ haddr) hsnapshot signal hreceived
      · exact hholds

theorem held_step (h : Step cfg s label t) (hpatient : Patient addr s label)
    (htidy : s.rx = true → Tidy cfg.net s) (hs : Held addr before s) : Held addr before t := by
  obtain ⟨new, hnew, hs⟩ := hs
  have hquiet : Quiet addr new := by
    rcases hs with hs | ⟨hquiet, _⟩
    · exact quiet_of_silent hs.silent
    · exact hquiet
  cases hrx : s.rx with
  | false =>
    obtain ⟨hclosed, hmessages⟩ := closed_step h hrx
    exact ⟨new, hmessages.trans hnew, .inr ⟨hquiet, .inl hclosed⟩⟩
  | true =>
    rcases hs with hs | ⟨_, hclosed | ⟨addrs, hlisted, haddr⟩⟩
    · cases hrx' : t.rx with
      | false => exact ⟨new, (dropped_step h hrx hrx').trans hnew, .inr ⟨hquiet, .inl hrx'⟩⟩
      | true =>
        obtain ⟨sent, hsent, ht⟩ := silent_step h hpatient hrx' (htidy hrx) hs
        refine ⟨new ++ sent, by rw [hsent, hnew, append_assoc], ?_⟩
        refine ht.imp id fun ⟨hquiet, addrs, hlisted, haddr⟩ => ?_
        exact ⟨hquiet, .inr ⟨addrs, mem_append_right _ hlisted, haddr⟩⟩
    · rw [hrx] at hclosed
      cases hclosed
    · obtain ⟨sent, hsent⟩ := messages_step h
      refine ⟨new ++ sent, by rw [hsent, hnew, append_assoc], .inr ⟨?_, .inr ?_⟩⟩
      · exact hquiet.append hlisted haddr
      · exact ⟨addrs, mem_append_left _ hlisted, haddr⟩

theorem held_run {u : ReceiverLoop} {later : List ReceiverLabel}
    (hpatient : Runs.Meets (step cfg) (Patient addr) t later)
    (hreports : ∀ label ∈ later, label.Reports) (htidy : t.rx = true → Tidy cfg.net t)
    (ht : Held addr before t) (hr : Runs.run (step cfg) t later = some u) : Held addr before u := by
  induction later generalizing t with
  | nil =>
    cases hr
    exact ht
  | cons label later ih =>
    obtain ⟨hlabel, hlater⟩ := forall_mem_cons.mp hreports
    obtain ⟨v, hv, hu⟩ := Runs.run_cons.mp hr
    obtain ⟨hfirst, hrest⟩ := (Runs.meets_cons hv).mp hpatient
    have hstep := step_cases hv
    exact ih hrest hlater (fun hrx => tidy_step hstep hlabel hrx (htidy (rx_step hstep hrx)))
      (held_step hstep hfirst htidy ht) hu

/-- A thread that holds a signal sends it. -/
theorem send_held (cfg : ReceiverConfig) {i : ℕ} {l : Listener} (hrx : s.rx = true)
    (hl : s.listeners[i]? = some l)
    (hholds : l.pc.holds = true) :
    ∃ later t signal, (∀ label ∈ later, ∃ input, label = .thread i input) ∧
      Runs.run (step cfg) s later = some t ∧ t.messages = s.messages ++ [.signal l.addr signal] := by
  have hsend : ∀ {s : ReceiverLoop} {l' : Listener} {signal : Signal}, s.rx = true →
      s.listeners[i]? = some l' → l'.pc = .sending signal →
      ∃ t, step cfg s (.thread i .none) = some t ∧
        t.messages = s.messages ++ [.signal l'.addr signal] := by
    intro s l' signal hrx hl hpc
    refine ⟨s.sendOrEnd i (.signal l'.addr signal), ?_, ?_⟩
    · simp only [step, hl, Option.bind_some, receiveForever, hpc]
    · rw [sendOrEnd, if_pos hrx, sendMessage, if_pos hrx]
      rfl
  cases hpc : l.pc with
  | sending signal =>
    obtain ⟨t, ht, hmessages⟩ := hsend hrx hl hpc
    exact ⟨[.thread i .none], t, signal, by simp, Runs.run_cons.mpr ⟨t, ht, rfl⟩, hmessages⟩
  | publishing signal =>
    have hnone : s.publishToExtension none = s := by
      unfold publishToExtension
      cases s.extension <;> rfl
    have hpublish : step cfg s (.thread i (.published none)) =
        some (s.setPc i (.sending signal)) := by
      simp only [step, hl, Option.bind_some, receiveForever, hpc, hnone]
    obtain ⟨l', hl', haddr, _, hpc'⟩ := getElem?_setPc i (.sending signal) hl
    rw [if_pos rfl] at hpc'
    obtain ⟨t, ht, hmessages⟩ := hsend (show (s.setPc i (.sending signal)).rx = true from hrx) hl' hpc'
    refine ⟨[.thread i (.published none), .thread i .none], t, signal, by simp, ?_, ?_⟩
    · exact Runs.run_cons.mpr ⟨_, hpublish, Runs.run_cons.mpr ⟨t, ht, rfl⟩⟩
    · rw [hmessages, haddr]
      rfl
  | _ =>
    rw [hpc] at hholds
    cases hholds

/-- The threads of the listeners leave the control thread alone. -/
theorem patient_threads {i : ℕ} {later : List ReceiverLabel}
    (hlater : ∀ label ∈ later, ∃ input, label = .thread i input) (hs : s.control = .waiting)
    (hr : Runs.run (step cfg) s later = some t) : Runs.Meets (step cfg) (Patient addr) s later := by
  induction later generalizing s with
  | nil => exact Runs.meets_nil
  | cons label later ih =>
    obtain ⟨⟨input, rfl⟩, hrest⟩ := forall_mem_cons.mp hlater
    obtain ⟨u, hu, ht⟩ := Runs.run_cons.mp hr
    have hcontrol : u.control = s.control := by
      obtain ⟨l, hl, h⟩ := Option.bind_eq_some_iff.mp hu
      obtain ⟨pc, sent, _, rfl⟩ := advances_receiveForever h
      rfl
    refine (Runs.meets_cons hu).mpr ⟨?_, ih hrest (hcontrol.trans hs) ht⟩
    intro j input' l hlabel hl haddr hsnapshot
    rw [hs] at hsnapshot
    cases hsnapshot

/-- After the snapshot that follows a removal the listener is silent until it is listed again, just
if no thread of it held a signal at the time of the snapshot; this for the runs in which a new
thread waits for its own snapshot. -/
theorem removal_silences_iff (addrs : List Str) (hreports : ∀ label ∈ labels, label.Reports)
    (hr : Runs.run (step cfg) (initial addrs) labels = some s)
    (hcontrol : s.control = .snapshot (.removed addr)) (hrx : s.rx = true) :
    ∃ t, step cfg s .control = some t ∧
      t.messages = s.messages ++ [.listening s.activeListeners] ∧
      ((∀ later u, (∀ label ∈ later, label.Reports) →
          Runs.Meets (step cfg) (Patient addr) t later → Runs.run (step cfg) t later = some u →
          ∃ new, u.messages = t.messages ++ new ∧ Quiet addr new) ↔
        ∀ l ∈ s.listeners, l.addr = addr → l.pc.holds = false) := by
  have htidy := tidy_run hreports (fun _ => tidy_initial addrs) hr hrx
  let t : ReceiverLoop :=
    { s with messages := s.messages ++ [.listening s.activeListeners], control := .waiting }
  have hstep : step cfg s .control = some t := by
    simp only [step, hcontrol]
    rw [sendMessage, if_pos hrx, if_pos hrx]
  refine ⟨t, hstep, rfl, ?_, ?_⟩
  · intro hall l hl haddr
    by_contra hholds
    obtain ⟨i, hi⟩ := mem_iff_getElem?.mp hl
    obtain ⟨later, u, signal, hlater, hrun, hsent⟩ := send_held cfg (s := t) hrx hi
      (by simpa using hholds)
    obtain ⟨new, hnew, hquiet⟩ := hall later u (fun label hlabel => by
      obtain ⟨input, rfl⟩ := hlater label hlabel
      simp [ReceiverLabel.Reports, ReceiverLabel.attempt?]) (patient_threads hlater rfl hrun) hrun
    obtain rfl := append_cancel_left (hsent.symm.trans hnew)
    obtain ⟨_, hlisted, _⟩ := hquiet [] signal [] (by rw [haddr]; rfl)
    cases hlisted
  · intro hidle later u hlater hpatient hrun
    have hlookup := htidy.gone addr (.inr hcontrol)
    have hheld : Held addr t.messages t := by
      refine ⟨[], (append_nil _).symm, .inl ⟨by simp, rfl, fun i l hl haddr => ?_⟩⟩
      refine ⟨hidle l (mem_of_getElem? hl) haddr, .inl ?_⟩
      by_contra hstop
      have hcovered := htidy.covered i l hl (by simpa using hstop)
      rw [haddr, hlookup, hcontrol] at hcovered
      simp [ControlPc.receivers] at hcovered
    have htidy' : t.rx = true → Tidy cfg.net t := fun _ =>
      tidy_step (step_cases hstep) (by simp [ReceiverLabel.Reports, ReceiverLabel.attempt?]) hrx htidy
    obtain ⟨new, hnew, hu⟩ := held_run hpatient hlater htidy' hheld hrun
    refine ⟨new, hnew, ?_⟩
    rcases hu with hu | ⟨hquiet, _⟩
    · exact quiet_of_silent hu.silent
    · exact hquiet

end Removal

section Sample

def sampleSignal : Signal := .logs []

/-- A thread receives a signal and finds its flag down. -/
def sampleTake (i : ℕ) : List ReceiverLabel :=
  [.thread i .none, .thread i (.received (.ok sampleSignal)), .thread i .none]

def sampleSend (i : ℕ) : List ReceiverLabel := [.thread i (.published none), .thread i .none]

theorem removal_silences_iff_sample :
    ∃ t, step sampleConfig (sampleReached (sampleStartup ++ sampleRemove)) .control = some t ∧
      ∀ later u, (∀ label ∈ later, label.Reports) →
        Runs.Meets (step sampleConfig) (Patient sampleAddr) t later →
        Runs.run (step sampleConfig) t later = some u →
        ∃ new, u.messages = t.messages ++ new ∧ Quiet sampleAddr new := by
  obtain ⟨t, ht, _, hiff⟩ := removal_silences_iff [sampleAddr] sample_reports
    (run_sampleReached _ (by decide +kernel))
    (show _ = ControlPc.snapshot (.removed sampleAddr) by decide +kernel) (by decide +kernel)
  exact ⟨t, ht, hiff.mpr (by decide +kernel)⟩

/-- A run with a snapshot that follows a removal, and a signal of the removed listener after it. -/
def Strays (labels later : List ReceiverLabel) : Prop :=
  ∃ s t u, Runs.run (step sampleConfig) (initial [sampleAddr]) labels = some s ∧
    s.control = .snapshot (.removed sampleAddr) ∧ step sampleConfig s .control = some t ∧
    t.messages = s.messages ++ [.listening []] ∧ Runs.run (step sampleConfig) t later = some u ∧
    ∃ new, u.messages = t.messages ++ new ∧ ¬ Quiet sampleAddr new

theorem strays_of_messages (before : List ReceiverMessage) {labels later : List ReceiverLabel}
    (hs : ((Runs.run (step sampleConfig) (initial [sampleAddr]) labels).map
      fun s => (s.control, s.messages)) = some (.snapshot (.removed sampleAddr), before))
    (ht : ((Runs.run (step sampleConfig) (initial [sampleAddr]) (labels ++ [.control])).map
      fun t => t.messages) = some (before ++ [.listening []]))
    (hu : ((Runs.run (step sampleConfig) (initial [sampleAddr]) (labels ++ [.control] ++ later)).map
      fun u => u.messages) = some (before ++ [.listening []] ++ [.signal sampleAddr sampleSignal])) :
    Strays labels later := by
  obtain ⟨s, hrun, hs⟩ := Option.map_eq_some_iff.mp hs
  obtain ⟨t, hrun', ht⟩ := Option.map_eq_some_iff.mp ht
  obtain ⟨u, hrun'', hu⟩ := Option.map_eq_some_iff.mp hu
  obtain ⟨hcontrol, hbefore⟩ := Prod.mk.inj hs
  obtain ⟨s', hs', hstep⟩ := Runs.run_append.mp hrun'
  rw [hrun] at hs'
  cases hs'
  obtain ⟨t', hstep, hnil⟩ := Runs.run_cons.mp hstep
  cases hnil
  obtain ⟨t', ht', hlater⟩ := Runs.run_append.mp hrun''
  rw [hrun'] at ht'
  cases ht'
  refine ⟨s, t, u, hrun, hcontrol, hstep, by rw [ht, hbefore], hlater,
    [.signal sampleAddr sampleSignal], by rw [hu, ht], fun hquiet => ?_⟩
  obtain ⟨_, hlisted, _⟩ := hquiet [] sampleSignal [] rfl
  cases hlisted

/-- A thread past its second look at the flag sends its signal after the snapshot, and a new thread
sends one before the snapshot that lists it. -/
theorem removed_listener_signals :
    Strays (sampleStartup ++ sampleTake 0 ++ sampleRemove) (sampleSend 0) ∧
      Strays (sampleStartup ++ sampleRemove) ([.thread 0 .none,
        .request (.addListener sampleAddr) sampleAttempt, .control] ++ sampleTake 1 ++ sampleSend 1) :=
  ⟨strays_of_messages [.listening [sampleAddr]] (by decide +kernel) (by decide +kernel)
      (by decide +kernel),
    strays_of_messages [.listening [sampleAddr]] (by decide +kernel) (by decide +kernel)
      (by decide +kernel)⟩

end Sample

end SkidMonitor.Client.ReceiverLoop
