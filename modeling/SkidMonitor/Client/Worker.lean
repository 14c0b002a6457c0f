import SkidMonitor.Lib.Run

/-! The worker of the state database: two channels, of telemetry and of control commands, and the
loop that serves both until the client shuts it down. -/
namespace SkidMonitor.Client

open List

/-- A profile to be saved, with the channel for the answer. -/
structure SaveRequest (π : Type) where
  profile : π
  resultTx : ℕ
  deriving DecidableEq

inductive StorageControlCommand (π : Type) where
  | saveAvatarProfile (request : SaveRequest π)
  | shutdown
  deriving DecidableEq

/-- What the client still holds: dropping the storage sends `shutdown`, waits, and lets go of the
control channel and then of the other one. -/
inductive ClientPhase where
  | active
  | closing
  | controlDropped
  | dropped
  deriving DecidableEq

/-- Where the loop is; a message that was received is handled in the next step. -/
inductive WorkerPc (τ π : Type) where
  | polling
  | receiving
  | waiting
  | handling (command : τ)
  | saving (request : SaveRequest π)
  | answering (request : SaveRequest π) (ok : Bool)
  | draining
  | drained (command : τ)
  | finishing
  | ended
  deriving DecidableEq

namespace WorkerPc

variable {τ π : Type}

/-- The command that was received and not handled yet. -/
def command : WorkerPc τ π → List τ
  | .handling command | .drained command => [command]
  | _ => []

/-- The save that was received and not made yet. -/
def request : WorkerPc τ π → List (SaveRequest π)
  | .saving request => [request]
  | _ => []

/-- The answer that was not sent yet. -/
def answer : WorkerPc τ π → List (SaveRequest π × Bool)
  | .answering request ok => [(request, ok)]
  | _ => []

/-- The shutdown was received. -/
def stopping : WorkerPc τ π → Bool
  | .draining | .drained _ | .finishing | .ended => true
  | _ => false

end WorkerPc

inductive WorkerEffect (τ π : Type) where
  | handled (command : τ)
  | saved (request : SaveRequest π) (ok : Bool)
  | answered (request : SaveRequest π) (ok : Bool)
  | acknowledged
  deriving DecidableEq

structure StorageWorker (τ π : Type) where
  client : ClientPhase
  channels : ℕ
  rx : List τ
  controlRx : List (StorageControlCommand π)
  controlOpen : Bool
  pc : WorkerPc τ π
  log : List (WorkerEffect τ π)
  deriving DecidableEq

/-- A step of the client, or one of the worker with the outcome of its write, if it makes one. -/
inductive StorageEvent (τ π : Type) where
  | send (command : τ)
  | save (request : SaveRequest π)
  | shutdown
  | dropControl
  | dropTelemetry
  | work (ok : Bool)
  deriving DecidableEq

/-- The step is one of the worker. -/
def StorageEvent.isWork {τ π : Type} : StorageEvent τ π → Bool
  | .work _ => true
  | _ => false

namespace StorageWorker

variable {τ π : Type}

def initial : StorageWorker τ π := ⟨.active, 0, [], [], true, .polling, []⟩

/-- The sender of the control channel is still there. -/
def controlTx (s : StorageWorker τ π) : Bool := s.client = .active ∨ s.client = .closing

/-- The sender of the telemetry channel is still there. -/
def tx (s : StorageWorker τ π) : Bool := s.client ≠ .dropped

/-- The next step of `run_storage`. A write that fails is only reported. -/
def work (s : StorageWorker τ π) (ok : Bool) : Option (StorageWorker τ π) :=
  match s.pc with
  | .polling =>
    if s.controlOpen then
      match s.controlRx with
      | .saveAvatarProfile request :: controlRx => some { s with controlRx, pc := .saving request }
      | .shutdown :: controlRx => some { s with controlRx, pc := .draining }
      | [] => some { s with controlOpen := s.controlTx, pc := .receiving }
    else some { s with pc := .receiving }
  | .receiving =>
    match s.rx with
    | command :: rx => some { s with rx, pc := .handling command }
    | [] =>
      if s.controlOpen then
        -- the time is over, or no more telemetry can come
        if s.tx then some { s with pc := .polling } else some { s with pc := .waiting }
      else if s.tx then none
      else some { s with pc := .ended }
  | .waiting =>
    match s.controlRx with
    | .saveAvatarProfile request :: controlRx => some { s with controlRx, pc := .saving request }
    | .shutdown :: controlRx => some { s with controlRx, pc := .finishing }
    | [] => if s.controlTx then none else some { s with pc := .ended }
  | .handling command => some { s with pc := .polling, log := s.log ++ [.handled command] }
  | .saving request => some { s with pc := .answering request ok, log := s.log ++ [.saved request ok] }
  | .answering request result =>
    some { s with pc := .polling, log := s.log ++ [.answered request result] }
  | .draining =>
    match s.rx with
    | command :: rx => some { s with rx, pc := .drained command }
    | [] => some { s with pc := .finishing }
  | .drained command => some { s with pc := .draining, log := s.log ++ [.handled command] }
  | .finishing => some { s with pc := .ended, log := s.log ++ [.acknowledged] }
  | .ended => none

/-- Nothing is sent once the storage is being dropped. -/
def step (s : StorageWorker τ π) : StorageEvent τ π → Option (StorageWorker τ π)
  | .send command => if s.client = .active then some { s with rx := s.rx ++ [command] } else none
  | .save request =>
    if s.client = .active ∧ request.resultTx = s.channels then
      some { s with
        channels := s.channels + 1
        controlRx := s.controlRx ++ [.saveAvatarProfile request] }
    else none
  | .shutdown =>
    if s.client = .active then
      some { s with client := .closing, controlRx := s.controlRx ++ [.shutdown] }
    else none
  | .dropControl => if s.client = .closing then some { s with client := .controlDropped } else none
  | .dropTelemetry =>
    if s.client = .controlDropped then some { s with client := .dropped } else none
  | .work ok => s.work ok

abbrev run : StorageWorker τ π → List (StorageEvent τ π) → Option (StorageWorker τ π) :=
  Runs.run step

/-- The telemetry that was sent. -/
def telemetryOf (events : List (StorageEvent τ π)) : List τ :=
  events.filterMap fun
    | .send command => some command
    | _ => none

/-- The saves that were asked for. -/
def savesOf (events : List (StorageEvent τ π)) : List (SaveRequest π) :=
  events.filterMap fun
    | .save request => some request
    | _ => none

def requestsOf (queue : List (StorageControlCommand π)) : List (SaveRequest π) :=
  queue.filterMap fun
    | .saveAvatarProfile request => some request
    | .shutdown => none

def handledOf (log : List (WorkerEffect τ π)) : List τ :=
  log.filterMap fun
    | .handled command => some command
    | _ => none

def savedOf (log : List (WorkerEffect τ π)) : List (SaveRequest π × Bool) :=
  log.filterMap fun
    | .saved request ok => some (request, ok)
    | _ => none

def answeredOf (log : List (WorkerEffect τ π)) : List (SaveRequest π × Bool) :=
  log.filterMap fun
    | .answered request ok => some (request, ok)
    | _ => none

variable {s t : StorageWorker τ π} {ok : Bool} {events : List (StorageEvent τ π)}
  {e : StorageEvent τ π}

/-- What the worker can do while its control channel is in use. -/
inductive Works (s : StorageWorker τ π) (ok : Bool) : StorageWorker τ π → Prop where
  | takeSave {request : SaveRequest π} {rest : List (StorageControlCommand π)} :
      s.pc = .polling ∨ s.pc = .waiting → s.controlRx = .saveAvatarProfile request :: rest →
      Works s ok { s with controlRx := rest, pc := .saving request }
  | takeShutdown {rest : List (StorageControlCommand π)} : s.pc = .polling →
      s.controlRx = .shutdown :: rest → Works s ok { s with controlRx := rest, pc := .draining }
  | takeLast {rest : List (StorageControlCommand π)} : s.pc = .waiting →
      s.controlRx = .shutdown :: rest → Works s ok { s with controlRx := rest, pc := .finishing }
  | idle : s.pc = .polling → s.controlRx = [] →
      Works s ok { s with controlOpen := s.controlTx, pc := .receiving }
  | take {command : τ} {rest : List τ} : s.pc = .receiving → s.rx = command :: rest →
      Works s ok { s with rx := rest, pc := .handling command }
  | timeout : s.pc = .receiving → s.rx = [] → s.tx = true → Works s ok { s with pc := .polling }
  | disconnected : s.pc = .receiving → s.rx = [] → s.tx = false →
      Works s ok { s with pc := .waiting }
  | handled {command : τ} : s.pc = .handling command →
      Works s ok { s with pc := .polling, log := s.log ++ [.handled command] }
  | saved {request : SaveRequest π} : s.pc = .saving request →
      Works s ok { s with pc := .answering request ok, log := s.log ++ [.saved request ok] }
  | answered {request : SaveRequest π} {result : Bool} : s.pc = .answering request result →
      Works s ok { s with pc := .polling, log := s.log ++ [.answered request result] }
  | drain {command : τ} {rest : List τ} : s.pc = .draining → s.rx = command :: rest →
      Works s ok { s with rx := rest, pc := .drained command }
  | empty : s.pc = .draining → s.rx = [] → Works s ok { s with pc := .finishing }
  | drained {command : τ} : s.pc = .drained command →
      Works s ok { s with pc := .draining, log := s.log ++ [.handled command] }
  | finished : s.pc = .finishing →
      Works s ok { s with pc := .ended, log := s.log ++ [.acknowledged] }

theorem works_of_work (hopen : s.controlOpen = true)
    (hwaiting : s.pc = .waiting → s.controlRx ≠ []) (h : s.work ok = some t) : Works s ok t := by
  unfold work at h
  split at h
  · rename_i hpc
    rw [if_pos hopen] at h
    split at h
    · cases h
      exact .takeSave (.inl hpc) ‹_›
    · cases h
      exact .takeShutdown hpc ‹_›
    · cases h
      exact .idle hpc ‹_›
  · rename_i hpc
    split at h
    · cases h
      exact .take hpc ‹_›
    · rw [if_pos hopen] at h
      split_ifs at h with htx
      · cases h
        exact .timeout hpc ‹_› htx
      · cases h
        exact .disconnected hpc ‹_› (by simpa using htx)
  · rename_i hpc
    split at h
    · cases h
      exact .takeSave (.inr hpc) ‹_›
    · cases h
      exact .takeLast hpc ‹_›
    · exact absurd ‹_› (hwaiting hpc)
  · cases h
    exact .handled ‹_›
  · cases h
    exact .saved ‹_›
  · cases h
    exact .answered ‹_›
  · rename_i hpc
    split at h
    · cases h
      exact .drain hpc ‹_›
    · cases h
      exact .empty hpc ‹_›
  · cases h
    exact .drained ‹_›
  · cases h
    exact .finished ‹_›
  · cases h

/-- The shutdown was sent and not received yet. -/
def Closing (s : StorageWorker τ π) : Prop := s.client ≠ .active ∧ s.pc.stopping = false

instance (s : StorageWorker τ π) : Decidable s.Closing := inferInstanceAs (Decidable (_ ∧ _))

/-- How the loop, the channels and the client stand to each other. -/
structure Orderly (s : StorageWorker τ π) : Prop where
  controlOpen : s.controlOpen = true
  queue : ∃ pending : List (SaveRequest π), s.controlRx =
    pending.map .saveAvatarProfile ++ if s.Closing then [.shutdown] else []
  stopping : s.pc.stopping = true → s.client ≠ .active ∧ s.controlRx = []
  empty : s.pc = .waiting ∨ s.pc = .finishing ∨ s.pc = .ended → s.rx = []
  waiting : s.pc = .waiting → s.client = .dropped
  silent : s.pc ≠ .ended → .acknowledged ∉ s.log
  ended : s.pc = .ended → ∃ before, s.log = before ++ [.acknowledged] ∧ .acknowledged ∉ before

section Queue

variable {pending : List (SaveRequest π)} {rest : List (StorageControlCommand π)}
  {request : SaveRequest π} {p : Prop} [Decidable p]

theorem queue_save (h : .saveAvatarProfile request :: rest =
      pending.map StorageControlCommand.saveAvatarProfile ++ if p then [.shutdown] else []) :
    ∃ later : List (SaveRequest π), rest =
      later.map .saveAvatarProfile ++ if p then [.shutdown] else [] := by
  cases pending with
  | nil => split_ifs at h <;> simp at h
  | cons first later =>
    rw [map_cons, cons_append] at h
    exact ⟨later, (List.cons.inj h).2⟩

theorem queue_shutdown (h : .shutdown :: rest =
      pending.map StorageControlCommand.saveAvatarProfile ++ if p then [.shutdown] else []) :
    p ∧ rest = [] := by
  cases pending with
  | nil =>
    split_ifs at h with hp
    · simp_all
    · simp at h
  | cons first later =>
    rw [map_cons, cons_append] at h
    cases (List.cons.inj h).1

end Queue

/-- As long as the shutdown is on its way, the control channel is not empty. -/
theorem Orderly.closing (h : Orderly s) (hclosing : s.Closing) : s.controlRx ≠ [] := by
  obtain ⟨pending, hqueue⟩ := h.queue
  rw [hqueue, if_pos hclosing]
  exact append_ne_nil_of_right_ne_nil _ (cons_ne_nil _ _)

theorem Orderly.waiting_closing (h : Orderly s) (hpc : s.pc = .waiting) : s.Closing := by
  refine ⟨?_, by rw [hpc]; rfl⟩
  rw [h.waiting hpc]
  nofun

theorem Orderly.works (h : Orderly s) (hstep : s.work ok = some t) : Works s ok t :=
  works_of_work h.controlOpen (fun hpc => h.closing (h.waiting_closing hpc)) hstep

/-- One more effect that is not the acknowledgement. -/
theorem silent_append {log : List (WorkerEffect τ π)} {effect : WorkerEffect τ π}
    (h : .acknowledged ∉ log) (heffect : effect ≠ .acknowledged) :
    .acknowledged ∉ log ++ [effect] := by
  rw [mem_append, mem_singleton]
  rintro (hmem | rfl)
  · exact h hmem
  · exact heffect rfl

theorem closing_congr (hclient : t.client = .active ↔ s.client = .active)
    (hstopping : t.pc.stopping = s.pc.stopping) : t.Closing ↔ s.Closing := by
  rw [Closing, Closing, ne_eq, ne_eq, hclient, hstopping]

/-- A step that leaves the control channel alone. -/
theorem Orderly.moved (h : Orderly s) (hopen : t.controlOpen = s.controlOpen)
    (hcontrol : t.controlRx = s.controlRx) (hclient : t.client = s.client)
    (hstopping : t.pc.stopping = s.pc.stopping) (hgoing : s.pc ≠ .ended) (hgoing' : t.pc ≠ .ended)
    (hlog : t.log = s.log ∨ ∃ effect, t.log = s.log ++ [effect] ∧ effect ≠ .acknowledged)
    (hempty : t.pc = .waiting ∨ t.pc = .finishing → t.rx = [])
    (hwaiting : t.pc = .waiting → t.client = .dropped) : Orderly t := by
  refine ⟨hopen.trans h.controlOpen, ?_, ?_, ?_, hwaiting, ?_, fun hpc => absurd hpc hgoing'⟩
  · rw [hcontrol]
    simpa only [closing_congr (by rw [hclient]) hstopping] using h.queue
  · rw [hstopping, hclient, hcontrol]
    exact h.stopping
  · rintro (hpc | hpc | hpc)
    · exact hempty (.inl hpc)
    · exact hempty (.inr hpc)
    · exact absurd hpc hgoing'
  · rcases hlog with hlog | ⟨effect, hlog, heffect⟩
    · rw [hlog]
      exact fun _ => h.silent hgoing
    · rw [hlog]
      exact fun _ => silent_append (h.silent hgoing) heffect

theorem orderly_works (h : Orderly s) (hworks : Works s ok t) : Orderly t := by
  cases hworks with
  | @takeSave request rest hpc hcontrol =>
    have hgoing : s.pc.stopping = false ∧ s.pc ≠ .ended := by
      rcases hpc with hpc | hpc <;> rw [hpc] <;> exact ⟨rfl, nofun⟩
    obtain ⟨pending, hqueue⟩ := h.queue
    rw [hcontrol] at hqueue
    obtain ⟨later, hrest⟩ := queue_save hqueue
    refine ⟨h.controlOpen, ⟨later, ?_⟩, nofun, nofun, nofun, fun _ => h.silent hgoing.2, nofun⟩
    have hsame : StorageWorker.Closing { s with controlRx := rest, pc := .saving request } ↔
        s.Closing := closing_congr Iff.rfl hgoing.1.symm
    simpa only [hsame] using hrest
  | takeShutdown hpc hcontrol =>
    obtain ⟨pending, hqueue⟩ := h.queue
    rw [hcontrol] at hqueue
    obtain ⟨⟨hclient, _⟩, rfl⟩ := queue_shutdown hqueue
    refine ⟨h.controlOpen, ⟨[], ?_⟩, fun _ => ⟨hclient, rfl⟩, nofun, nofun, fun _ => h.silent ?_,
      nofun⟩
    · rw [if_neg (fun hclosing => absurd hclosing.2 nofun)]
      rfl
    · rw [hpc]
      nofun
  | takeLast hpc hcontrol =>
    obtain ⟨pending, hqueue⟩ := h.queue
    rw [hcontrol] at hqueue
    obtain ⟨⟨hclient, _⟩, rfl⟩ := queue_shutdown hqueue
    refine ⟨h.controlOpen, ⟨[], ?_⟩, fun _ => ⟨hclient, rfl⟩, fun _ => h.empty (.inl hpc), nofun,
      fun _ => h.silent ?_, nofun⟩
    · rw [if_neg (fun hclosing => absurd hclosing.2 nofun)]
      rfl
    · rw [hpc]
      nofun
  | idle hpc hcontrol =>
    have hactive : s.client = .active := by
      by_contra hclient
      exact h.closing ⟨hclient, by rw [hpc]; rfl⟩ hcontrol
    have hopen : s.controlTx = s.controlOpen := by
      rw [h.controlOpen, controlTx, hactive]
      rfl
    exact h.moved hopen rfl rfl (by rw [hpc]; rfl) (by rw [hpc]; nofun) nofun (.inl rfl) nofun nofun
  | take hpc | timeout hpc | drain hpc =>
    exact h.moved rfl rfl rfl (by rw [hpc]; rfl) (by rw [hpc]; nofun) nofun (.inl rfl) nofun nofun
  | disconnected hpc hrx htx =>
    refine h.moved rfl rfl rfl (by rw [hpc]; rfl) (by rw [hpc]; nofun) nofun (.inl rfl)
      (fun _ => hrx) fun _ => ?_
    simpa [tx] using htx
  | handled hpc | saved hpc | answered hpc | drained hpc =>
    exact h.moved rfl rfl rfl (by rw [hpc]; rfl) (by rw [hpc]; nofun) nofun
      (.inr ⟨_, rfl, nofun⟩) nofun nofun
  | empty hpc hrx =>
    exact h.moved rfl rfl rfl (by rw [hpc]; rfl) (by rw [hpc]; nofun) nofun (.inl rfl)
      (fun _ => hrx) nofun
  | finished hpc =>
    have hgoing : s.pc ≠ .ended := by
      rw [hpc]
      nofun
    obtain ⟨hclient, hcontrol⟩ := h.stopping (by rw [hpc]; rfl)
    refine ⟨h.controlOpen, ⟨[], ?_⟩, fun _ => ⟨hclient, hcontrol⟩,
      fun _ => h.empty (.inr (.inl hpc)), nofun, fun hne => absurd rfl hne,
      fun _ => ⟨s.log, rfl, h.silent hgoing⟩⟩
    rw [if_neg (fun hclosing => absurd hclosing.2 nofun), hcontrol]
    rfl

/-- While the client is active, the worker is in its loop and no shutdown is on its way. -/
theorem Orderly.active (h : Orderly s) (hactive : s.client = .active) :
    s.pc.stopping = false ∧ s.pc ≠ .waiting ∧
      ∃ pending : List (SaveRequest π), s.controlRx = pending.map .saveAvatarProfile := by
  refine ⟨?_, ?_, ?_⟩
  · by_contra hstopping
    exact (h.stopping (by simpa using hstopping)).1 hactive
  · intro hpc
    rw [h.waiting hpc] at hactive
    cases hactive
  · obtain ⟨pending, hqueue⟩ := h.queue
    rw [if_neg (fun hclosing => hclosing.1 hactive), append_nil] at hqueue
    exact ⟨pending, hqueue⟩

/-- The client lets go of one more channel. -/
theorem orderly_dropped (h : Orderly s) (hclient : s.client ≠ .active) {phase : ClientPhase}
    (hphase : phase ≠ .active) (hwaiting : s.pc = .waiting → phase = .dropped) :
    Orderly { s with client := phase } := by
  have hsame : StorageWorker.Closing { s with client := phase } ↔ s.Closing :=
    closing_congr (iff_of_false hphase hclient) rfl
  refine ⟨h.controlOpen, ?_, ?_, h.empty, hwaiting, h.silent, h.ended⟩
  · simpa only [hsame] using h.queue
  · exact fun hstopping => ⟨hphase, (h.stopping hstopping).2⟩

theorem orderly_step (h : Orderly s) (hstep : step s e = some t) : Orderly t := by
  cases e with
  | send command =>
    obtain ⟨hactive, ⟨⟩⟩ := Option.ite_none_right_eq_some.mp hstep
    obtain ⟨hgoing, hwaiting, _⟩ := h.active hactive
    refine ⟨h.controlOpen, h.queue, h.stopping, ?_, h.waiting, h.silent, h.ended⟩
    rintro (hpc | hpc | hpc)
    · exact absurd hpc hwaiting
    · exact absurd hgoing (by rw [hpc]; nofun)
    · exact absurd hgoing (by rw [hpc]; nofun)
  | save request =>
    obtain ⟨⟨hactive, _⟩, hstep⟩ := Option.ite_none_right_eq_some.mp hstep
    cases hstep
    obtain ⟨hgoing, _, pending, hqueue⟩ := h.active hactive
    refine ⟨h.controlOpen, ⟨pending ++ [request], ?_⟩, ?_, h.empty, h.waiting, h.silent, h.ended⟩
    · rw [if_neg (fun hclosing => hclosing.1 hactive), append_nil, map_append, hqueue]
      rfl
    · intro hstopping
      exact absurd (hgoing.symm.trans hstopping) nofun
  | shutdown =>
    obtain ⟨hactive, ⟨⟩⟩ := Option.ite_none_right_eq_some.mp hstep
    obtain ⟨hgoing, hwaiting, pending, hqueue⟩ := h.active hactive
    refine ⟨h.controlOpen, ⟨pending, ?_⟩, ?_, h.empty, ?_, h.silent, h.ended⟩
    · rw [if_pos ⟨nofun, hgoing⟩, hqueue]
    · intro hstopping
      exact absurd (hgoing.symm.trans hstopping) nofun
    · exact fun hpc => absurd hpc hwaiting
  | dropControl =>
    obtain ⟨hclient, ⟨⟩⟩ := Option.ite_none_right_eq_some.mp hstep
    exact orderly_dropped h (hclient ▸ nofun) nofun fun hpc => absurd (h.waiting hpc) (hclient ▸ nofun)
  | dropTelemetry =>
    obtain ⟨hclient, ⟨⟩⟩ := Option.ite_none_right_eq_some.mp hstep
    exact orderly_dropped h (hclient ▸ nofun) nofun fun _ => rfl
  | work ok => exact orderly_works h (h.works hstep)

/-- Where everything is that was sent: done, in hand, or in its channel. -/
structure Accounted (events : List (StorageEvent τ π)) (s : StorageWorker τ π) : Prop where
  telemetry : telemetryOf events = handledOf s.log ++ (s.pc.command ++ s.rx)
  saves : savesOf events =
    (savedOf s.log).map Prod.fst ++ (s.pc.request ++ requestsOf s.controlRx)
  answers : savedOf s.log = answeredOf s.log ++ s.pc.answer
  channels : (savesOf events).map SaveRequest.resultTx = List.range s.channels

section Log

variable (log log' : List (WorkerEffect τ π))

@[simp] theorem handledOf_append : handledOf (log ++ log') = handledOf log ++ handledOf log' :=
  filterMap_append

@[simp] theorem savedOf_append : savedOf (log ++ log') = savedOf log ++ savedOf log' :=
  filterMap_append

@[simp] theorem answeredOf_append :
    answeredOf (log ++ log') = answeredOf log ++ answeredOf log' :=
  filterMap_append

end Log

theorem accounted_works (h : Accounted events s) (hworks : Works s ok t) : Accounted events t := by
  obtain ⟨htelemetry, hsaves, hanswers, hchannels⟩ := h
  cases hworks with
  | takeSave hpc hcontrol =>
    rw [hcontrol] at hsaves
    rcases hpc with hpc | hpc <;> rw [hpc] at htelemetry hsaves hanswers <;>
      exact ⟨htelemetry, hsaves, hanswers, hchannels⟩
  | takeShutdown hpc hcontrol | takeLast hpc hcontrol =>
    rw [hpc] at htelemetry hsaves hanswers
    rw [hcontrol] at hsaves
    exact ⟨htelemetry, hsaves, hanswers, hchannels⟩
  | idle hpc | timeout hpc | disconnected hpc | empty hpc =>
    rw [hpc] at htelemetry hsaves hanswers
    exact ⟨htelemetry, hsaves, hanswers, hchannels⟩
  | take hpc hrx | drain hpc hrx =>
    rw [hpc] at htelemetry hsaves hanswers
    rw [hrx] at htelemetry
    exact ⟨htelemetry, hsaves, hanswers, hchannels⟩
  | handled hpc | drained hpc | saved hpc | answered hpc | finished hpc =>
    rw [hpc] at htelemetry hsaves hanswers
    refine ⟨?_, ?_, ?_, hchannels⟩
    · simpa [handledOf, WorkerPc.command] using htelemetry
    · simpa [savedOf, WorkerPc.request] using hsaves
    · simpa [savedOf, answeredOf, WorkerPc.answer] using hanswers

theorem accounted_step (horderly : Orderly s) (h : Accounted events s) (hstep : step s e = some t) :
    Accounted (events ++ [e]) t := by
  have htelemetry : telemetryOf (events ++ [e]) = telemetryOf events ++ telemetryOf [e] :=
    filterMap_append
  have hsaves : savesOf (events ++ [e]) = savesOf events ++ savesOf [e] := filterMap_append
  -- Most events send nothing.
  have hquiet (ht : telemetryOf [e] = []) (hs : savesOf [e] = []) (h : Accounted events t) :
      Accounted (events ++ [e]) t := by
    rw [ht, append_nil] at htelemetry
    rw [hs, append_nil] at hsaves
    exact ⟨htelemetry.trans h.telemetry, hsaves.trans h.saves, h.answers, hsaves ▸ h.channels⟩
  cases e with
  | send command =>
    obtain ⟨_, ⟨⟩⟩ := Option.ite_none_right_eq_some.mp hstep
    refine ⟨?_, ?_, h.answers, ?_⟩
    · rw [htelemetry, h.telemetry]
      simp [telemetryOf]
    · rw [hsaves, h.saves]
      exact append_nil _
    · rw [hsaves]
      exact (congrArg _ (append_nil _)).trans h.channels
  | save request =>
    obtain ⟨⟨_, hchannel⟩, hstep⟩ := Option.ite_none_right_eq_some.mp hstep
    cases hstep
    refine ⟨?_, ?_, h.answers, ?_⟩
    · rw [htelemetry, h.telemetry]
      exact append_nil _
    · rw [hsaves, h.saves]
      simp [savesOf, requestsOf]
    · rw [hsaves, map_append, h.channels, range_succ, ← hchannel]
      rfl
  | shutdown =>
    obtain ⟨_, ⟨⟩⟩ := Option.ite_none_right_eq_some.mp hstep
    exact hquiet rfl rfl ⟨h.telemetry, by simp [h.saves, requestsOf], h.answers, h.channels⟩
  | dropControl | dropTelemetry =>
    obtain ⟨_, ⟨⟩⟩ := Option.ite_none_right_eq_some.mp hstep
    exact hquiet rfl rfl ⟨h.telemetry, h.saves, h.answers, h.channels⟩
  | work ok => exact hquiet rfl rfl (accounted_works h (horderly.works hstep))

theorem accounted_run (hrun : run initial events = some s) : Orderly s ∧ Accounted events s := by
  refine Runs.run_history (I := fun events s => Orderly s ∧ Accounted events s) ?_ ?_ hrun
  · refine ⟨⟨rfl, ⟨[], rfl⟩, nofun, nofun, nofun, nofun, nofun⟩, ⟨rfl, rfl, rfl, rfl⟩⟩
  · rintro events u e v _ ⟨horderly, haccounted⟩ hstep
    exact ⟨orderly_step horderly hstep, accounted_step horderly haccounted hstep⟩

/-- The steps the worker has left once the shutdown was sent. -/
def budget (s : StorageWorker τ π) : ℕ :=
  3 * (requestsOf s.controlRx).length + 2 * s.rx.length + match s.pc with
    | .ended => 0
    | .finishing => 1
    | .draining => 2
    | .polling | .waiting | .drained _ => 3
    | .receiving | .handling _ | .answering _ _ => 4
    | .saving _ => 5

/-- While the shutdown is on its way or was received, every step of the worker counts. -/
theorem budget_works (horderly : Orderly s) (hclient : s.client ≠ .active)
    (hworks : Works s ok t) : t.budget + 1 ≤ s.budget := by
  cases hworks with
  | takeSave hpc hcontrol =>
    rcases hpc with hpc | hpc <;>
      simp only [budget, hpc, hcontrol, requestsOf, filterMap_cons, length_cons] <;> omega
  | takeShutdown hpc hcontrol | takeLast hpc hcontrol =>
    simp only [budget, hpc, hcontrol, requestsOf, filterMap_cons]
    omega
  | idle hpc hcontrol =>
    exact absurd hcontrol (horderly.closing ⟨hclient, by rw [hpc]; rfl⟩)
  | take hpc hrx | drain hpc hrx =>
    simp only [budget, hpc, hrx, length_cons]
    omega
  | timeout hpc _ _ | disconnected hpc _ _ | empty hpc _ | handled hpc | saved hpc | answered hpc
  | drained hpc | finished hpc =>
    simp only [budget, hpc]
    omega

theorem client_works (hworks : Works s ok t) : t.client = s.client := by
  cases hworks <;> rfl

/-- Once the client is closing it stays so, and the budget only falls. -/
theorem budget_step (h : Orderly s ∧ s.client ≠ .active) (hstep : step s e = some t) :
    (Orderly t ∧ t.client ≠ .active) ∧ t.budget + (if e.isWork then 1 else 0) ≤ s.budget ∧
      telemetryOf [e] = [] ∧ savesOf [e] = [] := by
  obtain ⟨horderly, hclient⟩ := h
  have horderly' := orderly_step horderly hstep
  cases e with
  | send command | shutdown =>
    obtain ⟨hactive, _⟩ := Option.ite_none_right_eq_some.mp hstep
    exact absurd hactive hclient
  | save request =>
    obtain ⟨⟨hactive, _⟩, _⟩ := Option.ite_none_right_eq_some.mp hstep
    exact absurd hactive hclient
  | dropControl | dropTelemetry =>
    obtain ⟨_, ⟨⟩⟩ := Option.ite_none_right_eq_some.mp hstep
    exact ⟨⟨horderly', nofun⟩, Nat.le_refl _, rfl, rfl⟩
  | work ok =>
    have hworks := horderly.works hstep
    exact ⟨⟨horderly', by rwa [client_works hworks]⟩, budget_works horderly hclient hworks, rfl, rfl⟩

theorem closing_run (h : Orderly s ∧ s.client ≠ .active) (hrun : run s events = some t) :
    (Orderly t ∧ t.client ≠ .active) ∧ t.budget + events.countP StorageEvent.isWork ≤ s.budget ∧
      telemetryOf events = [] ∧ savesOf events = [] := by
  refine ⟨Runs.run_invariant (I := fun s => Orderly s ∧ s.client ≠ .active)
      (fun s e t hs ht => (budget_step hs ht).1) hrun h,
    Runs.run_budget (fun s e t hs ht => (budget_step hs ht).1)
      (fun s e t hs ht => (budget_step hs ht).2.1) h hrun, ?_⟩
  induction events generalizing s with
  | nil => exact ⟨rfl, rfl⟩
  | cons e events ih =>
    obtain ⟨u, hu, hrest⟩ := Runs.run_cons.mp hrun
    obtain ⟨hu', _, htelemetry, hsaves⟩ := budget_step h hu
    obtain ⟨htelemetry', hsaves'⟩ := ih hu' hrest
    have hsplit : e :: events = [e] ++ events := rfl
    rw [hsplit, telemetryOf, savesOf, filterMap_append, filterMap_append]
    exact ⟨append_eq_nil_iff.mpr ⟨htelemetry, htelemetry'⟩,
      append_eq_nil_iff.mpr ⟨hsaves, hsaves'⟩⟩

/-- After the shutdown the worker is never stuck before it has ended. -/
theorem work_enabled (h : Orderly s) (hclient : s.client ≠ .active) (hgoing : s.pc ≠ .ended)
    (ok : Bool) : ∃ t, s.work ok = some t := by
  unfold work
  split
  · rw [if_pos h.controlOpen]
    split <;> exact ⟨_, rfl⟩
  · split
    · exact ⟨_, rfl⟩
    · rw [if_pos h.controlOpen]
      split <;> exact ⟨_, rfl⟩
  · rename_i hpc
    split
    · exact ⟨_, rfl⟩
    · exact ⟨_, rfl⟩
    · exact absurd ‹_› (h.closing ⟨hclient, by rw [hpc]; rfl⟩)
  all_goals first | exact ⟨_, rfl⟩ | skip
  · split <;> exact ⟨_, rfl⟩
  · exact absurd ‹_› hgoing

theorem ended_of_budget (h : s.budget = 0) : s.pc = .ended := by
  unfold budget at h
  cases hpc : s.pc with
  | ended => rfl
  | _ =>
    rw [hpc] at h
    simp at h

/-- A client that is closing has sent the shutdown, and nothing since. -/
theorem shutdown_sent (hrun : run initial events = some s) (hclient : s.client ≠ .active) :
    ∃ sent rest, events = sent ++ .shutdown :: rest ∧ telemetryOf events = telemetryOf sent ∧
      savesOf events = savesOf sent := by
  obtain ⟨sent, e, rest, u, v, rfl, hu, hstep, hrest, hactive, hclosing⟩ :=
    Runs.run_change (P := fun s => s.client = .active) hrun rfl hclient
  have horderly := (accounted_run hu).1
  have hshutdown : e = .shutdown := by
    cases e with
    | shutdown => rfl
    | send | save =>
      obtain ⟨_, ⟨⟩⟩ := Option.ite_none_right_eq_some.mp hstep
      exact absurd hactive hclosing
    | dropControl | dropTelemetry =>
      obtain ⟨hother, _⟩ := Option.ite_none_right_eq_some.mp hstep
      rw [hactive] at hother
      cases hother
    | work ok =>
      exact absurd ((client_works (horderly.works hstep)).trans hactive) hclosing
  subst hshutdown
  obtain ⟨_, _, htelemetry, hsaves⟩ := closing_run ⟨orderly_step horderly hstep, hclosing⟩ hrest
  refine ⟨sent, rest, rfl, ?_, ?_⟩
  · rw [telemetryOf, filterMap_append]
    exact (congrArg _ htelemetry).trans (append_nil _)
  · rw [savesOf, filterMap_append]
    exact (congrArg _ hsaves).trans (append_nil _)

theorem acknowledged_iff (h : Orderly s) : .acknowledged ∈ s.log ↔ s.pc = .ended := by
  constructor
  · intro hmem
    by_contra hgoing
    exact h.silent hgoing hmem
  · intro hended
    obtain ⟨before, hlog, _⟩ := h.ended hended
    simp [hlog]

/-- Nothing that was sent is left when the worker has ended. -/
theorem Accounted.ended (h : Accounted events s) (horderly : Orderly s) (hended : s.pc = .ended) :
    telemetryOf events = handledOf s.log ∧ savesOf events = (savedOf s.log).map Prod.fst ∧
      savedOf s.log = answeredOf s.log := by
  have htelemetry := h.telemetry
  have hsaves := h.saves
  have hanswers := h.answers
  rw [horderly.empty (.inr (.inr hended)), hended] at htelemetry
  rw [(horderly.stopping (by rw [hended]; rfl)).2, hended] at hsaves
  rw [hended] at hanswers
  simp only [WorkerPc.command, WorkerPc.request, WorkerPc.answer, requestsOf, filterMap_nil,
    append_nil] at htelemetry hsaves hanswers
  exact ⟨htelemetry, hsaves, hanswers⟩

/-- In every interleaving the telemetry is handled once and in the order in which it was sent, and
each save is made once and answered once on its own channel. The acknowledgement is the last thing
the worker does, when all that was sent before the shutdown is done; and once the shutdown was sent
the worker goes on until it has acknowledged it. -/
theorem worker_serves_all (hrun : run initial events = some s) :
    ((savesOf events).map SaveRequest.resultTx).Nodup ∧
    handledOf s.log <+: telemetryOf events ∧
    (savedOf s.log).map Prod.fst <+: savesOf events ∧
    answeredOf s.log <+: savedOf s.log ∧
    (.acknowledged ∈ s.log → ∃ before sent rest, s.log = before ++ [.acknowledged] ∧
      .acknowledged ∉ before ∧ events = sent ++ .shutdown :: rest ∧
      handledOf before = telemetryOf sent ∧
      (savedOf before).map Prod.fst = savesOf sent ∧ answeredOf before = savedOf before) ∧
    (.shutdown ∈ events →
      (.acknowledged ∉ s.log → ∀ ok, ∃ t, step s (.work ok) = some t) ∧
      ∃ bound, ∀ later t, run s later = some t → bound ≤ later.countP StorageEvent.isWork →
        .acknowledged ∈ t.log) := by
  obtain ⟨horderly, haccounted⟩ := accounted_run hrun
  refine ⟨?_, ⟨_, haccounted.telemetry.symm⟩, ⟨_, haccounted.saves.symm⟩,
    ⟨_, haccounted.answers.symm⟩, ?_, ?_⟩
  · rw [haccounted.channels]
    exact nodup_range
  · intro hmem
    have hended := (acknowledged_iff horderly).mp hmem
    obtain ⟨before, hlog, hbefore⟩ := horderly.ended hended
    obtain ⟨htelemetry, hsaves, hanswers⟩ := haccounted.ended horderly hended
    obtain ⟨sent, rest, hevents, hsent, hasked⟩ :=
      shutdown_sent hrun (horderly.stopping (by rw [hended]; rfl)).1
    rw [hlog, handledOf_append] at htelemetry
    rw [hlog, savedOf_append] at hsaves
    rw [hlog, savedOf_append, answeredOf_append] at hanswers
    simp only [handledOf, savedOf, answeredOf, filterMap_cons, filterMap_nil,
      append_nil] at htelemetry hsaves hanswers
    exact ⟨before, sent, rest, hlog, hbefore, hevents, htelemetry.symm.trans hsent,
      hsaves.symm.trans hasked, hanswers.symm⟩
  · intro hshutdown
    obtain ⟨sent, rest, rfl⟩ := append_of_mem hshutdown
    obtain ⟨u, hu, hrest⟩ := Runs.run_append.mp hrun
    obtain ⟨v, hv, hrest⟩ := Runs.run_cons.mp hrest
    have hclosing : v.client ≠ .active := by
      obtain ⟨_, ⟨⟩⟩ := Option.ite_none_right_eq_some.mp hv
      nofun
    obtain ⟨hs, _⟩ := closing_run ⟨orderly_step (accounted_run hu).1 hv, hclosing⟩ hrest
    refine ⟨fun hsilent ok => ?_, s.budget, fun later t ht hcount => ?_⟩
    · exact work_enabled hs.1 hs.2 (fun hended => hsilent ((acknowledged_iff hs.1).mpr hended)) ok
    · obtain ⟨ht, hbudget, _⟩ := closing_run hs ht
      exact (acknowledged_iff ht.1).mpr (ended_of_budget (by omega))

/-- Two commands and a save, and the client leaves while the first command is being handled. -/
def servedRun : List (StorageEvent ℕ ℕ) :=
  [.send 1, .work true, .work true, .save ⟨7, 0⟩, .send 2, .work true, .shutdown] ++
    List.replicate 8 (.work true)

theorem worker_serves_all_sample : ∃ s, run initial servedRun = some s ∧
    .acknowledged ∈ s.log ∧ handledOf s.log <+: telemetryOf servedRun := by
  have hrun : (run initial servedRun).any (fun s => decide (.acknowledged ∈ s.log)) = true := by
    decide +kernel
  obtain ⟨s, hs, hlog⟩ := (Option.any_eq_true _ _).mp hrun
  exact ⟨s, hs, of_decide_eq_true hlog, (worker_serves_all hs).2.1⟩

end StorageWorker

end SkidMonitor.Client
