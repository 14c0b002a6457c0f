import SkidMonitor.Core.Envelope
import SkidMonitor.Lib.Run

/-! The receiver loop of the client: a control thread that binds and removes listeners, and one
thread for each listener. -/
namespace SkidMonitor.Client

open List

inductive IpAddr where
  | v4 (octets : BitVec 32)
  | v6 (segments : BitVec 128)
  deriving DecidableEq

def IpAddr.isLoopback : IpAddr → Bool
  | .v4 octets => octets.toNat / 2 ^ 24 = 127
  | .v6 segments => segments = 1

structure SocketAddr where
  ip : IpAddr
  port : UInt16
  scopeId : UInt32
  deriving DecidableEq

/-- How socket addresses are read and written, and how a text is quoted. -/
structure Net where
  parse : Str → Option SocketAddr
  print : SocketAddr → Str
  quote : Str → Str

inductive ListenerBindPolicy where
  | unrestricted
  | trustedLocal
  deriving DecidableEq

/-- A bound socket: the address that was asked for, and what `local_addr` answers, if it does. -/
structure Socket where
  address : SocketAddr
  localAddr : Option SocketAddr
  deriving DecidableEq

/-- What the system does when a socket is bound. A name is resolved to the address. -/
inductive Attempt where
  | refused (error : Str)
  | made (address : SocketAddr) (localAddr : Option SocketAddr)
  deriving DecidableEq

def trustedLocalSocketAddr (net : Net) (addr : Str) : Except Str SocketAddr :=
  match net.parse addr with
  | none => .error ("trusted-local listener requires a numeric IPv4 or IPv6 loopback ".toList ++
      "socket address; rejected ".toList ++ net.quote addr)
  | some socketAddr =>
    if !socketAddr.ip.isLoopback then
      .error ("trusted-local listener requires a loopback address; rejected ".toList ++
        net.print socketAddr)
    else .ok socketAddr

def bindTrustedLocal (net : Net) (addr : Str) (attempt : Attempt) :
    Except Str Socket := do
  let address ← trustedLocalSocketAddr net addr
  match attempt with
  | .refused error => .error error
  | .made _ localAddr => .ok ⟨address, localAddr⟩

def ListenerBindPolicy.bind (policy : ListenerBindPolicy) (net : Net) (addr : Str)
    (attempt : Attempt) : Except Str Socket :=
  match policy with
  | .unrestricted =>
    match attempt with
    | .refused error => .error error
    | .made address localAddr => .ok ⟨address, localAddr⟩
  | .trustedLocal => bindTrustedLocal net addr attempt

inductive ReceiverMessage where
  | listening (addrs : List Str)
  | signal (listener : Str) (signal : Signal)
  | error (listener : Option Str) (error : Str)
  | extensionError (error : Str)
  deriving DecidableEq

inductive ReceiverControl where
  | addListener (addr : Str)
  | removeListener (addr : Str)
  deriving DecidableEq

/-- Where the thread of a listener is. A thread that was not spawned yet is `idle`; one that is
`publishing` or `sending` has found the stop flag down after it received its signal. -/
inductive ListenerPc where
  | idle
  | checking
  | receiving
  | received (signal : Signal)
  | failed (error : Str)
  | publishing (signal : Signal)
  | sending (signal : Signal)
  | reporting (error : Str)
  | ended
  deriving DecidableEq

structure Listener where
  addr : Str
  socket : Socket
  stop : Bool
  pc : ListenerPc
  deriving DecidableEq

/-- What the snapshot of the listeners is sent for. -/
inductive SnapshotCause where
  | startup
  | added (i : ℕ)
  | removed (addr : Str)
  deriving DecidableEq

/-- Where the control thread is. The receivers are bound and have no thread yet. -/
inductive ControlPc where
  | binding (addrs : List Str) (receivers : List ℕ)
  | starting (receivers : List ℕ)
  | spawning (receivers : List ℕ)
  | waiting
  | adding (i : ℕ)
  | stopping (i : ℕ) (addr : Str)
  | snapshot (cause : SnapshotCause)
  | ended
  deriving DecidableEq

def ControlPc.receivers : ControlPc → List ℕ
  | .binding _ receivers | .starting receivers | .spawning receivers => receivers
  | .adding i => [i]
  | _ => []

/-- The startup is over. -/
def ControlPc.started : ControlPc → Bool
  | .binding _ _ | .starting _ | .spawning _ => false
  | _ => true

/-- A socket was bound, or a listener was asked to be removed. -/
inductive ListenerEvent where
  | bound (socket : Socket)
  | removed (addr : Str)
  deriving DecidableEq

structure ReceiverLoop where
  control : ControlPc
  listeners : List Listener
  registry : AList fun _ : Str => ℕ
  extension : Bool
  /-- The application still holds the receiving end. -/
  rx : Bool
  messages : List ReceiverMessage
  /-- What was bound and removed, in order; the loop does not read it. -/
  history : List ListenerEvent

structure ReceiverConfig where
  net : Net
  bindPolicy : ListenerBindPolicy
  startExtension : Bool

/-- What a step of a listener's thread meets outside. -/
inductive ThreadInput where
  | none
  | received (result : Except Str Signal)
  | published (error : Option Str)

inductive ReceiverLabel where
  | bind (attempt : Attempt)
  | host (outcome : Except Str Bool)
  | request (control : ReceiverControl) (attempt : Attempt)
  | control
  | hangUp
  | dropReceiver
  | thread (i : ℕ) (input : ThreadInput)

namespace ReceiverLoop

variable (cfg : ReceiverConfig) (s : ReceiverLoop)

def initial (addrs : List Str) : ReceiverLoop where
  control := .binding addrs []
  listeners := []
  registry := ∅
  extension := false
  rx := true
  messages := []
  history := []

/-- A message is sent unless the receiving end is gone. -/
def sendMessage (message : ReceiverMessage) : ReceiverLoop :=
  if s.rx then { s with messages := s.messages ++ [message] } else s

def activeListeners : List Str := s.registry.keys.insertionSort (· ≤ ·)

def bindError (addr error : Str) : ReceiverMessage :=
  .error (some addr) ("failed to bind ".toList ++ addr ++ ": ".toList ++ error)

/-- What the system grants: the local address has the IP address asked for, and no live listener
has it. -/
def Vacant (net : Net) (socket : Socket) : Prop :=
  ∀ local' ∈ socket.localAddr, local'.ip = socket.address.ip ∧
    ∀ l ∈ s.listeners, l.pc ≠ .ended →
      l.socket.localAddr.map net.print ≠ some (net.print local')

instance (net : Net) (socket : Socket) : Decidable (s.Vacant net socket) :=
  inferInstanceAs (Decidable (∀ local' ∈ socket.localAddr, _))

def listenAddr (net : Net) (socket : Socket) (configured : Str) : Str :=
  (socket.localAddr.map net.print).getD configured

/-- A new listener, with no thread yet. -/
def push (net : Net) (configured : Str) (socket : Socket) : ReceiverLoop :=
  { s with
    listeners := s.listeners ++ [⟨listenAddr net socket configured, socket, false, .idle⟩]
    history := s.history ++ [.bound socket] }

def setPc (i : ℕ) (pc : ListenerPc) : ReceiverLoop :=
  { s with listeners := s.listeners.modify i fun l => { l with pc } }

def spawnListener (i : ℕ) : Option ReceiverLoop :=
  s.listeners[i]?.map fun l => { s.setPc i .checking with registry := s.registry.insert l.addr i }

def handle (control : ReceiverControl) (attempt : Attempt) : Option ReceiverLoop :=
  match control with
  | .addListener addr =>
    match cfg.bindPolicy.bind cfg.net addr attempt with
    | .ok socket =>
      if s.Vacant cfg.net socket then
        some { s.push cfg.net addr socket with control := .adding s.listeners.length }
      else none
    | .error error => some (s.sendMessage (bindError addr error))
  | .removeListener addr =>
    match s.registry.lookup addr with
    | some i =>
      some { s with
        control := .stopping i addr
        registry := s.registry.erase addr
        history := s.history ++ [.removed addr] }
    | none =>
      some { s.sendMessage (.error (some addr)
          ("listener ".toList ++ addr ++ " is not active".toList)) with
        history := s.history ++ [.removed addr] }

def publishToExtension (error : Option Str) : ReceiverLoop :=
  match s.extension, error with
  | true, some error =>
    s.sendMessage (.extensionError ("failed to publish to extension host: ".toList ++ error))
  | _, _ => s

/-- A thread that cannot send its message ends. -/
def sendOrEnd (i : ℕ) (message : ReceiverMessage) : ReceiverLoop :=
  if s.rx then (s.sendMessage message).setPc i .checking else s.setPc i .ended

def receiveForever (i : ℕ) (l : Listener) (input : ThreadInput) : Option ReceiverLoop :=
  match l.pc, input with
  | .checking, .none => some (s.setPc i (if l.stop then .ended else .receiving))
  | .receiving, .received (.ok signal) => some (s.setPc i (.received signal))
  | .receiving, .received (.error error) => some (s.setPc i (.failed error))
  | .received signal, .none => some (s.setPc i (if l.stop then .ended else .publishing signal))
  | .failed error, .none => some (s.setPc i (if l.stop then .ended else .reporting error))
  | .publishing signal, .published error =>
    some ((s.publishToExtension error).setPc i (.sending signal))
  | .sending signal, .none => some (s.sendOrEnd i (.signal l.addr signal))
  | .reporting error, .none => some (s.sendOrEnd i (.error (some l.addr)
      ("receive error on ".toList ++ l.addr ++ ": ".toList ++ error)))
  | _, _ => none

/-- The host that the environment asks for, if the loop is to start one. -/
def startHost (outcome : Except Str Bool) : ReceiverLoop :=
  if cfg.startExtension then
    match outcome with
    | .ok host => { s with extension := host }
    | .error error =>
      s.sendMessage (.extensionError ("failed to start extension host: ".toList ++ error))
  else s

def step (s : ReceiverLoop) (label : ReceiverLabel) : Option ReceiverLoop :=
  match label, s.control with
  | .bind attempt, .binding (addr :: addrs) receivers =>
    match cfg.bindPolicy.bind cfg.net addr attempt with
    | .ok socket =>
      if s.Vacant cfg.net socket then
        some { s.push cfg.net addr socket with
          control := .binding addrs (receivers ++ [s.listeners.length]) }
      else none
    | .error error =>
      some { s.sendMessage (bindError addr error) with control := .binding addrs receivers }
  | .control, .binding [] receivers =>
    let s' := if receivers.isEmpty then
      s.sendMessage (.error none "failed to bind any configured client listener".toList) else s
    some { s' with control := .starting receivers }
  | .host outcome, .starting receivers =>
    some { s.startHost cfg outcome with
      control := if receivers.isEmpty then .waiting else .spawning receivers }
  | .control, .spawning (i :: receivers) =>
    (s.spawnListener i).map fun s' => { s' with control := .spawning receivers }
  | .control, .spawning [] => some { s with control := .snapshot .startup }
  | .request control attempt, .waiting => s.handle cfg control attempt
  | .control, .adding i =>
    (s.spawnListener i).map fun s' => { s' with control := .snapshot (.added i) }
  | .control, .stopping i addr =>
    some { s with
      listeners := s.listeners.modify i fun l => { l with stop := true }
      control := .snapshot (.removed addr) }
  | .control, .snapshot _ =>
    some { s.sendMessage (.listening s.activeListeners) with
      control := if s.rx then .waiting else .ended }
  | .hangUp, .waiting => some { s with control := .ended }
  | .dropReceiver, _ => some { s with rx := false }
  | .thread i input, _ => s.listeners[i]?.bind fun l => s.receiveForever i l input
  | _, _ => none

end ReceiverLoop

/-- The thread has a signal that it is going to send. -/
def ListenerPc.holds : ListenerPc → Bool
  | .publishing _ | .sending _ => true
  | _ => false

def ReceiverMessage.isError : ReceiverMessage → Bool
  | .error _ _ | .extensionError _ => true
  | _ => false

/-- The attempt to bind that a step makes. -/
def ReceiverLabel.attempt? : ReceiverLabel → Option Attempt
  | .bind attempt | .request _ attempt => some attempt
  | _ => none

namespace ReceiverLoop

variable {cfg : ReceiverConfig} {s t : ReceiverLoop} {label : ReceiverLabel}

/-- What the thread of a listener can do. -/
structure Advances (rx : Bool) (l : Listener) (pc : ListenerPc) (sent : List ReceiverMessage) :
    Prop where
  spawned : l.pc ≠ .idle ∧ pc ≠ .idle
  ends : pc = .ended → l.stop = true ∨ rx = false
  takes : pc.holds = true → l.pc.holds = true ∨ l.stop = false ∧ ∃ signal, l.pc = .received signal
  sends : ∀ message ∈ sent, rx = true ∧ (message.isError = true ∨
    ∃ signal, l.pc = .sending signal ∧ message = .signal l.addr signal)

/-- What a step can do. -/
inductive Step (cfg : ReceiverConfig) (s : ReceiverLoop) : ReceiverLabel → ReceiverLoop → Prop where
  | bound {label : ReceiverLabel} {attempt : Attempt} {configured : Str} {socket : Socket}
      {control : ControlPc} (hattempt : label.attempt? = some attempt)
      (hbind : cfg.bindPolicy.bind cfg.net configured attempt = .ok socket)
      (hvacant : s.Vacant cfg.net socket)
      (hcontrol : (∃ addrs receivers, s.control = .binding (configured :: addrs) receivers ∧
          control = .binding addrs (receivers ++ [s.listeners.length])) ∨
        s.control = .waiting ∧ control = .adding s.listeners.length) :
      Step cfg s label { s.push cfg.net configured socket with control }
  | spawned {i : ℕ} {l : Listener} {control : ControlPc} (hl : s.listeners[i]? = some l)
      (hcontrol : (∃ receivers, s.control = .spawning (i :: receivers) ∧
          control = .spawning receivers) ∨
        s.control = .adding i ∧ control = .snapshot (.added i)) :
      Step cfg s .control
        { s.setPc i .checking with registry := s.registry.insert l.addr i, control }
  | reported {label : ReceiverLabel} {control : ControlPc} {extension : Bool}
      {sent : List ReceiverMessage} (hsent : ∀ message ∈ sent, s.rx = true ∧ message.isError = true)
      (hreceivers : control.receivers = s.control.receivers)
      (hfrom : ∀ cause i addr, s.control ≠ .snapshot cause ∧ s.control ≠ .stopping i addr)
      (hto : ∀ i addr, control ≠ .stopping i addr ∧ control ≠ .snapshot (.added i) ∧
        control ≠ .snapshot (.removed addr))
      (hstarted : s.control.started = true → control.started = true) :
      Step cfg s label { s with control, extension, messages := s.messages ++ sent }
  | removed {i : ℕ} {addr : Str} {attempt : Attempt} (hcontrol : s.control = .waiting)
      (hi : s.registry.lookup addr = some i) :
      Step cfg s (.request (.removeListener addr) attempt)
        { s with
          control := .stopping i addr
          registry := s.registry.erase addr
          history := s.history ++ [.removed addr] }
  | inactive {addr : Str} {attempt : Attempt} {sent : List ReceiverMessage}
      (hcontrol : s.control = .waiting) (hi : s.registry.lookup addr = none)
      (hsent : ∀ message ∈ sent, s.rx = true ∧ message.isError = true) :
      Step cfg s (.request (.removeListener addr) attempt)
        { s with messages := s.messages ++ sent, history := s.history ++ [.removed addr] }
  | stopped {i : ℕ} {addr : Str} (hcontrol : s.control = .stopping i addr) :
      Step cfg s .control
        { s with
          listeners := s.listeners.modify i fun l => { l with stop := true }
          control := .snapshot (.removed addr) }
  | listed {cause : SnapshotCause} (hcontrol : s.control = .snapshot cause) (hrx : s.rx = true) :
      Step cfg s .control
        { s with messages := s.messages ++ [.listening s.activeListeners], control := .waiting }
  | unlisted {cause : SnapshotCause} (hcontrol : s.control = .snapshot cause)
      (hrx : s.rx = false) : Step cfg s .control { s with control := .ended }
  | dropped : Step cfg s .dropReceiver { s with rx := false }
  | thread {i : ℕ} {l : Listener} {input : ThreadInput} {pc : ListenerPc}
      {sent : List ReceiverMessage} (hl : s.listeners[i]? = some l)
      (hadvances : Advances s.rx l pc sent) :
      Step cfg s (.thread i input) { s.setPc i pc with messages := s.messages ++ sent }

theorem sendMessage_eq {m : ReceiverMessage} (herror : m.isError = true) : ∃ sent,
    (∀ m' ∈ sent, s.rx = true ∧ m'.isError = true) ∧
      s.sendMessage m = { s with messages := s.messages ++ sent } := by
  by_cases hrx : s.rx = true
  · refine ⟨[m], by simp [hrx, herror], ?_⟩
    rw [sendMessage, if_pos hrx]
  · refine ⟨[], by simp, ?_⟩
    rw [sendMessage, if_neg hrx, append_nil]

section Threads

variable {rx : Bool} {l : Listener} {pc : ListenerPc} {i : ℕ} {message : ReceiverMessage}

theorem advances_moved (hl : l.pc ≠ .idle) (hidle : pc ≠ .idle) (hended : pc ≠ .ended)
    (hholds : pc.holds = true → l.stop = false ∧ ∃ signal, l.pc = .received signal) :
    Advances rx l pc [] :=
  ⟨⟨hl, hidle⟩, fun h => absurd h hended, fun h => .inr (hholds h), by simp⟩

theorem advances_stopped (hl : l.pc ≠ .idle) (hstop : l.stop = true) : Advances rx l .ended [] :=
  ⟨⟨hl, by simp⟩, fun _ => .inl hstop, by simp [ListenerPc.holds], by simp⟩

theorem advances_sendOrEnd (hl : l.pc ≠ .idle)
    (hmessage : message.isError = true ∨
      ∃ signal, l.pc = .sending signal ∧ message = .signal l.addr signal) :
    ∃ pc sent, Advances s.rx l pc sent ∧
      s.sendOrEnd i message = { s.setPc i pc with messages := s.messages ++ sent } := by
  by_cases hrx : s.rx = true
  · refine ⟨.checking, [message], ⟨⟨hl, by simp⟩, by simp, by simp [ListenerPc.holds], ?_⟩, ?_⟩
    · intro m hm
      rw [mem_singleton.mp hm]
      exact ⟨hrx, hmessage⟩
    · rw [sendOrEnd, if_pos hrx, sendMessage, if_pos hrx]
      rfl
  · refine ⟨.ended, [], ⟨⟨hl, by simp⟩, fun _ => .inr (by simpa using hrx), ?_, by simp⟩, ?_⟩
    · simp [ListenerPc.holds]
    · rw [sendOrEnd, if_neg hrx, append_nil]
      rfl

theorem publishToExtension_eq (error : Option Str) : ∃ sent,
    (∀ m ∈ sent, s.rx = true ∧ m.isError = true) ∧
      s.publishToExtension error = { s with messages := s.messages ++ sent } := by
  unfold publishToExtension
  split
  · exact sendMessage_eq rfl
  · exact ⟨[], by simp, by simp⟩

theorem advances_receiveForever {input : ThreadInput}
    (h : s.receiveForever i l input = some t) : ∃ pc sent, Advances s.rx l pc sent ∧
      t = { s.setPc i pc with messages := s.messages ++ sent } := by
  have hplain : ∀ {pc : ListenerPc}, Advances s.rx l pc [] → some (s.setPc i pc) = some t →
      ∃ pc sent, Advances s.rx l pc sent ∧
        t = { s.setPc i pc with messages := s.messages ++ sent } := by
    intro pc hadvances h
    cases h
    exact ⟨pc, [], hadvances, by simp [setPc]⟩
  unfold receiveForever at h
  split at h
  · rename_i hpc
    split_ifs at h with hstop
    · exact hplain (advances_stopped (by simp [hpc]) hstop) h
    · exact hplain (advances_moved (by simp [hpc]) (by simp) (by simp) (by simp [ListenerPc.holds])) h
  · rename_i hpc
    exact hplain (advances_moved (by simp [hpc]) (by simp) (by simp) (by simp [ListenerPc.holds])) h
  · rename_i hpc
    exact hplain (advances_moved (by simp [hpc]) (by simp) (by simp) (by simp [ListenerPc.holds])) h
  · rename_i signal hpc
    split_ifs at h with hstop
    · exact hplain (advances_stopped (by simp [hpc]) hstop) h
    · refine hplain (advances_moved (by simp [hpc]) (by simp) (by simp) fun _ => ?_) h
      exact ⟨by simpa using hstop, signal, hpc⟩
  · rename_i hpc
    split_ifs at h with hstop
    · exact hplain (advances_stopped (by simp [hpc]) hstop) h
    · exact hplain (advances_moved (by simp [hpc]) (by simp) (by simp) (by simp [ListenerPc.holds])) h
  · rename_i signal error hpc
    cases h
    obtain ⟨sent, hsent, hpublish⟩ := publishToExtension_eq (s := s) error
    refine ⟨.sending signal, sent, ⟨⟨by simp [hpc], by simp⟩, by simp, fun _ => .inl ?_, ?_⟩, ?_⟩
    · simp [hpc, ListenerPc.holds]
    · exact fun m hm => ⟨(hsent m hm).1, .inl (hsent m hm).2⟩
    · rw [hpublish]
      rfl
  · rename_i signal hpc
    obtain ⟨pc, sent, hadvances, heq⟩ := advances_sendOrEnd (s := s) (i := i)
      (show l.pc ≠ .idle by simp [hpc]) (.inr ⟨signal, hpc, rfl⟩)
    exact ⟨pc, sent, hadvances, (Option.some.inj h).symm.trans heq⟩
  · rename_i error hpc
    obtain ⟨pc, sent, hadvances, heq⟩ := advances_sendOrEnd (s := s) (i := i)
      (show l.pc ≠ .idle by simp [hpc])
      (.inl (show (ReceiverMessage.error (some l.addr) _).isError = true from rfl))
    exact ⟨pc, sent, hadvances, (Option.some.inj h).symm.trans heq⟩
  · cases h

end Threads

theorem startHost_eq (cfg : ReceiverConfig) (outcome : Except Str Bool) : ∃ extension sent,
    (∀ m ∈ sent, s.rx = true ∧ m.isError = true) ∧
      s.startHost cfg outcome = { s with extension, messages := s.messages ++ sent } := by
  unfold startHost
  split_ifs
  · split
    · rename_i host
      exact ⟨host, [], by simp, by rw [append_nil]⟩
    · exact ⟨s.extension, sendMessage_eq rfl⟩
  · exact ⟨s.extension, [], by simp, by rw [append_nil]⟩

/-- A step of the control thread that sends nothing. -/
theorem step_moved {control : ControlPc} (hreceivers : control.receivers = s.control.receivers)
    (hfrom : ∀ cause i addr, s.control ≠ .snapshot cause ∧ s.control ≠ .stopping i addr)
    (hto : ∀ i addr, control ≠ .stopping i addr ∧ control ≠ .snapshot (.added i) ∧
      control ≠ .snapshot (.removed addr))
    (hstarted : s.control.started = true → control.started = true) :
    Step cfg s label { s with control } := by
  have hstep : Step cfg s label { s with control, messages := s.messages ++ [] } :=
    .reported (by simp) hreceivers hfrom hto hstarted
  rwa [append_nil] at hstep

theorem step_handle {control : ReceiverControl} {attempt : Attempt} (hcontrol : s.control = .waiting)
    (h : s.handle cfg control attempt = some t) : Step cfg s (.request control attempt) t := by
  unfold handle at h
  split at h
  · split at h
    · split_ifs at h with hvacant
      cases h
      exact .bound rfl ‹_› hvacant (.inr ⟨hcontrol, rfl⟩)
    · cases h
      obtain ⟨sent, hsent, heq⟩ := sendMessage_eq (s := s) (m := bindError _ _) rfl
      rw [heq]
      exact .reported hsent rfl (by simp [hcontrol]) (by simp [hcontrol]) id
  · split at h
    · cases h
      exact .removed hcontrol ‹_›
    · cases h
      obtain ⟨sent, hsent, heq⟩ := sendMessage_eq (s := s) (m := .error _ _) rfl
      rw [heq]
      exact .inactive hcontrol ‹_› hsent

theorem step_spawnListener {i : ℕ} {control : ControlPc}
    (hcontrol : (∃ receivers, s.control = .spawning (i :: receivers) ∧
        control = .spawning receivers) ∨
      s.control = .adding i ∧ control = .snapshot (.added i))
    (h : ((s.spawnListener i).map fun s' => { s' with control }) = some t) :
    Step cfg s .control t := by
  obtain ⟨s', hspawn, rfl⟩ := Option.map_eq_some_iff.mp h
  obtain ⟨l, hl, rfl⟩ := Option.map_eq_some_iff.mp hspawn
  exact .spawned hl hcontrol

theorem step_cases (h : step cfg s label = some t) : Step cfg s label t := by
  unfold step at h
  split at h
  · rename_i attempt addr addrs receivers hcontrol
    split at h
    · split_ifs at h with hvacant
      cases h
      exact .bound rfl ‹_› hvacant (.inl ⟨addrs, receivers, hcontrol, rfl⟩)
    · cases h
      obtain ⟨sent, hsent, heq⟩ := sendMessage_eq (s := s) (m := bindError addr _) rfl
      rw [heq]
      exact .reported hsent (by rw [hcontrol]; rfl) (by simp [hcontrol]) (by simp)
        (by simp [hcontrol, ControlPc.started])
  · rename_i receivers hcontrol
    cases h
    split
    · obtain ⟨sent, hsent, heq⟩ := sendMessage_eq (s := s) (m := .error none _) rfl
      rw [heq]
      exact .reported hsent (by rw [hcontrol]; rfl) (by simp [hcontrol]) (by simp)
        (by simp [hcontrol, ControlPc.started])
    · exact step_moved (by rw [hcontrol]; rfl) (by simp [hcontrol]) (by simp)
        (by simp [hcontrol, ControlPc.started])
  · rename_i outcome receivers hcontrol
    cases h
    obtain ⟨extension, sent, hsent, heq⟩ := startHost_eq cfg (s := s) outcome
    rw [heq]
    refine .reported hsent ?_ (by simp [hcontrol]) ?_ (by simp [hcontrol, ControlPc.started])
    · rw [hcontrol]
      cases receivers <;> rfl
    · cases receivers <;> simp
  · exact step_spawnListener (.inl ⟨_, ‹_›, rfl⟩) h
  · rename_i hcontrol
    cases h
    exact step_moved (by rw [hcontrol]; rfl) (by simp [hcontrol]) (by simp)
        (by simp [hcontrol, ControlPc.started])
  · exact step_handle ‹_› h
  · exact step_spawnListener (.inr ⟨‹_›, rfl⟩) h
  · cases h
    exact .stopped ‹_›
  · rename_i hcontrol
    cases h
    by_cases hrx : s.rx = true
    · rw [if_pos hrx, sendMessage, if_pos hrx]
      exact .listed hcontrol hrx
    · rw [if_neg hrx, sendMessage, if_neg hrx]
      exact .unlisted hcontrol (by simpa using hrx)
  · rename_i hcontrol
    cases h
    exact step_moved (by rw [hcontrol]; rfl) (by simp [hcontrol]) (by simp)
        (by simp [hcontrol, ControlPc.started])
  · cases h
    exact .dropped
  · obtain ⟨l, hl, h⟩ := Option.bind_eq_some_iff.mp h
    obtain ⟨pc, sent, hadvances, rfl⟩ := advances_receiveForever h
    exact .thread hl hadvances
  · cases h

end ReceiverLoop

end SkidMonitor.Client
