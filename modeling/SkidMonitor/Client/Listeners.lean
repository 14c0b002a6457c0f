import SkidMonitor.Client.ReceiverLoop
import SkidMonitor.Lib.Table

/-! The listeners of a receiver loop, and which of them its snapshots list. -/
namespace SkidMonitor.Client

open List

/-- A socket that is bound reports its local address. -/
def Attempt.Reports : Attempt → Prop
  | .refused _ => True
  | .made _ localAddr => localAddr.isSome = true

def ReceiverLabel.Reports (label : ReceiverLabel) : Prop :=
  ∀ attempt ∈ label.attempt?, attempt.Reports

namespace ReceiverLoop

variable {cfg : ReceiverConfig} {net : Net} {s t : ReceiverLoop} {label : ReceiverLabel}
  {labels : List ReceiverLabel} {addr configured : Str} {socket : Socket} {attempt : Attempt}

/-- The local addresses of the listeners that were bound and not removed. -/
def remaining (net : Net) (history : List ListenerEvent) : List Str :=
  history.foldl (fun addrs event => match event with
    | .bound socket => addrs ++ (socket.localAddr.map net.print).toList
    | .removed addr => addrs.filter (· ≠ addr)) []

theorem remaining_bound (history : List ListenerEvent) :
    remaining net (history ++ [.bound socket]) =
      remaining net history ++ (socket.localAddr.map net.print).toList := by
  rw [remaining, foldl_append]
  rfl

theorem remaining_removed (history : List ListenerEvent) :
    remaining net (history ++ [.removed addr]) = (remaining net history).filter (· ≠ addr) := by
  rw [remaining, foldl_append]
  rfl

theorem bind_reports {policy : ListenerBindPolicy} (hreports : attempt.Reports)
    (h : policy.bind net configured attempt = .ok socket) : ∃ a, socket.localAddr = some a := by
  cases policy with
  | unrestricted =>
    cases attempt with
    | refused error => cases h
    | made address localAddr =>
      cases h
      exact Option.isSome_iff_exists.mp hreports
  | trustedLocal =>
    change bindTrustedLocal net configured attempt = .ok socket at h
    unfold bindTrustedLocal at h
    cases haddress : trustedLocalSocketAddr net configured with
    | error error =>
      rw [haddress] at h
      cases h
    | ok address =>
      rw [haddress] at h
      cases attempt with
      | refused error => cases h
      | made _ localAddr =>
        cases h
        exact Option.isSome_iff_exists.mp hreports

/-- Under the trusted-local policy only loopback addresses are bound. -/
theorem bind_loopback (h : ListenerBindPolicy.trustedLocal.bind net configured attempt = .ok socket) :
    socket.address.ip.isLoopback = true := by
  change bindTrustedLocal net configured attempt = .ok socket at h
  unfold bindTrustedLocal trustedLocalSocketAddr at h
  split at h
  · cases h
  · rename_i address _
    by_cases hloop : address.ip.isLoopback = true
    · rw [hloop] at h
      cases attempt with
      | refused error => cases h
      | made _ localAddr =>
        cases h
        exact hloop
    · rw [if_pos (by simpa using hloop)] at h
      cases h

/-- Every listener has the name of its local address; one that is not stopped is live and shares
its name with no other such listener. -/
structure Roster (net : Net) (listeners : List Listener) : Prop where
  named : ∀ (i : ℕ) (l : Listener), listeners[i]? = some l →
    l.socket.localAddr.map net.print = some l.addr
  live : ∀ (i : ℕ) (l : Listener), listeners[i]? = some l → l.stop = false → l.pc ≠ .ended
  distinct : ∀ (i j : ℕ) (l l' : Listener), listeners[i]? = some l → listeners[j]? = some l' →
    l.stop = false → l'.stop = false → l.addr = l'.addr → i = j

/-- The flag or the thread of one listener changes. -/
theorem Roster.modify {listeners : List Listener} (h : Roster net listeners) {i : ℕ}
    {f : Listener → Listener} (haddr : ∀ l, (f l).addr = l.addr)
    (hsocket : ∀ l, (f l).socket = l.socket) (hstop : ∀ l, (f l).stop = false → l.stop = false)
    (hlive : ∀ l, listeners[i]? = some l → (f l).stop = false → (f l).pc ≠ .ended) :
    Roster net (listeners.modify i f) := by
  have hold : ∀ {j : ℕ} {l' : Listener}, (listeners.modify i f)[j]? = some l' →
      ∃ l : Listener, listeners[j]? = some l ∧ l'.addr = l.addr ∧ l'.socket = l.socket ∧
        (l'.stop = false → l.stop = false ∧ l'.pc ≠ .ended) := by
    intro j l' hl'
    obtain ⟨l, hl, rfl⟩ := Table.of_getElem?_modify hl'
    refine ⟨l, hl, ?_⟩
    split_ifs with hij
    · exact ⟨haddr l, hsocket l, fun hf => ⟨hstop l hf, hlive l (hij ▸ hl) hf⟩⟩
    · exact ⟨rfl, rfl, fun hf => ⟨hf, h.live j l hl hf⟩⟩
  refine ⟨fun j l' hl' => ?_, fun j l' hl' hstop' => ?_, ?_⟩
  · obtain ⟨l, hl, haddr', hsocket', _⟩ := hold hl'
    rw [haddr', hsocket']
    exact h.named j l hl
  · obtain ⟨_, _, _, _, hkept⟩ := hold hl'
    exact (hkept hstop').2
  · intro j k l' l'' hl' hl'' hstop' hstop'' heq
    obtain ⟨l₁, hl₁, haddr₁, _, hkept₁⟩ := hold hl'
    obtain ⟨l₂, hl₂, haddr₂, _, hkept₂⟩ := hold hl''
    exact h.distinct j k l₁ l₂ hl₁ hl₂ (hkept₁ hstop').1 (hkept₂ hstop'').1
      (haddr₁.symm.trans (heq.trans haddr₂))

/-- How the listeners, the registry and the history stand to each other while the messages are
received. -/
structure Tidy (net : Net) (s : ReceiverLoop) : Prop extends Roster net s.listeners where
  pending : ∀ i ∈ s.control.receivers, ∃ l : Listener,
    s.listeners[i]? = some l ∧ l.pc = .idle ∧ l.stop = false
  nodup : s.control.receivers.Nodup
  covered : ∀ (i : ℕ) (l : Listener), s.listeners[i]? = some l → l.stop = false →
    i ∈ s.control.receivers ∨ s.registry.lookup l.addr = some i ∨
      ∃ addr, s.control = .stopping i addr
  gone : ∀ addr, (∃ i, s.control = .stopping i addr) ∨ s.control = .snapshot (.removed addr) →
    s.registry.lookup addr = none
  listed : ∀ addr, addr ∈ remaining net s.history ↔ addr ∈ s.registry ∨
    ∃ i ∈ s.control.receivers, ∃ l : Listener, s.listeners[i]? = some l ∧ l.addr = addr

theorem tidy_initial (addrs : List Str) : Tidy net (initial addrs) where
  toRoster := ⟨fun i l hl => by simp [initial] at hl, fun i l hl => by simp [initial] at hl,
    fun i j l l' hl => by simp [initial] at hl⟩
  pending i hi := by simp [initial, ControlPc.receivers] at hi
  nodup := nodup_nil
  covered i l hl := by simp [initial] at hl
  gone addr h := by simp [initial] at h
  listed addr := by simp [initial, remaining, ControlPc.receivers]

/-- A thread moves on: its listener is as before but for that. -/
theorem of_getElem?_setPc {i j : ℕ} {l' : Listener} {pc : ListenerPc}
    (h : (s.setPc i pc).listeners[j]? = some l') : ∃ l : Listener, s.listeners[j]? = some l ∧
      l'.addr = l.addr ∧ l'.socket = l.socket ∧ l'.stop = l.stop ∧
        l'.pc = if i = j then pc else l.pc := by
  obtain ⟨l, hl, rfl⟩ := Table.of_getElem?_modify h
  refine ⟨l, hl, ?_⟩
  split_ifs <;> exact ⟨rfl, rfl, rfl, rfl⟩

theorem getElem?_setPc (i : ℕ) (pc : ListenerPc) {j : ℕ} {l : Listener}
    (h : s.listeners[j]? = some l) :
    ∃ l' : Listener, (s.setPc i pc).listeners[j]? = some l' ∧ l'.addr = l.addr ∧
      l'.stop = l.stop ∧ l'.pc = if i = j then pc else l.pc := by
  refine ⟨if i = j then { l with pc } else l, ?_, ?_⟩
  · change (s.listeners.modify i _)[j]? = _
    rw [getElem?_modify, h]
    rfl
  · split_ifs <;> exact ⟨rfl, rfl, rfl⟩

/-- A thread that moves on keeps the address of its listener. -/
theorem exists_setPc {i j : ℕ} {pc : ListenerPc} {addr : Str} :
    (∃ l : Listener, (s.setPc i pc).listeners[j]? = some l ∧ l.addr = addr) ↔
      ∃ l : Listener, s.listeners[j]? = some l ∧ l.addr = addr := by
  constructor
  · rintro ⟨l', hl', rfl⟩
    obtain ⟨l, hl, haddr, _⟩ := of_getElem?_setPc hl'
    exact ⟨l, hl, haddr.symm⟩
  · rintro ⟨l, hl, rfl⟩
    obtain ⟨l', hl', haddr, _⟩ := getElem?_setPc i pc hl
    exact ⟨l', hl', haddr⟩

section Steps

variable {control : ControlPc} {extension : Bool} {messages : List ReceiverMessage} {i : ℕ}
  {l : Listener} {pc : ListenerPc}

/-- The listeners that are waiting for their threads are the same, and none is being removed. -/
theorem Tidy.moved (h : Tidy net s) (hreceivers : control.receivers = s.control.receivers)
    (hfrom : ∀ i addr, s.control ≠ .stopping i addr)
    (hto : ∀ i addr, control ≠ .stopping i addr ∧ control ≠ .snapshot (.removed addr)) :
    Tidy net { s with control, extension, messages } where
  toRoster := h.toRoster
  pending := hreceivers.symm ▸ h.pending
  nodup := hreceivers.symm ▸ h.nodup
  covered j l' hl' hstop := by
    rw [hreceivers]
    exact (h.covered j l' hl' hstop).imp id
      (Or.imp id fun ⟨addr, hcontrol⟩ => absurd hcontrol (hfrom j addr))
  gone addr := by
    rintro (⟨j, hcontrol⟩ | hcontrol)
    · exact absurd hcontrol (hto j addr).1
    · exact absurd hcontrol (hto 0 addr).2
  listed addr := by
    rw [hreceivers]
    exact h.listed addr

theorem Tidy.inactive (h : Tidy net s) (hcontrol : s.control = .waiting)
    (haddr : s.registry.lookup addr = none) :
    Tidy net { s with messages, history := s.history ++ [.removed addr] } where
  toRoster := h.toRoster
  pending := h.pending
  nodup := h.nodup
  covered := h.covered
  gone := h.gone
  listed addr' := by
    have hgone : addr ∉ s.registry := AList.lookup_eq_none.mp haddr
    have hlisted := h.listed addr'
    simp only [hcontrol, ControlPc.receivers] at hlisted ⊢
    simp only [remaining_removed, mem_filter, hlisted]
    constructor
    · exact fun ⟨hmem, _⟩ => hmem
    · intro hmem
      refine ⟨hmem, ?_⟩
      rcases hmem with hmem | ⟨_, hnil, _⟩
      · exact decide_eq_true fun heq => hgone (heq ▸ hmem)
      · cases hnil

theorem Tidy.removed (h : Tidy net s) (hcontrol : s.control = .waiting)
    (hi : s.registry.lookup addr = some i) :
    Tidy net { s with
      control := .stopping i addr
      registry := s.registry.erase addr
      history := s.history ++ [.removed addr] } where
  toRoster := h.toRoster
  pending j hj := by cases hj
  nodup := nodup_nil
  covered j l' hl' hstop := by
    have hcovered := h.covered j l' hl' hstop
    simp only [hcontrol, ControlPc.receivers, not_mem_nil, false_or, reduceCtorEq,
      exists_false, or_false] at hcovered
    by_cases haddr : l'.addr = addr
    · rw [haddr, hi] at hcovered
      cases hcovered
      exact .inr (.inr ⟨addr, rfl⟩)
    · refine .inr (.inl ?_)
      rw [AList.lookup_erase_ne haddr]
      exact hcovered
  gone addr' := by
    rintro (⟨j, hstopping⟩ | hsnapshot)
    · cases hstopping
      exact AList.lookup_erase _ _
    · cases hsnapshot
  listed addr' := by
    have hlisted := h.listed addr'
    simp only [hcontrol, ControlPc.receivers, not_mem_nil, false_and, exists_false,
      or_false] at hlisted ⊢
    simp only [remaining_removed, mem_filter, hlisted, AList.mem_erase, decide_eq_true_eq]
    exact and_comm

theorem Tidy.stopped (h : Tidy net s) (hcontrol : s.control = .stopping i addr) :
    Tidy net { s with
      listeners := s.listeners.modify i fun l => { l with stop := true }
      control := .snapshot (.removed addr) } where
  toRoster := h.modify (fun _ => rfl) (fun _ => rfl) (fun _ => Bool.noConfusion)
    (fun _ _ => Bool.noConfusion)
  pending j hj := by cases hj
  nodup := nodup_nil
  covered j l' hl' hstop := by
    obtain ⟨l, hl, rfl⟩ := Table.of_getElem?_modify hl'
    have hij : i ≠ j := fun hij => by
      rw [if_pos hij] at hstop
      cases hstop
    rw [if_neg hij] at hstop ⊢
    rcases h.covered j l hl hstop with hmem | hlookup | ⟨_, hstopping⟩
    · simp [hcontrol, ControlPc.receivers] at hmem
    · exact .inr (.inl hlookup)
    · rw [hcontrol] at hstopping
      cases hstopping
      exact absurd rfl hij
  gone addr' := by
    rintro (⟨j, hstopping⟩ | hsnapshot)
    · cases hstopping
    · cases hsnapshot
      exact h.gone addr (.inl ⟨i, hcontrol⟩)
  listed addr' := by
    have hlisted := h.listed addr'
    simp only [hcontrol, ControlPc.receivers, not_mem_nil, false_and, exists_false,
      or_false] at hlisted ⊢
    exact hlisted

theorem Tidy.bound (h : Tidy net s) {a : SocketAddr} (ha : socket.localAddr = some a)
    (hvacant : s.Vacant net socket)
    (hreceivers : control.receivers = s.control.receivers ++ [s.listeners.length])
    (hfrom : ∀ i addr, s.control ≠ .stopping i addr)
    (hto : ∀ i addr, control ≠ .stopping i addr ∧ control ≠ .snapshot (.removed addr)) :
    Tidy net { s.push net configured socket with control } := by
  have haddr : listenAddr net socket configured = net.print a := by rw [listenAddr, ha]; rfl
  -- The address of the new listener is that of no other one.
  have hfresh : ∀ {j : ℕ} {l' : Listener}, s.listeners[j]? = some l' → l'.stop = false →
      l'.addr ≠ net.print a := by
    intro j l' hl' hstop heq
    have hne := (hvacant a ha).2 l' (mem_of_getElem? hl') (h.live j l' hl' hstop)
    rw [h.named j l' hl', heq] at hne
    exact hne rfl
  have hkept : ∀ {j : ℕ} {l' : Listener}, s.listeners[j]? = some l' →
      (s.push net configured socket).listeners[j]? = some l' := by
    intro j l' hl'
    exact (getElem?_append_left (List.getElem?_eq_some_iff.mp hl').1).trans hl'
  refine ⟨⟨?_, ?_, ?_⟩, ?_, ?_, ?_, ?_, ?_⟩
  · intro j l' hl'
    rcases Table.of_getElem?_concat hl' with hl' | ⟨_, rfl⟩
    · exact h.named j l' hl'
    · change socket.localAddr.map net.print = some (listenAddr net socket configured)
      rw [haddr, ha]
      rfl
  · intro j l' hl' hstop
    rcases Table.of_getElem?_concat hl' with hl' | ⟨_, rfl⟩
    · exact h.live j l' hl' hstop
    · exact ListenerPc.noConfusion
  · intro j k l' l'' hl' hl'' hstop' hstop'' heq
    rcases Table.of_getElem?_concat hl' with hl' | ⟨rfl, rfl⟩ <;>
      rcases Table.of_getElem?_concat hl'' with hl'' | ⟨rfl, rfl⟩
    · exact h.distinct j k l' l'' hl' hl'' hstop' hstop'' heq
    · exact absurd (heq.trans haddr) (hfresh hl' hstop')
    · exact absurd (heq.symm.trans haddr) (hfresh hl'' hstop'')
    · rfl
  · intro j hj
    rw [hreceivers] at hj
    rcases mem_append.mp hj with hj | hj
    · obtain ⟨l', hl', hidle⟩ := h.pending j hj
      exact ⟨l', hkept hl', hidle⟩
    · rw [mem_singleton.mp hj]
      exact ⟨_, getElem?_concat_length, rfl, rfl⟩
  · rw [hreceivers]
    refine nodup_append.mpr ⟨h.nodup, nodup_singleton _, ?_⟩
    rintro j hj k hk rfl
    obtain ⟨l', hl', _⟩ := h.pending j hj
    rw [mem_singleton.mp hk, getElem?_eq_none (Nat.le_refl _)] at hl'
    cases hl'
  · intro j l' hl' hstop
    rw [hreceivers]
    rcases Table.of_getElem?_concat hl' with hl' | ⟨rfl, rfl⟩
    · rcases h.covered j l' hl' hstop with hmem | hlookup | ⟨addr, hstopping⟩
      · exact .inl (mem_append_left _ hmem)
      · exact .inr (.inl hlookup)
      · exact absurd hstopping (hfrom j addr)
    · exact .inl (mem_append_right _ (mem_singleton_self _))
  · rintro addr' (⟨j, hcontrol⟩ | hcontrol)
    · exact absurd hcontrol (hto j addr').1
    · exact absurd hcontrol (hto 0 addr').2
  · intro addr'
    change addr' ∈ remaining net (s.history ++ [.bound socket]) ↔ _
    rw [remaining_bound, mem_append, h.listed addr', or_assoc, ha]
    refine or_congr Iff.rfl ?_
    rw [hreceivers]
    constructor
    · rintro (⟨j, hj, l', hl', haddr'⟩ | hmem)
      · exact ⟨j, mem_append_left _ hj, l', hkept hl', haddr'⟩
      · refine ⟨_, mem_append_right _ (mem_singleton_self _), _,
          getElem?_concat_length, ?_⟩
        exact haddr.trans (mem_singleton.mp hmem).symm
    · rintro ⟨j, hj, l', hl', haddr'⟩
      rcases Table.of_getElem?_concat hl' with hl' | ⟨rfl, rfl⟩
      · rcases mem_append.mp hj with hj | hj
        · exact .inl ⟨j, hj, l', hl', haddr'⟩
        · rw [mem_singleton.mp hj, getElem?_eq_none (Nat.le_refl _)] at hl'
          cases hl'
      · exact .inr (mem_singleton.mpr (haddr'.symm.trans haddr))

theorem Tidy.thread (h : Tidy net s) (hl : s.listeners[i]? = some l) (hidle : l.pc ≠ .idle)
    (hends : pc = .ended → l.stop = true) : Tidy net { s.setPc i pc with messages } := by
  have hpending : i ∉ s.control.receivers := by
    intro hi
    obtain ⟨l', hl', hidle', _⟩ := h.pending i hi
    rw [hl] at hl'
    cases hl'
    exact hidle hidle'
  refine ⟨h.modify (fun _ => rfl) (fun _ => rfl) (fun _ hstop => hstop) ?_, ?_, h.nodup, ?_, h.gone,
    ?_⟩
  · intro l' hl' hstop hended
    rw [hl] at hl'
    cases hl'
    rw [show l.stop = true from hends hended] at hstop
    cases hstop
  · intro j hj
    obtain ⟨l₀, hl₀, hidle₀, hstop₀⟩ := h.pending j hj
    obtain ⟨l', hl', _, hstop', hpc⟩ := getElem?_setPc i pc hl₀
    refine ⟨l', hl', ?_, hstop'.trans hstop₀⟩
    rw [hpc, if_neg fun hij : i = j => hpending (hij ▸ hj)]
    exact hidle₀
  · intro j l' hl' hstop
    obtain ⟨l₀, hl₀, haddr, _, hstop', _⟩ := of_getElem?_setPc hl'
    rw [haddr]
    exact h.covered j l₀ hl₀ (hstop' ▸ hstop)
  · intro addr'
    simp only [exists_setPc]
    exact h.listed addr'

theorem Tidy.spawned (h : Tidy net s) {rest : List ℕ} (hl : s.listeners[i]? = some l)
    (hreceivers : s.control.receivers = i :: rest) (hrest : control.receivers = rest)
    (hfrom : ∀ i addr, s.control ≠ .stopping i addr)
    (hto : ∀ i addr, control ≠ .stopping i addr ∧ control ≠ .snapshot (.removed addr)) :
    Tidy net { s.setPc i .checking with registry := s.registry.insert l.addr i, control } := by
  obtain ⟨hnew, hnodup⟩ := nodup_cons.mp (hreceivers ▸ h.nodup)
  obtain ⟨_, hl', _, hstop⟩ := h.pending i (hreceivers ▸ mem_cons_self)
  rw [hl] at hl'
  cases hl'
  refine ⟨h.modify (fun _ => rfl) (fun _ => rfl) (fun _ hstop => hstop)
    (fun _ _ _ => ListenerPc.noConfusion), ?_, hrest ▸ hnodup, ?_, ?_, ?_⟩
  · intro j hj
    rw [hrest] at hj
    obtain ⟨l₀, hl₀, hidle₀, hstop₀⟩ := h.pending j (hreceivers ▸ mem_cons_of_mem i hj)
    obtain ⟨l', hl', _, hstop', hpc⟩ := getElem?_setPc i .checking hl₀
    refine ⟨l', hl', ?_, hstop'.trans hstop₀⟩
    rw [hpc, if_neg fun hij : i = j => hnew (hij ▸ hj)]
    exact hidle₀
  · intro j l' hl' hstop'
    obtain ⟨l₀, hl₀, haddr, _, hstop₀, _⟩ := of_getElem?_setPc hl'
    rw [hrest, haddr]
    rw [hstop₀] at hstop'
    rcases h.covered j l₀ hl₀ hstop' with hmem | hlookup | ⟨addr, hstopping⟩
    · rw [hreceivers] at hmem
      rcases mem_cons.mp hmem with rfl | hmem
      · rw [hl] at hl₀
        cases hl₀
        exact .inr (.inl (AList.lookup_insert _))
      · exact .inl hmem
    · -- No other listener has the address that is registered now.
      by_cases hsame : l₀.addr = l.addr
      · obtain rfl := h.distinct i j l l₀ hl hl₀ hstop hstop' hsame.symm
        rw [hsame]
        exact .inr (.inl (AList.lookup_insert _))
      · refine .inr (.inl ?_)
        rw [AList.lookup_insert_ne hsame]
        exact hlookup
    · exact absurd hstopping (hfrom j addr)
  · rintro addr' (⟨j, hcontrol⟩ | hcontrol)
    · exact absurd hcontrol (hto j addr').1
    · exact absurd hcontrol (hto 0 addr').2
  · intro addr'
    refine (h.listed addr').trans ?_
    rw [AList.mem_insert, hrest, hreceivers, or_assoc, or_left_comm]
    simp only [exists_setPc, mem_cons, exists_eq_or_imp, hl, Option.some.injEq, exists_eq_left']
    rw [@eq_comm _ addr']

end Steps

theorem rx_step (h : Step cfg s label t) (hrx : t.rx = true) : s.rx = true := by
  cases h <;> first | exact hrx | cases hrx

theorem tidy_step (h : Step cfg s label t) (hreports : label.Reports) (hrx : t.rx = true)
    (hs : Tidy cfg.net s) : Tidy cfg.net t := by
  have hopen := rx_step h hrx
  cases h with
  | bound hattempt hbind hvacant hcontrol =>
    obtain ⟨a, ha⟩ := bind_reports (hreports _ hattempt) hbind
    rcases hcontrol with ⟨addrs, receivers, hfrom, rfl⟩ | ⟨hfrom, rfl⟩
    · exact hs.bound ha hvacant (by rw [hfrom]; rfl) (by simp [hfrom]) (by simp)
    · exact hs.bound ha hvacant (by rw [hfrom]; rfl) (by simp [hfrom]) (by simp)
  | spawned hl hcontrol =>
    rcases hcontrol with ⟨receivers, hfrom, rfl⟩ | ⟨hfrom, rfl⟩
    · exact hs.spawned hl (by rw [hfrom]; rfl) rfl (by simp [hfrom]) (by simp)
    · exact hs.spawned hl (by rw [hfrom]; rfl) rfl (by simp [hfrom]) (by simp)
  | reported hsent hreceivers hfrom hto _ =>
    exact hs.moved hreceivers (fun i addr => (hfrom .startup i addr).2)
      fun i addr => ⟨(hto i addr).1, (hto i addr).2.2⟩
  | removed hcontrol hi => exact hs.removed hcontrol hi
  | inactive hcontrol hi hsent => exact hs.inactive hcontrol hi
  | stopped hcontrol => exact hs.stopped hcontrol
  | listed hcontrol hrx =>
    exact hs.moved (by rw [hcontrol]; rfl) (by simp [hcontrol]) (by simp)
  | unlisted hcontrol hclosed =>
    rw [hopen] at hclosed
    cases hclosed
  | dropped => cases hrx
  | thread hl hadvances =>
    refine hs.thread hl hadvances.spawned.1 fun hended => (hadvances.ends hended).resolve_right ?_
    rw [hopen]
    exact Bool.noConfusion

theorem tidy_run (hreports : ∀ label ∈ labels, label.Reports) (hs : s.rx = true → Tidy cfg.net s)
    (hr : Runs.run (step cfg) s labels = some t) : t.rx = true → Tidy cfg.net t := by
  induction labels generalizing s with
  | nil =>
    cases hr
    exact hs
  | cons label labels ih =>
    obtain ⟨hlabel, hlabels⟩ := forall_mem_cons.mp hreports
    obtain ⟨u, hu, ht⟩ := Runs.run_cons.mp hr
    have hstep := step_cases hu
    exact ih hlabels (fun hrx => tidy_step hstep hlabel hrx (hs (rx_step hstep hrx))) ht

section Confinement

/-- Every socket has the IP address asked for, which is a loopback address. -/
def Confined (s : ReceiverLoop) : Prop := ∀ l ∈ s.listeners,
  l.socket.address.ip.isLoopback = true ∧
    ∀ a ∈ l.socket.localAddr, a.ip = l.socket.address.ip

theorem confined_step (hpolicy : cfg.bindPolicy = .trustedLocal) (h : Step cfg s label t)
    (hs : Confined s) : Confined t := by
  have hmodify : ∀ {i : ℕ} {f : Listener → Listener}, (∀ l, (f l).socket = l.socket) →
      ∀ l ∈ s.listeners.modify i f, l.socket.address.ip.isLoopback = true ∧
        ∀ a ∈ l.socket.localAddr, a.ip = l.socket.address.ip := by
    intro i f hf l hl
    obtain ⟨j, hj⟩ := mem_iff_getElem?.mp hl
    obtain ⟨l₀, hl₀, rfl⟩ := Table.of_getElem?_modify hj
    have hl₀ := hs l₀ (mem_of_getElem? hl₀)
    split_ifs
    · rw [hf]
      exact hl₀
    · exact hl₀
  cases h with
  | bound hattempt hbind hvacant hcontrol =>
    rw [hpolicy] at hbind
    intro l hl
    rcases mem_append.mp hl with hl | hl
    · exact hs l hl
    · rw [mem_singleton.mp hl]
      exact ⟨bind_loopback hbind, fun a ha => (hvacant a ha).1⟩
  | spawned | stopped | thread => exact hmodify fun _ => rfl
  | reported | removed | inactive | listed | unlisted | dropped => exact hs

theorem sorted_activeListeners (s : ReceiverLoop) : s.activeListeners.Pairwise (· < ·) := by
  have hsorted : s.activeListeners.Pairwise (· ≤ ·) := pairwise_insertionSort _ _
  have hnodup : s.activeListeners.Nodup :=
    (perm_insertionSort _ _).nodup_iff.mpr (AList.keys_nodup _)
  exact (hsorted.and hnodup).imp fun ⟨hle, hne⟩ => lt_of_le_of_ne hle hne

/-- A step that sends a snapshot sends the active listeners. -/
theorem snapshot_step {addrs : List Str} (h : Step cfg s label t)
    (hsent : t.messages = s.messages ++ [.listening addrs]) :
    s.rx = true ∧ (∃ cause, s.control = .snapshot cause) ∧ addrs = s.activeListeners := by
  have herror : ∀ {sent : List ReceiverMessage}, (∀ m ∈ sent, m ≠ .listening addrs) →
      s.messages ++ sent ≠ s.messages ++ [.listening addrs] := by
    intro sent hsent heq
    rw [append_cancel_left heq] at hsent
    exact hsent _ (mem_singleton_self _) rfl
  have hnone : s.messages ≠ s.messages ++ [.listening addrs] := by simp
  cases h with
  | listed hcontrol hrx =>
    have heq := append_cancel_left hsent
    cases heq
    exact ⟨hrx, ⟨_, hcontrol⟩, rfl⟩
  | bound | spawned | removed | stopped | unlisted | dropped => exact absurd hsent hnone
  | reported herrors | inactive _ _ herrors =>
    refine absurd hsent (herror fun m hm heq => ?_)
    simpa [heq, ReceiverMessage.isError] using (herrors m hm).2
  | thread hl hadvances =>
    refine absurd hsent (herror fun m hm heq => ?_)
    rcases (hadvances.sends m hm).2 with hm | ⟨_, _, hm⟩
    · simp [heq, ReceiverMessage.isError] at hm
    · simp [heq] at hm

/-- A receiver under the trusted-local policy binds loopback addresses only, and its snapshots list
what is bound and not removed. -/
theorem solo_receiver_confined (hpolicy : cfg.bindPolicy = .trustedLocal)
    (addrs : List Str) (hreports : ∀ label ∈ labels, label.Reports)
    (hr : Runs.run (step cfg) (initial addrs) labels = some s) :
    (∀ l ∈ s.listeners, l.socket.address.ip.isLoopback = true ∧
      ∀ a ∈ l.socket.localAddr, a.ip.isLoopback = true) ∧
    ∀ label t listed, step cfg s label = some t →
      t.messages = s.messages ++ [.listening listed] →
      listed.Pairwise (· < ·) ∧ ∀ addr, addr ∈ listed ↔ addr ∈ remaining cfg.net s.history := by
  refine ⟨fun l hl => ?_, ?_⟩
  · have hconfined : Confined s := Runs.run_invariant
      (fun _ _ _ hs hstep => confined_step hpolicy (step_cases hstep) hs) hr
      (fun l hl => by simp [initial] at hl)
    obtain ⟨hloop, hlocal⟩ := hconfined l hl
    exact ⟨hloop, fun a ha => by rw [hlocal a ha]; exact hloop⟩
  · intro label t listed hstep hsent
    obtain ⟨hrx, ⟨cause, hcontrol⟩, rfl⟩ := snapshot_step (step_cases hstep) hsent
    have htidy := tidy_run hreports (fun _ => tidy_initial addrs) hr hrx
    refine ⟨sorted_activeListeners s, fun addr => ?_⟩
    rw [activeListeners, mem_insertionSort, ← AList.mem_keys, htidy.listed addr, hcontrol]
    simp [ControlPc.receivers]

end Confinement

section Sample

def sampleAddr : Str := "127.0.0.1:9000".toList

def sampleSocketAddr : SocketAddr := ⟨.v4 0x7f000001, 9000, 0⟩

def otherAddr : Str := "127.0.0.1:9001".toList

def otherSocketAddr : SocketAddr := ⟨.v4 0x7f000001, 9001, 0⟩

/-- A system with two addresses. -/
def sampleConfig : ReceiverConfig where
  net := ⟨fun text => if text = sampleAddr then some sampleSocketAddr
      else if text = otherAddr then some otherSocketAddr else none,
    fun addr => if addr = otherSocketAddr then otherAddr else sampleAddr, fun text => text⟩
  bindPolicy := .trustedLocal
  startExtension := false

def sampleAttempt : Attempt := .made sampleSocketAddr (some sampleSocketAddr)

/-- One listener is bound at startup and listed. -/
def sampleStartup : List ReceiverLabel :=
  [.bind sampleAttempt, .control, .host (.ok false), .control, .control, .control]

def sampleRemove : List ReceiverLabel :=
  [.request (.removeListener sampleAddr) sampleAttempt, .control]

def sampleReached (labels : List ReceiverLabel) : ReceiverLoop :=
  (Runs.run (step sampleConfig) (initial [sampleAddr]) labels).getD (initial [])

theorem run_sampleReached (labels : List ReceiverLabel)
    (h : (Runs.run (step sampleConfig) (initial [sampleAddr]) labels).isSome) :
    Runs.run (step sampleConfig) (initial [sampleAddr]) labels = some (sampleReached labels) := by
  obtain ⟨s, hs⟩ := Option.isSome_iff_exists.mp h
  rw [sampleReached, hs]
  rfl

def sampleAdd : List ReceiverLabel :=
  [.request (.addListener otherAddr) (.made otherSocketAddr (some otherSocketAddr)), .control,
    .control]

theorem sample_reports : ∀ label ∈ sampleStartup ++ sampleRemove, label.Reports := by
  simp [sampleStartup, sampleRemove, ReceiverLabel.Reports, ReceiverLabel.attempt?,
    Attempt.Reports, sampleAttempt]

theorem solo_receiver_confined_sample :
    let s := sampleReached (sampleStartup ++ sampleAdd ++ sampleRemove)
    ∃ t, step sampleConfig s .control = some t ∧
      t.messages = s.messages ++ [.listening [otherAddr]] ∧
      ∀ addr, addr ∈ [otherAddr] ↔ addr ∈ remaining sampleConfig.net s.history := by
  intro s
  have hrun := run_sampleReached (sampleStartup ++ sampleAdd ++ sampleRemove) (by decide +kernel)
  have hstep : (step sampleConfig s .control).map (fun t => t.messages) =
      some (s.messages ++ [.listening [otherAddr]]) := by
    decide +kernel
  obtain ⟨t, ht, hsent⟩ := Option.map_eq_some_iff.mp hstep
  have hreports : ∀ label ∈ sampleStartup ++ sampleAdd ++ sampleRemove, label.Reports := by
    simp [sampleStartup, sampleAdd, sampleRemove, ReceiverLabel.Reports, ReceiverLabel.attempt?,
      Attempt.Reports, sampleAttempt]
  exact ⟨t, ht, hsent,
    ((solo_receiver_confined rfl [sampleAddr] hreports hrun).2 _ t [otherAddr] ht hsent).2⟩

end Sample

end ReceiverLoop

end SkidMonitor.Client
