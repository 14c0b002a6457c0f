import SkidMonitor.Agent.Allocation
import SkidMonitor.Server.Ingress

/-! The exports of one agent, over a network that loses requests and responses, to the
ingress and the store behind it. -/
namespace SkidMonitor

open ReadCommitted List

/-- The calls that take the values of the allocator in the order of its releases can all begin. -/
theorem Exporter.begin_released {content : Option Str} {es : List Sequence.Event}
    {s : Sequence.State} (hrun : Runs.run Sequence.State.step (.initial content) es = some s)
    {before after : List (ℕ × ℕ)} {call v : ℕ}
    (hreleased : s.released = before ++ (call, v) :: after) {x : Exporter}
    (hlast : x.last ∈ 0 :: before.map Prod.snd) {e : ℕ} (hfree : x.exports e = none)
    (signal : Signal) :
    ∃ q : UInt64, q.toNat = v ∧ ∃ y, x.step (.begin e signal q) = some y ∧ y.last = v := by
  obtain ⟨hsound, _⟩ := Sequence.invariant_run hrun
  obtain ⟨hpos, hmax⟩ := hsound.proper (call, v) (by simp [hreleased])
  have hq : (UInt64.ofNat v).toNat = v :=
    UInt64.toNat_ofNat_of_lt' (hmax.trans (by decide))
  have hlt : x.last < v := by
    rcases mem_cons.mp hlast with hzero | hmem
    · omega
    · have hincreasing := hsound.increasing
      rw [hreleased, map_append] at hincreasing
      exact (pairwise_append.mp hincreasing).2.2 _ hmem v (by simp)
  refine ⟨.ofNat v, hq,
    (x.allocate (.ofNat v)).set e ⟨signal, some (.ofNat v), .start, 0, .ready⟩, ?_, hq⟩
  simp only [Exporter.step, hfree, hq, if_pos hlt]

/-- `served` has the requests that became appends, with their sessions. -/
structure Delivery where
  exporter : Exporter
  store : StoreState
  served : List (ℕ × Request × SignalEnvelope)

/-- A request that is never delivered is lost, and so is the answer to an append that the
exporter takes no notice of. -/
inductive DeliveryEvent where
  | agent (ev : ExporterEvent)
  | deliver (r : Request) (i : ℕ) (eventId : EventId) (receivedAtUnixNano : UInt64)
  | store (l : StoreLabel)

namespace Delivery

variable (sd : Serde) (tenant : TenantId) (agent : AgentId)

/-- The append of some request of the current attempt has been answered with success. -/
def acknowledged (d : Delivery) (e : ℕ) : Bool :=
  d.served.any fun (i, r, envelope) => r.exportId = e &&
    (d.exporter.exports e).any (fun x => x.loop.attempt = r.attempt) &&
    d.store.log.any fun (j, c, res) => j = i && c = .append envelope && res.isOk

/-- An attempt succeeds only by an answer of the server; it may fail with any status. -/
def grounded (d : Delivery) : ExporterEvent → Bool
  | .attempted e (.ok ()) => d.acknowledged e
  | _ => true

/-- The other clients of the store do not append for this agent. -/
def foreign : StoreLabel → Bool
  | .start _ (.append envelope) => !(envelope.scope = .tenant tenant && envelope.agentId = agent)
  | _ => true

def step (d : Delivery) : DeliveryEvent → Option Delivery
  | .agent ev =>
    if d.grounded ev then (d.exporter.step ev).map fun exporter => { d with exporter } else none
  | .deliver r i eventId receivedAtUnixNano =>
    match sequenceFromMetadata r.header with
    | .error _ => none
    | .ok sequence =>
      let envelope :=
        IngestContext.envelope ⟨tenant, agent, sequence⟩ eventId receivedAtUnixNano r.signal
      if r ∈ d.exporter.requests then
        ((pg sd).step d.store (.start i (.append envelope))).map fun store =>
          { d with store, served := (i, r, envelope) :: d.served }
      else none
  | .store l =>
    if foreign tenant agent l then ((pg sd).step d.store l).map fun store => { d with store }
    else none

/-- Nothing has been exported or appended yet. -/
structure Initial (d : Delivery) : Prop where
  exports : ∀ e, d.exporter.exports e = none
  requests : d.exporter.requests = []
  store : SkidMonitor.Initial d.store
  served : d.served = []

/-- The committed events of the agent with a sequence. -/
def committed (d : Delivery) (sequence : UInt64) : List EventRow :=
  d.store.db.events.filter fun row => row.tenantId = tenant ∧ row.agentId = agent.text ∧
    row.sequence = sequence.toNat

variable {sd tenant agent} {d d' : Delivery} {ev : DeliveryEvent}

theorem step_cases (h : d.step sd tenant agent ev = some d') :
    (∃ a exporter, ev = .agent a ∧ d.grounded a = true ∧ d.exporter.step a = some exporter ∧
      d' = { d with exporter }) ∨
    (∃ r i eventId receivedAt sequence envelope store, ev = .deliver r i eventId receivedAt ∧
      r ∈ d.exporter.requests ∧ sequenceFromMetadata r.header = .ok sequence ∧
      envelope = IngestContext.envelope ⟨tenant, agent, sequence⟩ eventId receivedAt r.signal ∧
      (pg sd).step d.store (.start i (.append envelope)) = some store ∧
      d' = { d with store, served := (i, r, envelope) :: d.served }) ∨
    (∃ l store, ev = .store l ∧ foreign tenant agent l = true ∧
      (pg sd).step d.store l = some store ∧ d' = { d with store }) := by
  unfold step at h
  split at h
  · split at h
    · obtain ⟨exporter, hstep, rfl⟩ := Option.map_eq_some_iff.mp h
      exact Or.inl ⟨_, exporter, rfl, ‹_›, hstep, rfl⟩
    · cases h
  · split at h
    · cases h
    · rename_i sequence hseq
      split at h
      · obtain ⟨store, hstep, rfl⟩ := Option.map_eq_some_iff.mp h
        exact Or.inr (Or.inl ⟨_, _, _, _, sequence, _, store, rfl, ‹_›, hseq, rfl, hstep, rfl⟩)
      · cases h
  · split at h
    · obtain ⟨store, hstep, rfl⟩ := Option.map_eq_some_iff.mp h
      exact Or.inr (Or.inr ⟨_, store, rfl, ‹_›, hstep, rfl⟩)
    · cases h

/-- An append of the agent, made for a request of one of its exports. -/
def FromRequest (d : Delivery) (r : Request) (envelope : SignalEnvelope) : Prop :=
  r ∈ d.exporter.requests ∧ sequenceFromMetadata r.header = .ok envelope.sequence ∧
    envelope.payload = r.signal

variable (sd tenant agent) in
structure Sound (d : Delivery) : Prop where
  exporter : d.exporter.Sound
  store : Reachable sd d.store
  served : ∀ i r envelope, (i, r, envelope) ∈ d.served → d.FromRequest r envelope ∧
    envelope.scope = .tenant tenant ∧ envelope.agentId = agent
  sourced : ∀ i envelope, (i, .append envelope) ∈ d.store.past.calls →
    envelope.scope = .tenant tenant → envelope.agentId = agent → ∃ r, d.FromRequest r envelope
  delivered : ∀ e x, d.exporter.exports e = some x → x.phase = .ended (.ok ()) →
    ∃ i r envelope reply, (i, r, envelope) ∈ d.served ∧ r.exportId = e ∧
      (i, .append envelope, .ok reply) ∈ d.store.log

theorem sound_initial (h : d.Initial) : d.Sound sd tenant agent where
  exporter := by
    refine ⟨?_, ?_, ?_, ?_⟩ <;> simp [h.exports, h.requests]
  store := ⟨d.store, [], h.store, rfl⟩
  served i r envelope hmem := by simp [h.served] at hmem
  sourced i envelope hmem := by simp [h.store.idle.calls] at hmem
  delivered e x hx := by simp [h.exports] at hx

theorem FromRequest.mono {r : Request} {envelope : SignalEnvelope} (h : d.FromRequest r envelope)
    (hsub : d.exporter.requests ⊆ d'.exporter.requests) : d'.FromRequest r envelope :=
  ⟨hsub h.1, h.2⟩

/-- What the guard of a successful attempt says. -/
theorem mem_of_acknowledged {e : ℕ} (h : d.acknowledged e = true) :
    ∃ i r envelope reply, (i, r, envelope) ∈ d.served ∧ r.exportId = e ∧
      (i, .append envelope, .ok reply) ∈ d.store.log := by
  obtain ⟨⟨i, r, envelope⟩, hserved, h⟩ := any_eq_true.mp h
  simp only [Bool.and_eq_true, decide_eq_true_eq, any_eq_true] at h
  obtain ⟨⟨he, _⟩, ⟨j, c, res⟩, hlog, ⟨rfl, rfl⟩, hok⟩ := h
  cases res with
  | error => cases hok
  | ok reply => exact ⟨j, r, envelope, reply, hserved, he, hlog⟩

theorem sound_agent {a : ExporterEvent} {exporter : Exporter} (hd : d.Sound sd tenant agent)
    (hg : d.grounded a = true) (h : d.exporter.step a = some exporter) :
    Sound sd tenant agent { d with exporter } where
  exporter := Exporter.sound_step hd.exporter h
  store := hd.store
  served i r envelope hmem := by
    obtain ⟨hfrom, hscope⟩ := hd.served i r envelope hmem
    exact ⟨hfrom.mono (Exporter.requests_step h), hscope⟩
  sourced i envelope hmem hscope hagent := by
    obtain ⟨r, hfrom⟩ := hd.sourced i envelope hmem hscope hagent
    exact ⟨r, hfrom.mono (Exporter.requests_step h)⟩
  delivered e x hx hp := by
    rcases Exporter.succeeded_step h hx hp with hx | rfl
    · exact hd.delivered e x hx hp
    · exact @mem_of_acknowledged d e hg

theorem sound_deliver {r : Request} {i : ℕ} {eventId : EventId} {receivedAt sequence : UInt64}
    {store : StoreState} (hd : d.Sound sd tenant agent) (hr : r ∈ d.exporter.requests)
    (hseq : sequenceFromMetadata r.header = .ok sequence) {envelope : SignalEnvelope}
    (he : envelope = IngestContext.envelope ⟨tenant, agent, sequence⟩ eventId receivedAt r.signal)
    (h : (pg sd).step d.store (.start i (.append envelope)) = some store) :
    Sound sd tenant agent { d with store, served := (i, r, envelope) :: d.served } where
  exporter := hd.exporter
  store := Runs.reachable_step hd.store h
  served j r' envelope' hmem := by
    rcases mem_cons.mp hmem with hmem | hmem
    · cases hmem
      subst he
      exact ⟨⟨hr, hseq, rfl⟩, rfl, rfl⟩
    · exact hd.served j r' envelope' hmem
  sourced j envelope' hmem hscope hagent := by
    rcases Service.calls_step (Service.step_cases h) hmem with hmem | hstart
    · exact hd.sourced j envelope' hmem hscope hagent
    · cases hstart
      subst he
      exact ⟨r, hr, hseq, rfl⟩
  delivered e x hx hp := by
    obtain ⟨j, r', envelope', reply, hserved, hr', hlog⟩ := hd.delivered e x hx hp
    exact ⟨j, r', envelope', reply, mem_cons_of_mem _ hserved, hr',
      Service.log_step (Service.step_cases h) hlog⟩

theorem sound_store {l : StoreLabel} {store : StoreState} (hd : d.Sound sd tenant agent)
    (hl : foreign tenant agent l = true) (h : (pg sd).step d.store l = some store) :
    Sound sd tenant agent { d with store } where
  exporter := hd.exporter
  store := Runs.reachable_step hd.store h
  served := hd.served
  sourced i envelope hmem hscope hagent := by
    rcases Service.calls_step (Service.step_cases h) hmem with hmem | rfl
    · exact hd.sourced i envelope hmem hscope hagent
    · simp [foreign, hscope, hagent] at hl
  delivered e x hx hp := by
    obtain ⟨j, r, envelope, reply, hserved, hr, hlog⟩ := hd.delivered e x hx hp
    exact ⟨j, r, envelope, reply, hserved, hr, Service.log_step (Service.step_cases h) hlog⟩

variable (sd tenant agent) in
def Reachable : Delivery → Prop := Runs.Reachable (step sd tenant agent) Initial

theorem sound_reachable (h : d.Reachable sd tenant agent) : d.Sound sd tenant agent := by
  refine Runs.reachable_invariant (fun _ => sound_initial) (fun d ev d' hd h => ?_) h
  rcases step_cases h with ⟨a, exporter, rfl, hg, hstep, rfl⟩ |
    ⟨r, i, eventId, receivedAt, sequence, envelope, store, rfl, hr, hseq, he, hstep, rfl⟩ |
    ⟨l, store, rfl, hl, hstep, rfl⟩
  · exact sound_agent hd hg hstep
  · exact sound_deliver hd hr hseq he hstep
  · exact sound_store hd hl hstep

section Committed

variable {e : ℕ} {x : Export} {q : UInt64} {row : EventRow}

theorem mem_committed : row ∈ d.committed tenant agent q ↔ row ∈ d.store.db.events ∧
    row.tenantId = tenant ∧ row.agentId = agent.text ∧ row.sequence = q.toNat := by
  simp [committed]

/-- The request of an append belongs to the export with its sequence. -/
theorem request_of_sequence (hd : d.Sound sd tenant agent) {r : Request} {envelope : SignalEnvelope}
    (h : d.FromRequest r envelope) :
    ∃ x, d.exporter.exports r.exportId = some x ∧ x.sequence = some envelope.sequence ∧
      envelope.payload = x.signal := by
  obtain ⟨hr, hheader, hpayload⟩ := h
  obtain ⟨x, q, hx, hq, hprint, hsignal⟩ := hd.exporter.carried r hr
  rw [hprint, sequenceFromMetadata_print] at hheader
  cases hheader
  exact ⟨x, hx, hq, hpayload.trans hsignal⟩

/-- A committed event of the agent carries the signal of the export with its sequence. -/
theorem signal_of_row (hd : d.Sound sd tenant agent) (hx : d.exporter.exports e = some x)
    (hq : x.sequence = some q) (hrow : row ∈ d.committed tenant agent q) :
    ∃ w : Append sd, row = w.row row.cursor ∧ w.envelope.payload = x.signal := by
  obtain ⟨hmem, ht, ha, hseq⟩ := mem_committed.mp hrow
  obtain ⟨w, hw, i, hcall⟩ := reachable_sourced hd.store hmem
  rw [hw] at ht ha hseq
  have hscope : w.envelope.scope = .tenant tenant := w.scope.trans (congrArg _ ht)
  obtain ⟨r, hfrom⟩ := hd.sourced i w.envelope hcall hscope (AgentId.text_injective ha)
  obtain ⟨y, hy, hyq, hpayload⟩ := request_of_sequence hd hfrom
  rw [UInt64.toNat_inj.mp hseq] at hyq
  obtain rfl := hd.exporter.distinct _ _ x y q hx hy hq hyq
  cases hx.symm.trans hy
  exact ⟨w, hw, hpayload⟩

theorem length_committed_le (hd : d.Sound sd tenant agent) (q : UInt64) :
    (d.committed tenant agent q).length ≤ 1 := by
  have hsplit : d.committed tenant agent q = (d.store.db.eventsOf tenant).filter fun row =>
      row.agentId = agent.text ∧ row.sequence = q.toNat := by
    simp [committed, Db.eventsOf, filter_filter, Bool.and_comm]
  rw [hsplit]
  -- Two such events would have the same key.
  refine Table.length_filter_le_one (((reachable_consistent hd.store).keys tenant).imp ?_)
  intro r r' hkey hr hr'
  simp only [decide_eq_true_eq] at hr hr'
  exact hkey ⟨hr.1.trans hr'.1.symm, hr.2.trans hr'.2.symm⟩

/-- An export that returns success has its event committed. -/
theorem committed_of_delivered (hd : d.Sound sd tenant agent) (hx : d.exporter.exports e = some x)
    (hp : x.phase = .ended (.ok ())) :
    ∃ q row, x.sequence = some q ∧ row ∈ d.committed tenant agent q := by
  obtain ⟨i, r, envelope, reply, hserved, rfl, hlog⟩ := hd.delivered e x hx hp
  obtain ⟨hfrom, hscope, hagent⟩ := hd.served i r envelope hserved
  obtain ⟨y, hy, hyq, _⟩ := request_of_sequence hd hfrom
  cases hx.symm.trans hy
  obtain ⟨outcome, _, w, row, rfl, hrow, _⟩ := (reachable_invariant hd.store).logged _ _ _ hlog
  obtain rfl : w.tenant = tenant := SignalScope.tenant.inj (w.scope.symm.trans hscope)
  have hkey := find?_some hrow
  simp only [decide_eq_true_eq] at hkey
  exact ⟨_, row, hyq, mem_committed.mpr ⟨mem_of_find?_eq_some hrow, hkey.1,
    hkey.2.1.trans (congrArg AgentId.text hagent), hkey.2.2⟩⟩

end Committed

/-- One export sends its signal under one sequence in at most three attempts and gives up
its token at most once. At most one event is committed for it, and exactly one, with the
exported signal, if it returns success. -/
theorem export_delivers_once (hd : d.Reachable sd tenant agent) {e : ℕ} {x : Export}
    (hx : d.exporter.exports e = some x) :
    d.exporter.sentBy e ≤ x.loop.attempt ∧ x.loop.attempt ≤ otlpMaxAttempts ∧ x.invalidations ≤ 1 ∧
    (∀ r ∈ d.exporter.requests, r.exportId = e → ∃ q, x.sequence = some q ∧
      r.header = Numeral.print q.toNat ∧ r.signal = x.signal) ∧
    (∀ q, x.sequence = some q → (d.committed tenant agent q).length ≤ 1) ∧
    (x.phase = .ended (.ok ()) → ∃ q, ∃ (w : Append sd) (cursor : ℤ), x.sequence = some q ∧
      d.committed tenant agent q = [w.row cursor] ∧ w.envelope.payload = x.signal) := by
  have hs := sound_reachable hd
  have hw := hs.exporter.within e x hx
  refine ⟨hw.sent, hw.attempt, ?_, ?_, fun q _ => length_committed_le hs q, ?_⟩
  · rw [hw.invalidations]
    exact Bool.toNat_le _
  · rintro r hr rfl
    obtain ⟨y, q, hy, hq, hheader, hsignal⟩ := hs.exporter.carried r hr
    cases hx.symm.trans hy
    exact ⟨q, hq, hheader, hsignal⟩
  · intro hp
    obtain ⟨q, row, hq, hrow⟩ := committed_of_delivered hs hx hp
    obtain ⟨w, hw, hpayload⟩ := signal_of_row hs hx hq hrow
    obtain ⟨row', hrows⟩ := length_eq_one_iff.mp
      (Nat.le_antisymm (length_committed_le hs q) (length_pos_of_mem hrow))
    rw [hrows, mem_singleton] at hrow
    exact ⟨q, w, row.cursor, hq, by rw [hrows, ← hrow, ← hw], hpayload⟩

section Sample

open SkidMonitor.Sample (serde)

def sampleStart : Delivery := ⟨⟨true, 2, fun _ => none, []⟩, Sample.store, []⟩

/-- The first answer is lost, the second attempt finds the event committed. -/
def sampleEvents : List DeliveryEvent :=
  [.agent (.begin 0 (.logs []) 3), .agent (.send 0), .deliver ⟨0, 1, ['3'], .logs []⟩ 0 ⟨3⟩ 1] ++
    List.replicate 12 (.store (.exec 0 ⟨10, 1⟩)) ++
  [.store (.finish 0), .agent (.attempted 0 (.error (.grpc ⟨.unavailable, "connection reset"⟩))),
    .agent (.send 0), .deliver ⟨0, 2, ['3'], .logs []⟩ 1 ⟨4⟩ 2] ++
    List.replicate 8 (.store (.exec 1 ⟨10, 2⟩)) ++
  [.store (.finish 1), .agent (.attempted 0 (.ok ()))]

theorem export_delivers_once_sample : ∃ d x,
    Runs.run (step serde Sample.tenant Sample.agent) sampleStart sampleEvents = some d ∧
      d.exporter.exports 0 = some x ∧ d.exporter.sentBy 0 = 2 ∧
      ∃ q, ∃ (w : Append serde) (cursor : ℤ), x.sequence = some q ∧
        d.committed Sample.tenant Sample.agent q = [w.row cursor] ∧ w.envelope.payload = x.signal := by
  have hrun : (Runs.run (step serde Sample.tenant Sample.agent) sampleStart sampleEvents).map
      (fun d => (d.exporter.sentBy 0, (d.exporter.exports 0).map (·.phase))) =
        some (2, some (.ended (.ok ()))) := by decide
  obtain ⟨d, hd, hend⟩ := Option.map_eq_some_iff.mp hrun
  obtain ⟨hsent, hexport⟩ := Prod.mk.inj hend
  obtain ⟨x, hx, hphase⟩ := Option.map_eq_some_iff.mp hexport
  have hinit : Initial sampleStart := ⟨fun _ => rfl, rfl, Sample.store_initial, rfl⟩
  obtain ⟨_, _, _, _, _, hok⟩ := export_delivers_once ⟨sampleStart, sampleEvents, hinit, hd⟩ hx
  exact ⟨d, x, hd, hx, hsent, hok hphase⟩

end Sample

end Delivery

end SkidMonitor
