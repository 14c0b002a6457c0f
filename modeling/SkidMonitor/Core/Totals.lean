import SkidMonitor.Core.Projection

/-! The running totals forget the order of the envelopes and add up over the agents. -/
namespace SkidMonitor

open List

theorem saturatingAdd_right_comm (a b c : UInt64) :
    saturatingAdd (saturatingAdd a b) c = saturatingAdd (saturatingAdd a c) b := by
  apply UInt64.toNat.inj
  simp only [toNat_saturatingAdd]
  omega

/-- The sum that stays at the largest 64-bit integer once it is reached. -/
def saturatingSum (xs : List UInt64) : UInt64 := xs.foldl saturatingAdd 0

theorem toNat_foldl_saturatingAdd (xs : List UInt64) (a : UInt64) :
    (xs.foldl saturatingAdd a).toNat =
      min (a.toNat + (xs.map UInt64.toNat).sum) (2 ^ 64 - 1) := by
  induction xs generalizing a with
  | nil =>
    have ha := a.toNat_lt
    simp only [foldl_nil, map_nil, sum_nil]
    omega
  | cons x xs ih =>
    simp only [foldl_cons, ih, toNat_saturatingAdd, map_cons, sum_cons]
    omega

theorem toNat_saturatingSum (xs : List UInt64) :
    (saturatingSum xs).toNat = min (xs.map UInt64.toNat).sum (2 ^ 64 - 1) := by
  rw [saturatingSum, toNat_foldl_saturatingAdd, UInt64.toNat_zero, Nat.zero_add]

theorem toNat_max (a b : UInt64) : (max a b).toNat = max a.toNat b.toNat := by
  simp only [max, UInt64.le_iff_toNat_le]
  split_ifs <;> omega

/-- The six counters of a projection. -/
inductive Counter where
  | metricBatches | metricPoints | traceBatches | spans | logBatches | logRecords
  deriving DecidableEq, Repr

def SignalCounters.get (c : SignalCounters) : Counter → UInt64
  | .metricBatches => c.metricBatches
  | .metricPoints => c.metricPoints
  | .traceBatches => c.traceBatches
  | .spans => c.spans
  | .logBatches => c.logBatches
  | .logRecords => c.logRecords

/-- What one signal adds to a counter. -/
def Signal.amount : Signal → Counter → UInt64
  | .metrics _, .metricBatches => 1
  | .metrics request, .metricPoints => countRecords metricDataPointCount request
  | .traces _, .traceBatches => 1
  | .traces request, .spans => countRecords (fun _ => 1) request
  | .logs _, .logBatches => 1
  | .logs request, .logRecords => countRecords (fun _ => 1) request
  | _, _ => 0

variable {c d : SignalCounters} {k : Counter} {p : SignalProjection}
  {es es' : List SignalEnvelope} {e : SignalEnvelope}

theorem saturatingAdd_zero (a : UInt64) : saturatingAdd a 0 = a := by
  have ha := a.toNat_lt
  apply UInt64.toNat.inj
  rw [toNat_saturatingAdd, UInt64.toNat_zero]
  omega

theorem SignalCounters.get_observe (c : SignalCounters) (s : Signal) (k : Counter) :
    (c.observe s).get k = saturatingAdd (c.get k) (s.amount k) := by
  cases s <;> cases k <;>
    first
      | rfl
      | exact (saturatingAdd_zero _).symm

theorem SignalCounters.ext_get (h : ∀ k, c.get k = d.get k) : c = d := by
  obtain ⟨⟩ := c
  obtain ⟨⟩ := d
  rw [SignalCounters.mk.injEq]
  exact ⟨h .metricBatches, h .metricPoints, h .traceBatches, h .spans, h .logBatches,
    h .logRecords⟩

theorem SignalCounters.observe_comm (c : SignalCounters) (s t : Signal) :
    (c.observe s).observe t = (c.observe t).observe s := by
  apply SignalCounters.ext_get
  intro k
  simp only [SignalCounters.get_observe]
  exact saturatingAdd_right_comm _ _ _

theorem max_right_comm (a b c : UInt64) : max (max a b) c = max (max a c) b := by
  apply UInt64.toNat.inj
  simp only [toNat_max]
  omega

/-- The entry of an envelope's agent once the envelope is observed. -/
def observedAgent (e : SignalEnvelope) (old : Option AgentSignalProjection) :
    AgentSignalProjection :=
  let agent := old.getD ⟨e.agentId, 0, 0, .default⟩
  ⟨agent.agentId, max agent.lastSequence e.sequence,
    max agent.lastReceivedAtUnixNano e.receivedAtUnixNano, agent.counters.observe e.payload⟩

theorem observe_eq (p : SignalProjection) (e : SignalEnvelope) :
    p.observe e = ⟨p.counters.observe e.payload,
      p.agents.upsert e.agentId (observedAgent e)⟩ := rfl

theorem observedAgent_comm {e f : SignalEnvelope} (h : e.agentId = f.agentId)
    (old : Option AgentSignalProjection) :
    observedAgent f (some (observedAgent e old)) = observedAgent e (some (observedAgent f old)) := by
  simp only [observedAgent, Option.getD_some, h]
  rw [max_right_comm, max_right_comm _ e.receivedAtUnixNano, SignalCounters.observe_comm]

/-- Two envelopes may be observed in either order. -/
theorem observe_comm (p : SignalProjection) (e f : SignalEnvelope) :
    (p.observe e).observe f = (p.observe f).observe e := by
  simp only [observe_eq, SignalProjection.mk.injEq]
  refine ⟨SignalCounters.observe_comm _ _ _, ?_⟩
  by_cases h : e.agentId = f.agentId
  · rw [← h, SortedMap.upsert_upsert, SortedMap.upsert_upsert]
    congr 1
    funext old
    exact observedAgent_comm h old
  · exact SortedMap.upsert_comm h

/-- The projection of a list of envelopes, observed in its order. -/
def project (es : List SignalEnvelope) : SignalProjection :=
  es.foldl SignalProjection.observe .default

theorem project_concat (es : List SignalEnvelope) (e : SignalEnvelope) :
    project (es ++ [e]) = (project es).observe e := by
  rw [project, foldl_append]
  rfl

theorem project_perm (h : es.Perm es') : project es = project es' :=
  h.foldl_eq' (fun e _ f _ p => observe_comm p e f) _

/-- Each global counter is the saturating sum of the agents' counters. -/
def SignalProjection.Additive (p : SignalProjection) : Prop :=
  ∀ k, p.counters.get k = saturatingSum (p.agents.values.map fun agent => agent.counters.get k)

/-- The exact sum of one counter over the agents. -/
def SignalProjection.exact (p : SignalProjection) (k : Counter) : ℕ :=
  p.agents.total fun agent => (agent.counters.get k).toNat

theorem additive_iff :
    p.Additive ↔ ∀ k, (p.counters.get k).toNat = min (p.exact k) (2 ^ 64 - 1) := by
  refine forall_congr' fun k => ?_
  rw [← UInt64.toNat_inj, toNat_saturatingSum, map_map]
  rfl

/-- The counters an agent had before its next envelope. -/
def SignalProjection.before (p : SignalProjection) (e : SignalEnvelope) (k : Counter) : ℕ :=
  (p.agents.lookup e.agentId).elim 0 fun agent => (agent.counters.get k).toNat

theorem get_observedAgent (p : SignalProjection) (e : SignalEnvelope) (k : Counter) :
    ((observedAgent e (p.agents.lookup e.agentId)).counters.get k).toNat =
      min (p.before e k + (e.payload.amount k).toNat) (2 ^ 64 - 1) := by
  rw [observedAgent, SignalCounters.get_observe, toNat_saturatingAdd, SignalProjection.before]
  cases p.agents.lookup e.agentId with
  | some agent => rfl
  | none => cases k <;> rfl

theorem toNat_get_observe (p : SignalProjection) (e : SignalEnvelope) (k : Counter) :
    ((p.observe e).counters.get k).toNat =
      min ((p.counters.get k).toNat + (e.payload.amount k).toNat) (2 ^ 64 - 1) := by
  rw [observe_eq, SignalCounters.get_observe, toNat_saturatingAdd]

theorem additive_observe (h : p.Additive) (e : SignalEnvelope) : (p.observe e).Additive := by
  rw [additive_iff] at h ⊢
  intro k
  have htotal : (p.observe e).exact k + p.before e k = p.exact k + _ :=
    p.agents.total_upsert e.agentId (observedAgent e) fun agent => (agent.counters.get k).toNat
  have hbefore : p.before e k ≤ p.exact k := p.agents.elim_lookup_le_total e.agentId _
  rw [get_observedAgent] at htotal
  rw [toNat_get_observe, h k]
  omega

theorem additive_project (es : List SignalEnvelope) : (project es).Additive := by
  induction es using List.reverseRecOn with
  | nil =>
    intro k
    cases k <;> rfl
  | append_singleton es e ih =>
    rw [project_concat]
    exact additive_observe ih e

/-- An entry carries its agent's name and the largest sequence and time of its envelopes. -/
structure Latest (es : List SignalEnvelope) (id : AgentId) (agent : AgentSignalProjection) :
    Prop where
  named : agent.agentId = id
  sequence : IsGreatest {n | ∃ e ∈ es, e.agentId = id ∧ e.sequence = n} agent.lastSequence
  received : IsGreatest {n | ∃ e ∈ es, e.agentId = id ∧ e.receivedAtUnixNano = n}
    agent.lastReceivedAtUnixNano

theorem isGreatest_concat {P : SignalEnvelope → Prop} {g : SignalEnvelope → UInt64} {m : UInt64}
    (h : IsGreatest {n | ∃ e ∈ es, P e ∧ g e = n} m) (he : P e) :
    IsGreatest {n | ∃ f ∈ es ++ [e], P f ∧ g f = n} (max m (g e)) := by
  obtain ⟨⟨f, hf, hPf, hm⟩, hupper⟩ := h
  constructor
  · by_cases hle : m ≤ g e
    · exact ⟨e, by simp, he, by simp [max, hle]⟩
    · exact ⟨f, by simp [hf], hPf, by simp [max, hle, hm]⟩
  · rintro n ⟨f, hf, hPf, rfl⟩
    rw [UInt64.le_iff_toNat_le, toNat_max]
    rcases mem_append.mp hf with hf | hf
    · have hle := UInt64.le_iff_toNat_le.mp (hupper ⟨f, hf, hPf, rfl⟩)
      omega
    · cases mem_singleton.mp hf
      omega

theorem isGreatest_first {P : SignalEnvelope → Prop} {g : SignalEnvelope → UInt64}
    (h : ∀ f ∈ es, ¬ P f) (he : P e) :
    IsGreatest {n | ∃ f ∈ es ++ [e], P f ∧ g f = n} (max 0 (g e)) := by
  have hmax : max 0 (g e) = g e := by
    apply UInt64.toNat.inj
    rw [toNat_max, UInt64.toNat_zero]
    omega
  rw [hmax]
  refine ⟨⟨e, by simp, he, rfl⟩, ?_⟩
  rintro n ⟨f, hf, hPf, rfl⟩
  rcases mem_append.mp hf with hf | hf
  · exact absurd hPf (h f hf)
  · cases mem_singleton.mp hf
    exact UInt64.le_refl _

theorem own_concat_of_ne {id : AgentId} (h : id ≠ e.agentId) (g : SignalEnvelope → UInt64) :
    {n | ∃ f ∈ es ++ [e], f.agentId = id ∧ g f = n} =
      {n | ∃ f ∈ es, f.agentId = id ∧ g f = n} := by
  ext n
  constructor
  · rintro ⟨f, hf, hid, hn⟩
    rcases mem_append.mp hf with hf | hf
    · exact ⟨f, hf, hid, hn⟩
    · cases mem_singleton.mp hf
      exact absurd hid.symm h
  · rintro ⟨f, hf, hid, hn⟩
    exact ⟨f, mem_append_left _ hf, hid, hn⟩

/-- The agents of a projection are those that sent an envelope. -/
theorem latest_project (es : List SignalEnvelope) (id : AgentId) :
    match (project es).agents.lookup id with
    | some agent => Latest es id agent
    | none => ∀ e ∈ es, e.agentId ≠ id := by
  induction es using List.reverseRecOn with
  | nil => exact fun e he => nomatch he
  | append_singleton es e ih =>
    rw [project_concat, observe_eq]
    by_cases hid : id = e.agentId
    · subst hid
      rw [SortedMap.lookup_upsert_self]
      cases hold : (project es).agents.lookup e.agentId with
      | some agent =>
        rw [hold] at ih
        exact ⟨ih.named, isGreatest_concat ih.sequence rfl, isGreatest_concat ih.received rfl⟩
      | none =>
        rw [hold] at ih
        exact ⟨rfl, isGreatest_first ih rfl, isGreatest_first ih rfl⟩
    · rw [SortedMap.lookup_upsert_of_ne hid]
      cases hold : (project es).agents.lookup id with
      | some agent =>
        rw [hold] at ih
        refine ⟨ih.named, ?_, ?_⟩
        · rw [own_concat_of_ne hid]
          exact ih.sequence
        · rw [own_concat_of_ne hid]
          exact ih.received
      | none =>
        rw [hold] at ih
        intro f hf
        rcases mem_append.mp hf with hf | hf
        · exact ih f hf
        · cases mem_singleton.mp hf
          exact Ne.symm hid

/-- Every order of the envelopes gives one projection. Its counters add up over the agents,
and each agent's entry holds the maxima over that agent's envelopes. -/
theorem projection_order_free (h : es.Perm es') :
    project es = project es' ∧ (project es).Additive ∧
      ∀ id, match (project es).agents.lookup id with
        | some agent => Latest es id agent
        | none => ∀ e ∈ es, e.agentId ≠ id :=
  ⟨project_perm h, additive_project es, latest_project es⟩

def logBatch (sequence receivedAt : UInt64) : SignalEnvelope :=
  ⟨⟨0⟩, .solo, .sampleA, sequence, receivedAt, .logs []⟩

theorem projection_order_free_sample :
    [logBatch 2 5, logBatch 1 7].Perm [logBatch 1 7, logBatch 2 5] ∧
      project [logBatch 2 5, logBatch 1 7] = project [logBatch 1 7, logBatch 2 5] ∧
      (project [logBatch 2 5, logBatch 1 7]).Additive :=
  have hperm : [logBatch 2 5, logBatch 1 7].Perm [logBatch 1 7, logBatch 2 5] := .swap _ _ _
  have hall := projection_order_free hperm
  ⟨hperm, hall.1, hall.2.1⟩

end SkidMonitor
