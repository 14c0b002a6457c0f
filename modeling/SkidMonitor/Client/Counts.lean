import SkidMonitor.Client.Desktop
import SkidMonitor.Core.Projection

/-! What the dashboard counts: the counters against the sums over its nodes, and against the
counters the server keeps. -/
namespace SkidMonitor.Client

open List

/-- A gauge with one point, the value of which may be missing. -/
def gaugeSignal (value : Option NumberValue) : Signal :=
  .metrics [⟨none, [⟨none, [⟨[], [], some (.gauge [⟨[], value, ⟨[]⟩⟩]), ⟨[]⟩⟩], ⟨[]⟩⟩], ⟨[]⟩⟩]

def freshState : DashboardState (List StorageCommand) := .empty none 0

/-- The three things that are counted for each node. -/
inductive Tally where
  | metricPoints
  | spans
  | logRecords
  deriving DecidableEq

def NodeSummary.tally (node : NodeSummary) : Tally → ℕ
  | .metricPoints => node.metricPoints
  | .spans => node.spans
  | .logRecords => node.logRecords

def SignalCounters.tally (counters : SignalCounters) : Tally → ℕ
  | .metricPoints => counters.metricPoints
  | .spans => counters.spans
  | .logRecords => counters.logRecords

def ItemKind.tally : ItemKind → Tally
  | .traces => .spans
  | .logs => .logRecords

/-- The counters after a signal. -/
def SignalCounters.ingest (display : Display) (c : SignalCounters) (listener : Str) :
    Signal → SignalCounters
  | .metrics request =>
    { c with
      metrics := c.metrics + 1
      metricPoints := c.metricPoints + (metricSamples display request listener).length }
  | .traces request =>
    { c with traces := c.traces + 1, spans := c.spans + itemCount request }
  | .logs request =>
    { c with logs := c.logs + 1, logRecords := c.logRecords + itemCount request }

namespace DashboardState

variable {σ : Type} [StateStorage σ] (clock : ℕ → Reading) (display : Display)
  {s t u : DashboardState σ}

/-- The sum over all nodes. -/
def total (s : DashboardState σ) (k : Tally) : ℕ := s.nodes.total (·.tally k)

/-- Nothing is counted between two states. -/
structure Still (s t : DashboardState σ) : Prop where
  nodes : t.nodes = s.nodes
  counters : t.counters = s.counters

omit [StateStorage σ] in
theorem Still.total (h : Still s t) (k : Tally) : t.total k = s.total k := by
  unfold DashboardState.total
  rw [h.nodes]

theorem still_applyAlert (s : DashboardState σ) (outcome : AlertStore × Option AlertChange) :
    Still s (applyAlert clock s outcome) :=
  ⟨applyAlert_nodes .., applyAlert_counters ..⟩

theorem still_clearSeverities (keys : List Str) (s : DashboardState σ) :
    Still s (keys.foldl (clearSeverity clock) s) :=
  have hdecorates := decorates_clearSeverities clock keys s
  ⟨hdecorates.nodes, hdecorates.counters⟩

end DashboardState

/-- A node that grows by `n` makes the sum grow by `n`. -/
theorem total_insert (nodes : SortedMap Str NodeSummary) (key : Str) (fresh : NodeSummary)
    {entry : NodeSummary} {k : Tally} {n : ℕ} (hfresh : fresh.tally k = 0)
    (hentry : entry.tally k = ((nodes.lookup key).getD fresh).tally k + n) :
    (nodes.insert key entry).total (·.tally k) = nodes.total (·.tally k) + n := by
  have h := nodes.total_upsert key (fun _ => entry) (·.tally k)
  unfold SortedMap.insert
  cases hlookup : nodes.lookup key with
  | none =>
    simp only [hlookup, Option.getD_none, Option.elim_none] at h hentry
    omega
  | some node =>
    simp only [hlookup, Option.getD_some, Option.elim_some] at h hentry
    omega

namespace DashboardState

variable {σ : Type} [StateStorage σ] (clock : ℕ → Reading) (display : Display)
  (s : DashboardState σ)

theorem observeMetricSample_total (sample : MetricSample) (k : Tally) :
    (observeMetricSample clock s sample).total k =
      s.total k + if k = .metricPoints then 1 else 0 := by
  refine total_insert s.nodes (edgeKey sample.endpoint sample.node)
    (.fresh sample.node sample.endpoint sample.source sample.service (clock s.ticks)) ?_ ?_
  · cases k <;> rfl
  · cases k <;> rfl

theorem observeSignalItems_total (listener : Str) (kind : ItemKind) (count : ℕ) (k : Tally) :
    (observeSignalItems clock s listener kind count).total k =
      s.total k + if k = kind.tally then count else 0 := by
  refine total_insert s.nodes (edgeKey listener listener)
    (.fresh listener listener kind.name metricEmptyField (clock s.ticks)) ?_ ?_
  · cases k <;> rfl
  · cases k <;> cases kind <;> rfl

theorem ingestSample_still (sample : MetricSample) :
    Still (observeMetricSample clock s sample) (ingestSample clock display s sample) := by
  have hfields := enterSample_fields clock display s sample
  exact ⟨hfields.1, hfields.2.2.2⟩

theorem ingestSamples_counters (samples : List MetricSample) :
    (samples.foldl (ingestSample clock display) s).counters = s.counters := by
  induction samples generalizing s with
  | nil => rfl
  | cons sample samples ih => exact (ih _).trans (ingestSample_still clock display s sample).counters

theorem ingestSamples_total (samples : List MetricSample) (k : Tally) :
    (samples.foldl (ingestSample clock display) s).total k =
      s.total k + if k = .metricPoints then samples.length else 0 := by
  induction samples generalizing s with
  | nil => simp
  | cons sample samples ih =>
    rw [foldl_cons, ih, (ingestSample_still clock display s sample).total,
      observeMetricSample_total]
    split_ifs
    · rw [length_cons]
      omega
    · omega

theorem ingestSignal_counters (listener : Str) (signal : Signal) :
    (ingestSignal clock display s listener signal).counters =
      s.counters.ingest display listener signal := by
  cases signal with
  | metrics request => exact ingestSamples_counters clock display _ _
  | traces | logs => rfl

/-- Between two states the sums grow as the counters do. -/
def Balanced (s t : DashboardState σ) : Prop :=
  ∀ k, t.total k + s.counters.tally k = s.total k + t.counters.tally k

omit [StateStorage σ] in
theorem Balanced.trans {s t u : DashboardState σ} (hst : Balanced s t) (htu : Balanced t u) :
    Balanced s u := by
  intro k
  have h₁ := hst k
  have h₂ := htu k
  omega

omit [StateStorage σ] in
theorem Still.balanced {s t : DashboardState σ} (h : Still s t) : Balanced s t := by
  intro k
  rw [h.total, h.counters]

/-- The sums after a signal. -/
theorem ingestSignal_total (listener : Str) (signal : Signal) (k : Tally) :
    (ingestSignal clock display s listener signal).total k + s.counters.tally k =
      s.total k + (s.counters.ingest display listener signal).tally k := by
  cases signal with
  | metrics request =>
    have h : (ingestSignal clock display s listener (.metrics request)).total k = s.total k + _ :=
      ingestSamples_total clock display _ (metricSamples display request listener) k
    rw [h]
    cases k <;> simp only [SignalCounters.ingest, SignalCounters.tally] <;> grind
  | traces request =>
    have h : (ingestSignal clock display s listener (.traces request)).total k = s.total k + _ :=
      observeSignalItems_total clock _ listener .traces (itemCount request) k
    rw [h]
    cases k <;> simp only [SignalCounters.ingest, SignalCounters.tally, ItemKind.tally] <;> grind
  | logs request =>
    have h : (ingestSignal clock display s listener (.logs request)).total k = s.total k + _ :=
      observeSignalItems_total clock _ listener .logs (itemCount request) k
    rw [h]
    cases k <;> simp only [SignalCounters.ingest, SignalCounters.tally, ItemKind.tally] <;> grind

theorem balanced_ingestSignal (listener : Str) (signal : Signal) :
    Balanced s (ingestSignal clock display s listener signal) := by
  intro k
  rw [ingestSignal_counters]
  exact ingestSignal_total clock display s listener signal k

/-- Before a signal is taken apart, nothing is counted. -/
theorem balanced_observeSignalMessage (listener : Str) (signal : Signal) :
    Balanced s (observeSignalMessage clock display s listener signal) := by
  obtain ⟨t, hquiet, heq⟩ := observeSignalMessage_eq clock display (s := s) listener signal
  have hstill : Still s t := ⟨hquiet.nodes, hquiet.counters⟩
  rw [heq]
  refine hstill.balanced.trans (Balanced.trans ?_ (balanced_ingestSignal clock display _ _ _))
  split_ifs
  · exact (still_applyAlert clock t _).balanced
  · exact fun _ => rfl

/-- A new node has counted nothing yet. -/
theorem balanced_registered {key : Str} (hnone : s.nodes.lookup key = none)
    (endpoint node label : Str) (now : Reading) (lastSignal : Str) :
    Balanced s (storeNode clock s key (manualNode endpoint node label now) lastSignal) := by
  intro k
  have hzero : (manualNode endpoint node label now).tally k = 0 := by cases k <;> rfl
  have hgrown := total_insert (n := 0) s.nodes key _ hzero (by rw [hnone]; rfl)
  exact congrArg (· + s.counters.tally k) hgrown

/-- The parts of every other action leave sums and counters balanced. -/
theorem balanced_part {a : Action} {s t : DashboardState σ} (hremove : ∀ key, a ≠ .removeAgent key)
    (hsignal : ∀ listener signal, a ≠ .signal listener signal)
    (h : Part clock display a s t) : Balanced s t := by
  cases h with
  | quiet hquiet => exact Still.balanced ⟨hquiet.nodes, hquiet.counters⟩
  | counted | sample | items | received => exact absurd rfl (hsignal _ _)
  | listening | error | extensionError => exact (still_applyAlert clock s _).balanced
  | registered hnone => exact balanced_registered clock s hnone _ _ _ _ _
  | removed _ => exact absurd rfl (hremove _)
  | enabled _ => exact fun _ => rfl
  | disabled _ =>
    have hdropped := still_clearSeverities clock s.edgeDecorations.keys
      { s with alertsEnabled := false, alerts := s.alerts.clear }
    exact Still.balanced ⟨hdropped.nodes, hdropped.counters⟩

theorem balanced_act {a : Action} (h : ∀ key, a ≠ .removeAgent key) :
    Balanced s (act clock display s a) := by
  by_cases hsignal : ∃ listener signal, a = .signal listener signal
  · obtain ⟨listener, signal, rfl⟩ := hsignal
    exact balanced_observeSignalMessage clock display s listener signal
  · have hother := fun listener signal ha => hsignal ⟨listener, signal, ha⟩
    refine act_invariant clock display (I := Balanced s) ?_ fun _ => rfl
    intro t u hpart ht
    exact ht.trans (balanced_part clock display h hother hpart)

/-- As long as no node is removed, the sums over the nodes grow by what the counters grow. -/
theorem counts_conserved (actions : List Action) (h : ∀ key, .removeAgent key ∉ actions) :
    Balanced s (actions.foldl (act clock display) s) := by
  induction actions generalizing s with
  | nil => exact fun _ => rfl
  | cons a actions ih =>
    have ha : ∀ key, a ≠ .removeAgent key := by
      rintro key rfl
      exact h key mem_cons_self
    have hrest := fun key hmem => h key (mem_cons_of_mem a hmem)
    exact (balanced_act clock display s ha).trans (ih _ hrest)

theorem counts_conserved_sample :
    (∀ key, Action.removeAgent key ∉ [Action.signal ['a'] (gaugeSignal (some (.asInt 1)))]) ∧
      Balanced freshState
        (act stoppedClock plainDisplay freshState (.signal ['a'] (gaugeSignal (some (.asInt 1))))) :=
  ⟨by simp, counts_conserved stoppedClock plainDisplay freshState
    [.signal ['a'] (gaugeSignal (some (.asInt 1)))] (by simp)⟩

end DashboardState

/-- Every number point has a value. -/
def Valued (metric : Metric) : Prop :=
  match metric.data with
  | some (.gauge points) => ∀ point ∈ points, point.value.isSome
  | some (.sum points _) => ∀ point ∈ points, point.value.isSome
  | _ => True

def AllValued : Signal → Prop
  | .metrics request =>
    ∀ group ∈ request, ∀ scope ∈ group.scopes, ∀ metric ∈ scope.records, Valued metric
  | _ => True

section Points

variable (display : Display) {α : Type}

theorem sum_map_eq_iff {l : List α} {f g : α → ℕ} (hle : ∀ a ∈ l, f a ≤ g a) :
    (l.map f).sum = (l.map g).sum ↔ ∀ a ∈ l, f a = g a := by
  constructor
  · intro hsum
    by_contra hne
    push Not at hne
    obtain ⟨a, ha, hfg⟩ := hne
    exact (sum_lt_sum f g hle ⟨a, ha, (hle a ha).lt_of_ne hfg⟩).ne hsum
  · intro heq
    rw [map_congr_left heq]

theorem numberSamples_length (metric : Metric) (context : SampleContext) (kind : Str)
    (points : List NumberDataPoint) :
    (points.filterMap (numberSample display metric context kind)).length =
      points.countP fun point => point.value.isSome := by
  rw [length_filterMap_eq_countP]
  refine countP_congr fun point _ => ?_
  simp [numberSample]

/-- A metric has a sample for each of its points that has something to show. -/
theorem metricToSamples_length_le (metric : Metric) (context : SampleContext) :
    (metricToSamples display metric context).length ≤ metricDataPointCount metric := by
  unfold metricToSamples metricDataPointCount
  rcases metric.data with _ | points | ⟨points, _⟩ | ⟨points, _⟩ | ⟨points, _⟩ | points
  · exact le_rfl
  · exact length_filterMap_le ..
  · exact length_filterMap_le ..
  · exact (length_map _).le
  · exact (length_map _).le
  · exact (length_map _).le

theorem metricToSamples_length_iff (metric : Metric) (context : SampleContext) :
    (metricToSamples display metric context).length = metricDataPointCount metric ↔
      Valued metric := by
  unfold metricToSamples metricDataPointCount Valued
  rcases metric.data with _ | points | ⟨points, _⟩ | ⟨points, _⟩ | ⟨points, _⟩ | points
  · simp
  · simp only [numberSamples_length, countP_eq_length]
  · simp only [numberSamples_length, countP_eq_length]
  · simp
  · simp
  · simp

/-- The points of a request, as the server counts them. -/
def pointCount (request : List (ResourceGroup Metric)) : ℕ :=
  (request.map fun group => (group.scopes.map fun scope =>
    (scope.records.map metricDataPointCount).sum).sum).sum

theorem countRecords_eq {ρ : Type} (count : ρ → ℕ) (request : List (ResourceGroup ρ)) :
    (request.flatMap fun group => group.scopes.flatMap fun scope =>
      scope.records.map count).sum =
    (request.map fun group => (group.scopes.map fun scope =>
      (scope.records.map count).sum).sum).sum := by
  simp only [List.flatMap, sum_flatten, map_map, Function.comp_def]

theorem samples_length (request : List (ResourceGroup Metric)) (listener : Str) :
    (metricSamples display request listener).length ≤ pointCount request ∧
      ((metricSamples display request listener).length = pointCount request ↔
        AllValued (.metrics request)) := by
  unfold metricSamples pointCount AllValued
  simp only [length_flatMap]
  have hscope : ∀ (scope : ScopeGroup Metric) (context : SampleContext),
      (scope.records.map fun metric => (metricToSamples display metric context).length).sum ≤
        (scope.records.map metricDataPointCount).sum :=
    fun scope context => sum_le_sum fun metric _ => metricToSamples_length_le ..
  refine ⟨sum_le_sum fun group _ => sum_le_sum fun scope _ => hscope scope _, ?_⟩
  rw [sum_map_eq_iff fun group _ => sum_le_sum fun scope _ => hscope scope _]
  refine forall₂_congr fun group _ => ?_
  rw [sum_map_eq_iff fun scope _ => hscope scope _]
  refine forall₂_congr fun scope _ => ?_
  rw [sum_map_eq_iff fun metric _ => metricToSamples_length_le ..]
  exact forall₂_congr fun metric _ => metricToSamples_length_iff ..

end Points

section Server

variable (display : Display) {signal : Signal} {signals : List Signal}

/-- What the server counts, without a bound. -/
def SignalCounters.serve (c : SignalCounters) : Signal → SignalCounters
  | .metrics request =>
    { c with metrics := c.metrics + 1, metricPoints := c.metricPoints + pointCount request }
  | .traces request =>
    { c with traces := c.traces + 1, spans := c.spans + itemCount request }
  | .logs request =>
    { c with logs := c.logs + 1, logRecords := c.logRecords + itemCount request }

structure SignalCounters.Le (c d : SignalCounters) : Prop where
  metrics : c.metrics ≤ d.metrics
  metricPoints : c.metricPoints ≤ d.metricPoints
  traces : c.traces ≤ d.traces
  spans : c.spans ≤ d.spans
  logs : c.logs ≤ d.logs
  logRecords : c.logRecords ≤ d.logRecords

theorem SignalCounters.Le.trans {c d e : SignalCounters} (hcd : c.Le d) (hde : d.Le e) : c.Le e :=
  ⟨hcd.metrics.trans hde.metrics, hcd.metricPoints.trans hde.metricPoints,
    hcd.traces.trans hde.traces, hcd.spans.trans hde.spans, hcd.logs.trans hde.logs,
    hcd.logRecords.trans hde.logRecords⟩

/-- The largest value of each counter of the server. -/
def SignalCounters.max : SignalCounters :=
  ⟨2 ^ 64 - 1, 2 ^ 64 - 1, 2 ^ 64 - 1, 2 ^ 64 - 1, 2 ^ 64 - 1, 2 ^ 64 - 1⟩

/-- The counters of the server, as numbers. -/
def served (p : SkidMonitor.SignalCounters) : SignalCounters where
  metrics := p.metricBatches.toNat
  metricPoints := p.metricPoints.toNat
  traces := p.traceBatches.toNat
  spans := p.spans.toNat
  logs := p.logBatches.toNat
  logRecords := p.logRecords.toNat

theorem itemCount_eq (request : List (ResourceGroup Wire)) :
    (request.map fun group => (group.scopes.map fun scope =>
      (scope.records.map fun _ => 1).sum).sum).sum = itemCount request := by
  simp [itemCount, List.flatMap, sum_flatten, Function.comp_def]

theorem countRecords_toNat {ρ : Type} {count : ρ → ℕ} {request : List (ResourceGroup ρ)}
    (h : (request.map fun group => (group.scopes.map fun scope =>
      (scope.records.map count).sum).sum).sum ≤ 2 ^ 64 - 1) :
    (countRecords count request).toNat = (request.map fun group => (group.scopes.map fun scope =>
      (scope.records.map count).sum).sum).sum := by
  rw [countRecords, countRecords_eq]
  exact UInt64.toNat_ofNat_of_lt' (Nat.lt_of_le_of_lt h (by decide))

theorem saturatingAdd_toNat {a b : UInt64} {n : ℕ} (hb : b.toNat = n)
    (h : a.toNat + n ≤ 2 ^ 64 - 1) : (saturatingAdd a b).toNat = a.toNat + n := by
  rw [toNat_saturatingAdd, hb]
  omega

theorem served_observe (p : SkidMonitor.SignalCounters)
    (h : ((served p).serve signal).Le .max) :
    served (p.observe signal) = (served p).serve signal := by
  obtain ⟨hmetrics, hpoints, htraces, hspans, hlogs, hrecords⟩ := h
  cases signal with
  | metrics request =>
    have hcount : (countRecords metricDataPointCount request).toNat = pointCount request :=
      countRecords_toNat (le_trans (Nat.le_add_left ..) hpoints)
    have hsum := saturatingAdd_toNat (a := p.metricPoints) hcount hpoints
    have hbatches := saturatingAdd_toNat (a := p.metricBatches) (b := 1) (n := 1) rfl hmetrics
    simp only [served, SkidMonitor.SignalCounters.observe, SignalCounters.serve, hsum,
      hbatches]
  | traces request =>
    have hcount : (countRecords (fun _ => 1) request).toNat = itemCount request := by
      rw [← itemCount_eq]
      exact countRecords_toNat (itemCount_eq request ▸ le_trans (Nat.le_add_left ..) hspans)
    have hsum := saturatingAdd_toNat (a := p.spans) hcount hspans
    have hbatches := saturatingAdd_toNat (a := p.traceBatches) (b := 1) (n := 1) rfl htraces
    simp only [served, SkidMonitor.SignalCounters.observe, SignalCounters.serve, hsum,
      hbatches]
  | logs request =>
    have hcount : (countRecords (fun _ => 1) request).toNat = itemCount request := by
      rw [← itemCount_eq]
      exact countRecords_toNat (itemCount_eq request ▸ le_trans (Nat.le_add_left ..) hrecords)
    have hsum := saturatingAdd_toNat (a := p.logRecords) hcount hrecords
    have hbatches := saturatingAdd_toNat (a := p.logBatches) (b := 1) (n := 1) rfl hlogs
    simp only [served, SkidMonitor.SignalCounters.observe, SignalCounters.serve, hsum,
      hbatches]

theorem le_serve (c : SignalCounters) (signal : Signal) : c.Le (c.serve signal) := by
  cases signal <;> constructor <;> simp [SignalCounters.serve]

theorem served_observes (signals : List Signal)
    (h : (signals.foldl SignalCounters.serve .default).Le .max) :
    served (signals.foldl SkidMonitor.SignalCounters.observe .default) =
      signals.foldl SignalCounters.serve .default := by
  induction signals using List.reverseRecOn with
  | nil => rfl
  | append_singleton signals signal ih =>
    rw [foldl_append] at h
    have hbefore := ih ((le_serve _ signal).trans h)
    rw [foldl_append, foldl_append]
    rw [← hbefore] at h
    exact (served_observe _ h).trans (congrArg (·.serve signal) hbefore)

/-- The dashboard counts no more than the server, and the same just if every point has a value. -/
theorem ingest_serve {c d : SignalCounters} (hle : c.Le d) (listener : Str) (signal : Signal) :
    (c.ingest display listener signal).Le (d.serve signal) ∧
      (c.ingest display listener signal = d.serve signal ↔ c = d ∧ AllValued signal) := by
  obtain ⟨hmetrics, hpoints, htraces, hspans, hlogs, hrecords⟩ := hle
  cases signal with
  | metrics request =>
    obtain ⟨hlength, hiff⟩ := samples_length display request listener
    refine ⟨⟨?_, ?_, htraces, hspans, hlogs, hrecords⟩, ?_⟩
    · exact Nat.add_le_add_right hmetrics 1
    · exact Nat.add_le_add hpoints hlength
    · rw [← hiff]
      cases c
      cases d
      simp only [SignalCounters.ingest, SignalCounters.serve, SignalCounters.mk.injEq] at *
      omega
  | traces request =>
    refine ⟨⟨hmetrics, hpoints, ?_, ?_, hlogs, hrecords⟩, ?_⟩
    · exact Nat.add_le_add_right htraces 1
    · exact Nat.add_le_add_right hspans _
    · cases c
      cases d
      simp [SignalCounters.ingest, SignalCounters.serve, AllValued]
  | logs request =>
    refine ⟨⟨hmetrics, hpoints, htraces, hspans, ?_, ?_⟩, ?_⟩
    · exact Nat.add_le_add_right hlogs 1
    · exact Nat.add_le_add_right hrecords _
    · cases c
      cases d
      simp [SignalCounters.ingest, SignalCounters.serve, AllValued]

theorem ingests_serves (feed : List (Str × Signal)) {c d : SignalCounters} (hle : c.Le d) :
    feed.foldl (fun c m => c.ingest display m.1 m.2) c = (feed.map Prod.snd).foldl .serve d ↔
      c = d ∧ ∀ m ∈ feed, AllValued m.2 := by
  induction feed generalizing c d with
  | nil => simp
  | cons m feed ih =>
    obtain ⟨hnext, hiff⟩ := ingest_serve display hle m.1 m.2
    rw [foldl_cons, map_cons, foldl_cons, ih hnext, hiff, forall_mem_cons,
      and_assoc]

variable {σ : Type} [StateStorage σ] (clock : ℕ → Reading)

theorem ingestSignals_counters (feed : List (Str × Signal)) (s : DashboardState σ) :
    (feed.foldl (fun s m => s.ingestSignal clock display m.1 m.2) s).counters =
      feed.foldl (fun c m => c.ingest display m.1 m.2) s.counters := by
  induction feed generalizing s with
  | nil => rfl
  | cons m feed ih =>
    rw [foldl_cons, ih, DashboardState.ingestSignal_counters]
    rfl

theorem observes_counters (envelopes : List SignalEnvelope) (p : SignalProjection) :
    (envelopes.foldl SignalProjection.observe p).counters =
      (envelopes.map SignalEnvelope.payload).foldl .observe p.counters := by
  induction envelopes generalizing p with
  | nil => rfl
  | cons envelope envelopes ih => exact ih (p.observe envelope)

/-- Unless a counter of the server is full, the dashboard counts as the server does just if every
number point it has received has a value. -/
theorem counts_as_server_iff (s : DashboardState σ) (hfresh : s.counters = .default)
    (feed : List (Str × SignalEnvelope))
    (hfits : ((feed.map fun m => m.2.payload).foldl SignalCounters.serve .default).Le .max) :
    (feed.foldl (fun s m => s.ingestSignal clock display m.1 m.2.payload) s).counters =
        served ((feed.map Prod.snd).foldl SignalProjection.observe .default).counters ↔
      ∀ m ∈ feed, AllValued m.2.payload := by
  have hshown := ingestSignals_counters display clock (feed.map fun m => (m.1, m.2.payload)) s
  rw [foldl_map, hfresh] at hshown
  have hserved : served ((feed.map Prod.snd).foldl SignalProjection.observe .default).counters =
      (feed.map fun m => m.2.payload).foldl SignalCounters.serve .default := by
    rw [observes_counters, map_map]
    exact served_observes _ hfits
  have hiff := ingests_serves display (feed.map fun m => (m.1, m.2.payload))
    (c := .default) (d := .default) ⟨le_rfl, le_rfl, le_rfl, le_rfl, le_rfl, le_rfl⟩
  rw [forall_mem_map, map_map] at hiff
  rw [hshown, hserved]
  exact hiff.trans (and_iff_right rfl)

def envelopeOf (signal : Signal) : SignalEnvelope :=
  ⟨⟨0⟩, .solo, .sampleA, 1, 0, signal⟩

theorem counts_as_server_iff_sample :
    freshState.counters = .default ∧
      ((freshState.ingestSignal stoppedClock plainDisplay []
          (gaugeSignal (some (.asInt 1)))).counters =
        served (SignalProjection.default.observe
          (envelopeOf (gaugeSignal (some (.asInt 1))))).counters) := by
  refine ⟨rfl, ?_⟩
  refine (counts_as_server_iff plainDisplay stoppedClock freshState rfl
    [([], envelopeOf (gaugeSignal (some (.asInt 1))))] ?_).mpr ?_
  · constructor <;> decide
  · simp [envelopeOf, gaugeSignal, AllValued, Valued]

/-- A point without a value is counted by the server only. -/
theorem valueless_point_uncounted :
    (freshState.ingestSignal stoppedClock plainDisplay [] (gaugeSignal none)).counters.metricPoints =
        0 ∧
      (SignalProjection.default.observe
        (envelopeOf (gaugeSignal none))).counters.metricPoints.toNat = 1 := by
  decide

end Server

end SkidMonitor.Client
