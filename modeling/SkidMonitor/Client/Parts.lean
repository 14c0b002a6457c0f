import SkidMonitor.Client.Dashboard

/-! What the receivers and the user do to a dashboard, and the parts each of these actions is made
of. An invariant only has to be kept by the parts. -/
namespace SkidMonitor.Client

inductive Action where
  | listening (addrs : List Str)
  | signal (listener : Str) (signal : Signal)
  | error (listener : Option Str) (error : Str)
  | extensionError (error : Str)
  | registerAgent (endpoint node service : Str)
  | removeAgent (key : Str)
  | setAlertsEnabled (enabled : Bool)

namespace DashboardState

variable {σ : Type} [StateStorage σ] (clock : ℕ → Reading) (display : Display)

def act (s : DashboardState σ) : Action → DashboardState σ
  | .listening addrs => observeListening clock s addrs
  | .signal listener signal => observeSignalMessage clock display s listener signal
  | .error listener error => observeReceiverError clock s listener error
  | .extensionError error => observeExtensionError clock s error
  | .registerAgent endpoint node service => (registerAgent clock s endpoint node service).1
  | .removeAgent key => (removeAgent clock s key).1
  | .setAlertsEnabled enabled => setAlertsEnabled clock s enabled

/-- Two states that differ only in what is shown and in the time. -/
structure Quiet (s t : DashboardState σ) : Prop where
  counters : t.counters = s.counters
  nodes : t.nodes = s.nodes
  edgeDecorations : t.edgeDecorations = s.edgeDecorations
  alerts : t.alerts = s.alerts
  alertsEnabled : t.alertsEnabled = s.alertsEnabled
  storage : t.storage = s.storage

/-- A sample is entered, and the alerts and the severity of its node follow it. -/
def enterSample (s : DashboardState σ) (sample : MetricSample) : DashboardState σ :=
  observeAlert clock display ((observeMetricSample clock s sample).pushHistory sample) sample

/-- The alerts are dropped and no severity stays. -/
def dropAlerts (s : DashboardState σ) : DashboardState σ :=
  s.edgeDecorations.keys.foldl (clearSeverity clock)
    { s with alertsEnabled := false, alerts := s.alerts.clear }

/-- A row gets another severity, and the storage hears of it. -/
def putSeverity (s : DashboardState σ) (key : Str) (d : EdgeSignalDecoration)
    (severity : Option AlertSeverity) : DashboardState σ :=
  let decoration := d.setSeverity severity (clock s.ticks)
  send { s with
    edgeDecorations := ⟨s.edgeDecorations.rows.insert key decoration⟩
    ticks := s.ticks + 1 } (.upsertEdge decoration.toPersisted)

/-- The name a node is registered under. -/
def registeredNode (endpoint node : Str) : Str :=
  if (Text.trim node).isEmpty then Text.trim endpoint else Text.trim node

/-- The node is forgotten, in the storage as well. -/
def forgetNode (s : DashboardState σ) (key : Str) : DashboardState σ :=
  send { s with
    nodes := s.nodes.erase key
    edgeDecorations := s.edgeDecorations.remove key } (.deleteEdge key)

/-- One part of an action. -/
inductive Part : Action → DashboardState σ → DashboardState σ → Prop where
  | quiet {a : Action} {s t : DashboardState σ} : Quiet s t → Part a s t
  | counted {s : DashboardState σ} {listener : Str} {signal : Signal} {counters : SignalCounters} :
      Part (.signal listener signal) s { s with counters }
  | sample {s : DashboardState σ} {listener : Str} {request : List (ResourceGroup Metric)}
      {sample : MetricSample} : sample ∈ metricSamples display request listener →
      Part (.signal listener (.metrics request)) s (enterSample clock display s sample)
  | items {s : DashboardState σ} {listener : Str} {signal : Signal} {kind : ItemKind} {count : ℕ} :
      Part (.signal listener signal) s (observeSignalItems clock s listener kind count)
  | received {s : DashboardState σ} {listener : Str} {signal : Signal} {detail : Str} :
      s.alertsEnabled = true →
      Part (.signal listener signal) s (observeRecovered clock s listener detail)
  | listening {s : DashboardState σ} {addrs : List Str} {addr detail : Str} : addr ∈ addrs →
      s.alertsEnabled = true → Part (.listening addrs) s (observeRecovered clock s addr detail)
  | error {s : DashboardState σ} {listener : Option Str} {error : Str} : s.alertsEnabled = true →
      Part (.error listener error) s (applyAlert clock s
        (s.alerts.observeReceiverError (listener.getD "receiver".toList) error))
  | extensionError {s : DashboardState σ} {error : Str} : s.alertsEnabled = true →
      Part (.extensionError error) s (applyAlert clock s (s.alerts.observeExtensionError error))
  | registered {s : DashboardState σ} {endpoint node service label : Str} {now : Reading} :
      s.nodes.lookup (edgeKey (Text.trim endpoint) (registeredNode endpoint node)) = none →
      Part (.registerAgent endpoint node service) s
        (storeNode clock s (edgeKey (Text.trim endpoint) (registeredNode endpoint node))
          (manualNode (Text.trim endpoint) (registeredNode endpoint node) label now)
          "manual".toList)
  | removed {s : DashboardState σ} {key : Str} {node : NodeSummary} :
      s.nodes.lookup key = some node → Part (.removeAgent key) s (forgetNode s key)
  | enabled {s : DashboardState σ} : s.alertsEnabled = false →
      Part (.setAlertsEnabled true) s { s with alertsEnabled := true }
  | disabled {s : DashboardState σ} : s.alertsEnabled = true →
      Part (.setAlertsEnabled false) s (dropAlerts clock s)

/-- The parts of one action, in their order. -/
abbrev Parts (a : Action) : DashboardState σ → DashboardState σ → Prop :=
  Relation.ReflTransGen (Part clock display a)

/-- One change of what is kept. A node is stored under the key of its names if all others are. -/
inductive Change (a : Action) : DashboardState σ → DashboardState σ → Prop where
  | quiet {s t : DashboardState σ} : Quiet s t → Change a s t
  | counted {s : DashboardState σ} {counters : SignalCounters} : Change a s { s with counters }
  | enabled {s : DashboardState σ} : Change a s { s with alertsEnabled := true }
  | alert {s : DashboardState σ} {outcome : AlertStore × Option AlertChange} :
      s.alertsEnabled = true → s.alerts.Observes outcome → Change a s (applyAlert clock s outcome)
  | stored {s : DashboardState σ} {key lastSignal : Str} {entry : NodeSummary} :
      ((∀ k node, s.nodes.lookup k = some node → k = edgeKey node.endpoint node.node) →
        key = edgeKey entry.endpoint entry.node) →
      Change a s (storeNode clock s key entry lastSignal)
  | severity {s : DashboardState σ} {key : Str} {d : EdgeSignalDecoration}
      {severity : Option AlertSeverity} : s.edgeDecorations.rows.lookup key = some d →
      Change a s (putSeverity clock s key d severity)
  | forgotten {s : DashboardState σ} {key : Str} : Change a s (forgetNode s key)
  | dropped {s : DashboardState σ} : a = .setAlertsEnabled false →
      Change a s { s with alertsEnabled := false, alerts := .empty }

abbrev Changes (a : Action) : DashboardState σ → DashboardState σ → Prop :=
  Relation.ReflTransGen (Change clock a)

section Fields

variable (s : DashboardState σ)

omit [StateStorage σ] in
theorem quiet_pushEvent (kind message : Str) : Quiet s (pushEvent clock s kind message) :=
  ⟨rfl, rfl, rfl, rfl, rfl, rfl⟩

omit [StateStorage σ] in
theorem quiet_pushHistory (sample : MetricSample) : Quiet s (s.pushHistory sample) := by
  unfold pushHistory
  split <;> exact ⟨rfl, rfl, rfl, rfl, rfl, rfl⟩

variable (outcome : AlertStore × Option AlertChange)

@[simp] theorem applyAlert_nodes : (applyAlert clock s outcome).nodes = s.nodes := by
  unfold applyAlert pushAlertChange
  split <;> rfl

@[simp] theorem applyAlert_edgeDecorations :
    (applyAlert clock s outcome).edgeDecorations = s.edgeDecorations := by
  unfold applyAlert pushAlertChange
  split <;> rfl

@[simp] theorem applyAlert_alerts : (applyAlert clock s outcome).alerts = outcome.1 := by
  unfold applyAlert pushAlertChange
  split <;> rfl

@[simp] theorem applyAlert_alertsEnabled :
    (applyAlert clock s outcome).alertsEnabled = s.alertsEnabled := by
  unfold applyAlert pushAlertChange
  split <;> rfl

/-- An alert is reported to the storage exactly when it changes. -/
theorem applyAlert_storage : (applyAlert clock s outcome).storage =
    match outcome.2 with
    | none => s.storage
    | some change =>
      s.storage.map (StateStorage.send · (.recordAlert (.ofChange (clock s.ticks) change))) := by
  unfold applyAlert pushAlertChange
  rcases outcome with ⟨alerts, _ | change⟩ <;> rfl

theorem updateEdgeAlertSeverity_of_none {sample : MetricSample}
    (h : s.edgeDecorations.rows.lookup (edgeKey sample.endpoint sample.node) = none) :
    updateEdgeAlertSeverity clock s sample = s := by
  simp only [updateEdgeAlertSeverity, EdgeSignalDecorations.setNodeSeverity, h]

theorem updateEdgeAlertSeverity_of_some {sample : MetricSample} {d : EdgeSignalDecoration}
    (h : s.edgeDecorations.rows.lookup (edgeKey sample.endpoint sample.node) = some d) :
    updateEdgeAlertSeverity clock s sample = putSeverity clock s
      (edgeKey sample.endpoint sample.node) d
      (s.alerts.highestForNode sample.endpoint sample.node) := by
  simp only [updateEdgeAlertSeverity, EdgeSignalDecorations.setNodeSeverity, h, putSeverity]

/-- Only a row with a severity is touched. -/
theorem clearSeverity_cases (key : Str) : clearSeverity clock s key = s ∧
      (∀ d, s.edgeDecorations.rows.lookup key = some d → d.severity = none) ∨
    ∃ d, s.edgeDecorations.rows.lookup key = some d ∧
      clearSeverity clock s key = putSeverity clock s key d none := by
  unfold clearSeverity EdgeSignalDecorations.clearSeverity
  cases hkey : s.edgeDecorations.rows.lookup key with
  | none => exact .inl ⟨rfl, nofun⟩
  | some d =>
    cases hseverity : d.severity with
    | none =>
      refine .inl ⟨by simp [hseverity], ?_⟩
      rintro _ ⟨⟩
      exact hseverity
    | some severity => exact .inr ⟨d, rfl, by simp [hseverity, putSeverity]⟩

/-- Of what the invariants speak of, only the decorations and the storage change. -/
structure Decorates (s t : DashboardState σ) : Prop where
  nodes : t.nodes = s.nodes
  alerts : t.alerts = s.alerts
  alertsEnabled : t.alertsEnabled = s.alertsEnabled
  counters : t.counters = s.counters

theorem decorates_clearSeverity (key : Str) : Decorates s (clearSeverity clock s key) := by
  obtain ⟨heq, _⟩ | ⟨d, _, heq⟩ := clearSeverity_cases clock s key
  · rw [heq]
    exact ⟨rfl, rfl, rfl, rfl⟩
  · rw [heq]
    exact ⟨rfl, rfl, rfl, rfl⟩

theorem decorates_clearSeverities (keys : List Str) (s : DashboardState σ) :
    Decorates s (keys.foldl (clearSeverity clock) s) := by
  induction keys generalizing s with
  | nil => exact ⟨rfl, rfl, rfl, rfl⟩
  | cons key keys ih =>
    have hkey := decorates_clearSeverity clock s key
    have hrest := ih (clearSeverity clock s key)
    exact ⟨hrest.nodes.trans hkey.nodes, hrest.alerts.trans hkey.alerts,
      hrest.alertsEnabled.trans hkey.alertsEnabled, hrest.counters.trans hkey.counters⟩

theorem decorates_updateEdgeAlertSeverity (sample : MetricSample) :
    Decorates s (updateEdgeAlertSeverity clock s sample) := by
  cases hkey : s.edgeDecorations.rows.lookup (edgeKey sample.endpoint sample.node) with
  | none =>
    rw [updateEdgeAlertSeverity_of_none clock s hkey]
    exact ⟨rfl, rfl, rfl, rfl⟩
  | some d =>
    rw [updateEdgeAlertSeverity_of_some clock s hkey]
    exact ⟨rfl, rfl, rfl, rfl⟩

@[simp] theorem applyAlert_counters (outcome : AlertStore × Option AlertChange) :
    (applyAlert clock s outcome).counters = s.counters := by
  unfold applyAlert pushAlertChange
  split <;> rfl

/-- An entered sample leaves a node behind, and alerts only if they are enabled. -/
theorem enterSample_fields (sample : MetricSample) :
    (enterSample clock display s sample).nodes = (observeMetricSample clock s sample).nodes ∧
      (enterSample clock display s sample).alerts = (if s.alertsEnabled then
        (s.alerts.observeMetric display sample).1 else s.alerts) ∧
      (enterSample clock display s sample).alertsEnabled = s.alertsEnabled ∧
      (enterSample clock display s sample).counters = s.counters := by
  have hquiet := quiet_pushHistory (observeMetricSample clock s sample) sample
  have henabled : ((observeMetricSample clock s sample).pushHistory sample).alertsEnabled =
      s.alertsEnabled := hquiet.alertsEnabled
  have halerts : ((observeMetricSample clock s sample).pushHistory sample).alerts = s.alerts :=
    hquiet.alerts
  unfold enterSample observeAlert
  rw [henabled, halerts]
  split_ifs
  · have hdecorates := decorates_updateEdgeAlertSeverity clock
      (applyAlert clock ((observeMetricSample clock s sample).pushHistory sample)
        (s.alerts.observeMetric display sample)) sample
    refine ⟨hdecorates.nodes.trans ?_, hdecorates.alerts.trans (applyAlert_alerts ..),
      hdecorates.alertsEnabled.trans ?_, hdecorates.counters.trans ?_⟩
    · rw [applyAlert_nodes, hquiet.nodes]
    · rw [applyAlert_alertsEnabled, henabled]
    · rw [applyAlert_counters]
      exact hquiet.counters
  · exact ⟨hquiet.nodes, halerts, henabled, hquiet.counters⟩

end Fields

section Acting

variable {s : DashboardState σ}

theorem parts_quiet {a : Action} {t : DashboardState σ} (h : Quiet s t) :
    Parts clock display a s t :=
  .single (.quiet h)

theorem quiet_ingestSample (sample : MetricSample) :
    Quiet (enterSample clock display s sample) (ingestSample clock display s sample) :=
  ⟨rfl, rfl, rfl, rfl, rfl, rfl⟩

theorem parts_samples {listener : Str} {request : List (ResourceGroup Metric)}
    {samples : List MetricSample} (h : samples ⊆ metricSamples display request listener) :
    Parts clock display (.signal listener (.metrics request)) s
      (samples.foldl (ingestSample clock display) s) := by
  induction samples generalizing s with
  | nil => exact .refl
  | cons sample samples ih =>
    obtain ⟨hsample, hrest⟩ := List.cons_subset.mp h
    refine .head (.sample hsample) (.head ?_ (ih hrest))
    exact .quiet (quiet_ingestSample clock display sample)

theorem parts_ingestSignal (listener : Str) (signal : Signal) :
    Parts clock display (.signal listener signal) s
      (ingestSignal clock display s listener signal) := by
  unfold ingestSignal
  cases signal with
  | metrics request =>
    refine .tail ?_ (.quiet (quiet_pushEvent ..))
    exact .head .counted (parts_samples clock display (List.Subset.refl _))
  | traces | logs =>
    exact .tail (.tail (.single .counted) .items) (.quiet (quiet_pushEvent ..))

/-- A signal shows its listener at work, resolves the error of it, and is ingested. -/
theorem observeSignalMessage_eq (listener : Str) (signal : Signal) : ∃ t, Quiet s t ∧
    observeSignalMessage clock display s listener signal = ingestSignal clock display
      (if t.alertsEnabled then
        observeRecovered clock t listener "receiver received a signal".toList
      else t) listener signal := by
  refine ⟨_, ?_, rfl⟩
  split <;> exact ⟨rfl, rfl, rfl, rfl, rfl, rfl⟩

theorem parts_observeSignalMessage (listener : Str) (signal : Signal) :
    Parts clock display (.signal listener signal) s
      (observeSignalMessage clock display s listener signal) := by
  obtain ⟨t, hquiet, heq⟩ := observeSignalMessage_eq clock display (s := s) listener signal
  rw [heq]
  refine .head (.quiet hquiet) ?_
  split_ifs with henabled
  · exact .head (.received henabled) (parts_ingestSignal clock display listener signal)
  · exact parts_ingestSignal clock display listener signal

theorem parts_listeners {addrs all : List Str} (h : addrs ⊆ all) (detail : Str)
    (henabled : s.alertsEnabled = true) : Parts clock display (.listening all) s
      (addrs.foldl (fun s addr => observeRecovered clock s addr detail) s) := by
  induction addrs generalizing s with
  | nil => exact .refl
  | cons addr addrs ih =>
    obtain ⟨haddr, hrest⟩ := List.cons_subset.mp h
    exact .head (.listening haddr henabled) (ih hrest ((applyAlert_alertsEnabled ..).trans henabled))

theorem parts_observeListening (addrs : List Str) :
    Parts clock display (.listening addrs) s (observeListening clock s addrs) := by
  unfold observeListening
  refine .head (.quiet (t := pushEvent clock { s with
    listeners := addrs.dedup
    listeningLabel := some (listenerStatusLabel addrs)
    status := .listening (listenerStatusLabel addrs) } "receiver".toList
    (listenerEventMessage addrs)) ⟨rfl, rfl, rfl, rfl, rfl, rfl⟩) ?_
  dsimp only
  split_ifs with henabled
  · exact parts_listeners clock display (List.Subset.refl _) _ henabled
  · exact .refl

theorem parts_observeReceiverError (listener : Option Str) (error : Str) :
    Parts clock display (.error listener error) s
      (observeReceiverError clock s listener error) := by
  unfold observeReceiverError
  refine .head (.quiet (quiet_pushEvent clock s "error".toList error)) ?_
  refine .trans (b := if (pushEvent clock s "error".toList error).alertsEnabled = true then
    applyAlert clock (pushEvent clock s "error".toList error)
      ((pushEvent clock s "error".toList error).alerts.observeReceiverError
        (listener.getD "receiver".toList) error)
    else pushEvent clock s "error".toList error) ?_ ?_
  · split_ifs with henabled
    · exact .single (.error henabled)
    · exact .refl
  · dsimp only
    split_ifs <;> exact parts_quiet clock display ⟨rfl, rfl, rfl, rfl, rfl, rfl⟩

theorem parts_observeExtensionError (error : Str) :
    Parts clock display (.extensionError error) s (observeExtensionError clock s error) := by
  unfold observeExtensionError
  refine .head (.quiet (quiet_pushEvent clock s "extension".toList error)) ?_
  dsimp only
  split_ifs with henabled
  · exact .single (.extensionError henabled)
  · exact .refl

theorem parts_registerAgent (endpoint node service : Str) :
    Parts clock display (.registerAgent endpoint node service) s
      (registerAgent clock s endpoint node service).1 := by
  unfold registerAgent
  dsimp only
  rw [← registeredNode]
  generalize (if (Text.trim service).isEmpty then _ else Text.trim service) = label
  split_ifs with hempty hpresent
  · exact .refl
  · exact .refl
  · refine .head (.quiet (t := { s with ticks := s.ticks + 1 }) ⟨rfl, rfl, rfl, rfl, rfl, rfl⟩) ?_
    have hnone := Option.not_isSome_iff_eq_none.mp hpresent
    exact .head (.registered hnone) (parts_quiet clock display (quiet_pushEvent ..))

theorem parts_removeAgent (key : Str) :
    Parts clock display (.removeAgent key) s (removeAgent clock s key).1 := by
  unfold removeAgent
  cases hkey : s.nodes.lookup key with
  | none => exact .refl
  | some node => exact .head (.removed hkey) (parts_quiet clock display (quiet_pushEvent ..))

theorem parts_setAlertsEnabled (enabled : Bool) :
    Parts clock display (.setAlertsEnabled enabled) s (setAlertsEnabled clock s enabled) := by
  unfold setAlertsEnabled
  split_ifs with hsame henabled
  · exact .refl
  · subst henabled
    have hfalse : s.alertsEnabled = false := by simpa using hsame
    exact .head (.enabled hfalse) (parts_quiet clock display (quiet_pushEvent ..))
  · have hfalse : enabled = false := by simpa using henabled
    subst hfalse
    have htrue : s.alertsEnabled = true := by simpa using hsame
    exact .head (.disabled htrue) (parts_quiet clock display (quiet_pushEvent ..))

/-- Every action is made of its parts. -/
theorem parts_act (a : Action) : Parts clock display a s (act clock display s a) := by
  cases a with
  | listening addrs => exact parts_observeListening clock display addrs
  | signal listener signal => exact parts_observeSignalMessage clock display listener signal
  | error listener error => exact parts_observeReceiverError clock display listener error
  | extensionError error => exact parts_observeExtensionError clock display error
  | registerAgent endpoint node service =>
    exact parts_registerAgent clock display endpoint node service
  | removeAgent key => exact parts_removeAgent clock display key
  | setAlertsEnabled enabled => exact parts_setAlertsEnabled clock display enabled

theorem parts_invariant {I : DashboardState σ → Prop} {a : Action} {t : DashboardState σ}
    (hpart : ∀ t u, Part clock display a t u → I t → I u) (hparts : Parts clock display a s t)
    (hs : I s) : I t := by
  induction hparts with
  | refl => exact hs
  | tail _ hlast ih => exact hpart _ _ hlast ih

/-- What the parts of an action keep, the action keeps. -/
theorem act_invariant {I : DashboardState σ → Prop} {a : Action}
    (hpart : ∀ t u, Part clock display a t u → I t → I u) (hs : I s) :
    I (act clock display s a) :=
  parts_invariant clock display hpart (parts_act clock display a) hs

theorem changes_clearSeverities {a : Action} (keys : List Str) :
    Changes clock a s (keys.foldl (clearSeverity clock) s) := by
  induction keys generalizing s with
  | nil => exact .refl
  | cons key keys ih =>
    obtain ⟨heq, _⟩ | ⟨d, hkey, heq⟩ := clearSeverity_cases clock s key
    · rw [List.foldl_cons, heq]
      exact ih
    · rw [List.foldl_cons, heq]
      exact .head (.severity hkey) ih

theorem changes_enterSample {a : Action} (sample : MetricSample) :
    Changes clock a s (enterSample clock display s sample) := by
  have hstored : Changes clock a s (observeMetricSample clock s sample) :=
    .head (.quiet (t := { s with ticks := s.ticks + 1 }) ⟨rfl, rfl, rfl, rfl, rfl, rfl⟩)
      (.single (.stored fun _ => rfl))
  have hentered := hstored.tail (.quiet (quiet_pushHistory _ sample))
  unfold enterSample observeAlert
  split_ifs with hon
  · refine hentered.trans (.head (.alert hon (AlertStore.observes_metric display _ sample)) ?_)
    set applied := applyAlert clock ((observeMetricSample clock s sample).pushHistory sample) _
    cases hkey : applied.edgeDecorations.rows.lookup (edgeKey sample.endpoint sample.node) with
    | none => rw [updateEdgeAlertSeverity_of_none clock applied hkey]
    | some d =>
      rw [updateEdgeAlertSeverity_of_some clock applied hkey]
      exact .single (.severity hkey)
  · exact hentered

theorem changes_observeSignalItems {a : Action} (listener : Str) (kind : ItemKind) (count : ℕ) :
    Changes clock a s (observeSignalItems clock s listener kind count) := by
  refine .head (.quiet (t := { s with ticks := s.ticks + 1 }) ⟨rfl, rfl, rfl, rfl, rfl, rfl⟩)
    (.single (.stored fun hkeyed => ?_))
  cases hnode : s.nodes.lookup (edgeKey listener listener) with
  | none => rfl
  | some node => exact hkeyed _ node hnode

theorem changes_part {a : Action} {t : DashboardState σ} (h : Part clock display a s t) :
    Changes clock a s t := by
  cases h with
  | quiet hquiet => exact .single (.quiet hquiet)
  | counted => exact .single .counted
  | sample _ => exact changes_enterSample clock display _
  | items => exact changes_observeSignalItems clock _ _ _
  | received hon | listening _ hon => exact .single (.alert hon (s.alerts.observes_resolve _ _))
  | error hon | extensionError hon => exact .single (.alert hon (s.alerts.observes_fire rfl))
  | registered _ => exact .single (.stored fun _ => rfl)
  | removed _ => exact .single .forgotten
  | enabled _ => exact .single .enabled
  | disabled _ => exact .head (.dropped rfl) (changes_clearSeverities clock _)

theorem changes_invariant {I : DashboardState σ → Prop} {a : Action} {t : DashboardState σ}
    (hchange : ∀ t u, Change clock a t u → I t → I u) (h : Changes clock a s t) (hs : I s) :
    I t := by
  induction h with
  | refl => exact hs
  | tail _ hlast ih => exact hchange _ _ hlast ih

/-- What single changes keep, an action keeps. -/
theorem change_invariant {I : DashboardState σ → Prop} {a : Action}
    (hchange : ∀ t u, Change clock a t u → I t → I u) (hs : I s) : I (act clock display s a) :=
  act_invariant clock display (fun _ _ hpart =>
    changes_invariant clock hchange (changes_part clock display hpart)) hs

end Acting

end DashboardState

end SkidMonitor.Client
