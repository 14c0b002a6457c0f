import SkidMonitor.Client.Edge

/-! The state of the dashboard and everything that changes it, the same on the desktop and in the
browser. A clock is a list of readings; the state counts how many it has used. -/
namespace SkidMonitor.Client

def maxEvents : ℕ := 256
def maxMetrics : ℕ := 512
def maxHistoryPoints : ℕ := 180

structure SignalCounters where
  metrics : ℕ
  metricPoints : ℕ
  traces : ℕ
  spans : ℕ
  logs : ℕ
  logRecords : ℕ
  deriving DecidableEq

def SignalCounters.default : SignalCounters := ⟨0, 0, 0, 0, 0, 0⟩

structure EventRow where
  time : Str
  kind : Str
  message : Str
  deriving DecidableEq

inductive Status where
  | starting
  | listening (label : Str)
  | error (error : Str)
  deriving DecidableEq

structure OperationalSummary where
  agents : ℕ
  listeners : ℕ
  online : ℕ
  pending : ℕ
  warning : ℕ
  critical : ℕ
  storageEnabled : Bool
  deriving DecidableEq

structure AlertRecord where
  atUnixMs : ℤ
  transition : AlertTransition
  key : Str
  ruleId : Str
  severity : AlertSeverity
  status : AlertStatus
  endpoint : Str
  node : Str
  source : Str
  summary : Str
  detail : Str
  deriving DecidableEq

def AlertRecord.ofChange (now : Reading) (change : AlertChange) : AlertRecord where
  atUnixMs := now.unixMs
  transition := change.transition
  key := change.snapshot.key
  ruleId := change.snapshot.ruleId
  severity := change.snapshot.severity
  status := change.snapshot.status
  endpoint := change.snapshot.endpoint
  node := change.snapshot.node
  source := change.snapshot.source
  summary := change.snapshot.summary
  detail := change.snapshot.detail

inductive StorageCommand where
  | upsertEdge (edge : PersistedEdgeState)
  | deleteEdge (key : Str)
  | recordAlert (alert : AlertRecord)
  deriving DecidableEq

/-- A place the dashboard sends its changes to. -/
class StateStorage (σ : Type) where
  send : σ → StorageCommand → σ

def pushCapped {α : Type} (items : List α) (item : α) (max : ℕ) : List α :=
  (if items.length ≥ max then items.tail else items) ++ [item]

structure DashboardState (σ : Type) where
  status : Status
  listeningLabel : Option Str
  counters : SignalCounters
  events : List EventRow
  metrics : List MetricSample
  metricHistory : SortedMap Str (List F64)
  nodes : SortedMap Str NodeSummary
  edgeDecorations : EdgeSignalDecorations
  alerts : AlertStore
  alertsEnabled : Bool
  storage : Option σ
  listeners : List Str
  ticks : ℕ

def AlertSeverity.label : AlertSeverity → Str
  | .warning => "warning".toList
  | .critical => "critical".toList

def alertMessage (change : AlertChange) : Str :=
  let status := match change.snapshot.status with
    | .firing => "firing".toList
    | .resolved => "resolved".toList
  status ++ ' ' :: change.snapshot.severity.label ++ ' ' :: change.snapshot.summary ++
    " [".toList ++ change.snapshot.ruleId ++ "] from ".toList ++ change.snapshot.source ++
    '@' :: change.snapshot.endpoint ++ ": ".toList ++ change.snapshot.detail

def listenerStatusLabel (addrs : List Str) : Str :=
  match addrs with
  | [] => "receiver idle".toList
  | [_] => "receiver ready (1 listener)".toList
  | _ => "receiver ready (".toList ++ Numeral.print addrs.length ++ " listeners)".toList

def listenerEventMessage (addrs : List Str) : Str :=
  match addrs with
  | [] => "receiver has no active listeners".toList
  | [addr] => "receiver listening on ".toList ++ addr
  | _ => "receiver listening on ".toList ++ Numeral.print addrs.length ++
    " ingress addresses".toList

/-- Spans and log records are counted alike, each in its own field. -/
inductive ItemKind where
  | traces
  | logs
  deriving DecidableEq

def ItemKind.name : ItemKind → Str
  | .traces => "traces".toList
  | .logs => "logs".toList

/-- The number of records in all scopes of all resources. -/
def itemCount (groups : List (ResourceGroup Wire)) : ℕ :=
  ((groups.flatMap ResourceGroup.scopes).map fun scope => scope.records.length).sum

def NodeSummary.fresh (node endpoint source service : Str) (now : Reading) : NodeSummary :=
  ⟨node, endpoint, source, service, 0, 0, 0, [], [], now.instant⟩

def NodeSummary.observeSample (n : NodeSummary) (sample : MetricSample) (now : Reading) :
    NodeSummary :=
  { n with
    node := sample.node
    endpoint := sample.endpoint
    source := sample.source
    service := sample.service
    metricPoints := n.metricPoints + 1
    lastMetric := sample.name
    lastValue := sample.value
    lastSeen := now.instant }

def NodeSummary.observeItems (n : NodeSummary) (kind : ItemKind) (count : ℕ) (now : Reading) :
    NodeSummary :=
  { n with
    source := kind.name
    spans := if kind = .traces then n.spans + count else n.spans
    logRecords := if kind = .logs then n.logRecords + count else n.logRecords
    lastMetric := kind.name
    lastValue := Numeral.print count
    lastSeen := now.instant }

namespace DashboardState

variable {σ : Type} [StateStorage σ] (clock : ℕ → Reading) (display : Display)
  (s : DashboardState σ)

/-- `persist_edge`, `forget_edge` and `persist_alert`: nothing happens without a storage. -/
def send (command : StorageCommand) : DashboardState σ :=
  { s with storage := s.storage.map (StateStorage.send · command) }

def pushEvent (kind message : Str) : DashboardState σ :=
  { s with
    events := pushCapped s.events ⟨(clock s.ticks).time, kind, message⟩ maxEvents
    ticks := s.ticks + 1 }

def pushAlertChange : Option AlertChange → DashboardState σ
  | none => s
  | some change =>
    let kind := match change.transition with
      | .fired => "alert".toList
      | .resolved => "resolved".toList
    pushEvent clock { s.send (.recordAlert (.ofChange (clock s.ticks) change)) with
      ticks := s.ticks + 1 } kind (alertMessage change)

/-- The outcome of the alert store, and what it reports. -/
def applyAlert (outcome : AlertStore × Option AlertChange) : DashboardState σ :=
  pushAlertChange clock { s with alerts := outcome.1 } outcome.2

/-- The entry of a node and its decoration are written together. -/
def storeNode (key : Str) (entry : NodeSummary) (lastSignal : Str) : DashboardState σ :=
  let (edgeDecorations, edge) :=
    s.edgeDecorations.observeNode entry lastSignal (clock s.ticks)
  { s with
    nodes := s.nodes.insert key entry
    edgeDecorations
    ticks := s.ticks + 1 }.send (.upsertEdge edge)

def observeMetricSample (sample : MetricSample) : DashboardState σ :=
  let key := edgeKey sample.endpoint sample.node
  let now := clock s.ticks
  let entry := (s.nodes.lookup key).getD
    (.fresh sample.node sample.endpoint sample.source sample.service now)
  storeNode clock { s with ticks := s.ticks + 1 } key (entry.observeSample sample now)
    "metrics".toList

def observeSignalItems (listener : Str) (kind : ItemKind) (count : ℕ) : DashboardState σ :=
  let key := edgeKey listener listener
  let now := clock s.ticks
  let entry := (s.nodes.lookup key).getD
    (.fresh listener listener kind.name metricEmptyField now)
  storeNode clock { s with ticks := s.ticks + 1 } key (entry.observeItems kind count now) kind.name

def updateEdgeAlertSeverity (sample : MetricSample) : DashboardState σ :=
  let severity := s.alerts.highestForNode sample.endpoint sample.node
  match s.edgeDecorations.setNodeSeverity sample.endpoint sample.node severity (clock s.ticks) with
  | (_, none) => s
  | (edgeDecorations, some edge) =>
    { s with edgeDecorations, ticks := s.ticks + 1 }.send (.upsertEdge edge)

def pushHistory (sample : MetricSample) : DashboardState σ :=
  match sample.numeric with
  | none => s
  | some value =>
    { s with
      metricHistory := s.metricHistory.upsert sample.trendKey fun values =>
        pushCapped (values.getD []) value maxHistoryPoints }

def observeAlert (sample : MetricSample) : DashboardState σ :=
  if s.alertsEnabled then
    updateEdgeAlertSeverity clock
      (applyAlert clock s (s.alerts.observeMetric display sample)) sample
  else s

def ingestSample (sample : MetricSample) : DashboardState σ :=
  let s := observeAlert clock display ((observeMetricSample clock s sample).pushHistory sample) sample
  { s with metrics := pushCapped s.metrics sample maxMetrics }

def ingestSignal (listener : Str) : Signal → DashboardState σ
  | .metrics request =>
    let samples := metricSamples display request listener
    let s := { s with counters :=
      { s.counters with
        metrics := s.counters.metrics + 1
        metricPoints := s.counters.metricPoints + samples.length } }
    pushEvent clock (samples.foldl (ingestSample clock display) s) "metrics".toList
      ("received ".toList ++ Numeral.print samples.length ++ " metric points from ".toList ++
        Numeral.print request.length ++ " resources via ".toList ++ listener)
  | .traces request =>
    let count := itemCount request
    let s := { s with counters :=
      { s.counters with
        traces := s.counters.traces + 1
        spans := s.counters.spans + count } }
    pushEvent clock (observeSignalItems clock s listener .traces count) "traces".toList
      ("received ".toList ++ Numeral.print count ++ " spans via ".toList ++ listener)
  | .logs request =>
    let count := itemCount request
    let s := { s with counters :=
      { s.counters with
        logs := s.counters.logs + 1
        logRecords := s.counters.logRecords + count } }
    pushEvent clock (observeSignalItems clock s listener .logs count) "logs".toList
      ("received ".toList ++ Numeral.print count ++ " log records via ".toList ++ listener)

def observeRecovered (listener detail : Str) : DashboardState σ :=
  applyAlert clock s (s.alerts.observeReceiverRecovered listener detail)

def observeListening (addrs : List Str) : DashboardState σ :=
  let label := listenerStatusLabel addrs
  let s := pushEvent clock { s with
    listeners := addrs.dedup
    listeningLabel := some label
    status := .listening label } "receiver".toList (listenerEventMessage addrs)
  if s.alertsEnabled then
    addrs.foldl (fun s addr => observeRecovered clock s addr "receiver is listening".toList) s
  else s

def observeSignalMessage (listener : Str) (signal : Signal) : DashboardState σ :=
  let s := match s.listeningLabel with
    | some label => { s with status := .listening label }
    | none => s
  let s :=
    if s.alertsEnabled then
      observeRecovered clock s listener "receiver received a signal".toList
    else s
  ingestSignal clock display s listener signal

def observeReceiverError (listener : Option Str) (error : Str) : DashboardState σ :=
  let source := listener.getD "receiver".toList
  let s := pushEvent clock s "error".toList error
  let s :=
    if s.alertsEnabled then applyAlert clock s (s.alerts.observeReceiverError source error) else s
  if s.listeningLabel.isNone then { s with status := .error error } else s

def observeExtensionError (error : Str) : DashboardState σ :=
  let s := pushEvent clock s "extension".toList error
  if s.alertsEnabled then applyAlert clock s (s.alerts.observeExtensionError error) else s

def manualNode (endpoint node service : Str) (now : Reading) : NodeSummary :=
  { NodeSummary.fresh node endpoint "manual".toList service now with
    lastMetric := "registered".toList
    lastValue := "pending".toList }

def registerAgent (endpoint node service : Str) : DashboardState σ × Except Str Str :=
  let endpoint := Text.trim endpoint
  if endpoint.isEmpty then (s, .error "ingress is required".toList)
  else
    let node := if (Text.trim node).isEmpty then endpoint else Text.trim node
    let service :=
      if (Text.trim service).isEmpty then "skid-monitor-agent".toList else Text.trim service
    let key := edgeKey endpoint node
    if (s.nodes.lookup key).isSome then (s, .error (node ++ " is already registered".toList))
    else
      let summary := manualNode endpoint node service (clock s.ticks)
      let s := storeNode clock { s with ticks := s.ticks + 1 } key summary "manual".toList
      (pushEvent clock s "agent".toList
        ("registered observation agent ".toList ++ node ++ " via ".toList ++ endpoint), .ok key)

def removeAgent (key : Str) : DashboardState σ × Except Str Unit :=
  match s.nodes.lookup key with
  | none => (s, .error "agent not found".toList)
  | some node =>
    let s := { s with
      nodes := s.nodes.erase key
      edgeDecorations := s.edgeDecorations.remove key }.send (.deleteEdge key)
    (pushEvent clock s "agent".toList
      ("removed observation agent ".toList ++ node.node ++ " via ".toList ++ node.endpoint), .ok ())

/-- The severity of one row is cleared and persisted. -/
def clearSeverity (key : Str) : DashboardState σ :=
  match s.edgeDecorations.clearSeverity key (clock s.ticks) with
  | (_, none) => s
  | (edgeDecorations, some edge) =>
    { s with edgeDecorations, ticks := s.ticks + 1 }.send (.upsertEdge edge)

def setAlertsEnabled (enabled : Bool) : DashboardState σ :=
  if s.alertsEnabled = enabled then s
  else
    let s := { s with alertsEnabled := enabled }
    if enabled then pushEvent clock s "settings".toList "alerts enabled".toList
    else
      let s := { s with alerts := s.alerts.clear }
      let s := s.edgeDecorations.keys.foldl (clearSeverity clock) s
      pushEvent clock s "settings".toList "alerts disabled".toList

/-- The severity the summary goes by. -/
def nodeSeverity (node : NodeSummary) : Option AlertSeverity :=
  (s.edgeDecorations.get node.endpoint node.node).bind EdgeSignalDecoration.severity

def countNode (summary : OperationalSummary) (severity : Option AlertSeverity)
    (node : NodeSummary) : OperationalSummary :=
  match severity with
  | some .critical => { summary with critical := summary.critical + 1 }
  | some .warning => { summary with warning := summary.warning + 1 }
  | none =>
    if node.metricPoints + node.spans + node.logRecords = 0 then
      { summary with pending := summary.pending + 1 }
    else { summary with online := summary.online + 1 }

def operationalSummary : OperationalSummary :=
  s.nodes.values.foldl (fun summary node => countNode summary (s.nodeSeverity node) node)
    ⟨s.nodes.values.length, s.listeners.length, 0, 0, 0, 0, s.storage.isSome⟩

/-- The nodes and decorations made of what a storage had kept. -/
def restoreEdges (states : List PersistedEdgeState) : DashboardState σ :=
  let (edgeDecorations, nodes) :=
    EdgeSignalDecorations.empty.restore (fun i => clock (s.ticks + i)) states
  { s with
    edgeDecorations
    nodes := .ofList (nodes.map fun node => (edgeKey node.endpoint node.node, node))
    ticks := s.ticks + states.length }

def empty (storage : Option σ) (ticks : ℕ) : DashboardState σ where
  status := .starting
  listeningLabel := none
  counters := .default
  events := []
  metrics := []
  metricHistory := .empty
  nodes := .empty
  edgeDecorations := .empty
  alerts := .empty
  alertsEnabled := true
  storage
  listeners := []
  ticks

/-- `new`, once the storage has been opened, or not. -/
def new (storage : Option σ) (ticks : ℕ) (restored : List PersistedEdgeState)
    (message : Option Str) : DashboardState σ :=
  let s := restoreEdges clock (empty storage ticks) restored
  match message with
  | some message => pushEvent clock s "storage".toList message
  | none => s

end DashboardState

end SkidMonitor.Client
