import SkidMonitor.Client.Alert

/-! The nodes the dashboard has seen, and the decorations it keeps of them across restarts. -/
namespace SkidMonitor.Client

/-- What the clocks show at one reading: the monotonic clock, and the time of day as a number
and as a text. -/
structure Reading where
  instant : ℕ
  unixMs : ℤ
  time : Str
  deriving DecidableEq

/-- A clock that stands still. -/
def stoppedClock : ℕ → Reading := fun _ => ⟨0, 0, []⟩

structure NodeSummary where
  node : Str
  endpoint : Str
  source : Str
  service : Str
  metricPoints : ℕ
  spans : ℕ
  logRecords : ℕ
  lastMetric : Str
  lastValue : Str
  lastSeen : ℕ
  deriving DecidableEq

/-- The columns of a persisted edge, with the severity as it is kept there. -/
structure EdgeColumns (ς : Type) where
  key : Str
  endpoint : Str
  node : Str
  source : Str
  service : Str
  metricPoints : ℤ
  spans : ℤ
  logRecords : ℤ
  lastSignal : Str
  lastMetric : Str
  lastValue : Str
  lastSeenUnixMs : ℤ
  severity : ς
  deriving DecidableEq

abbrev PersistedEdgeState := EdgeColumns (Option AlertSeverity)

def EdgeColumns.withSeverity {ς τ : Type} (e : EdgeColumns ς) (severity : τ) : EdgeColumns τ :=
  ⟨e.key, e.endpoint, e.node, e.source, e.service, e.metricPoints, e.spans, e.logRecords,
    e.lastSignal, e.lastMetric, e.lastValue, e.lastSeenUnixMs, severity⟩

structure EdgeSignalDecoration where
  key : Str
  endpoint : Str
  node : Str
  source : Str
  service : Str
  metricPoints : ℕ
  spans : ℕ
  logRecords : ℕ
  lastSignal : Str
  lastMetric : Str
  lastValue : Str
  lastSeen : ℕ
  lastSeenUnixMs : ℤ
  severity : Option AlertSeverity
  deriving DecidableEq

def edgeKey (endpoint node : Str) : Str := endpoint ++ '|' :: node

/-- `as i64` of a 64-bit count. -/
@[irreducible] def asI64 (n : ℕ) : ℤ := (n : ℤ).bmod (2 ^ 64)

/-- The instant at which the time of day was `unixMs`, or the present one if that is unknown. -/
def instantFromUnixMillis (now : Reading) (unixMs : ℤ) : ℕ :=
  let age := (now.unixMs - unixMs).toNat
  if age ≤ now.instant then now.instant - age else now.instant

namespace EdgeSignalDecoration

def fromPersisted (now : Reading) (state : PersistedEdgeState) : EdgeSignalDecoration where
  key := state.key
  endpoint := state.endpoint
  node := state.node
  source := state.source
  service := state.service
  metricPoints := state.metricPoints.toNat
  spans := state.spans.toNat
  logRecords := state.logRecords.toNat
  lastSignal := state.lastSignal
  lastMetric := state.lastMetric
  lastValue := state.lastValue
  lastSeen := instantFromUnixMillis now state.lastSeenUnixMs
  lastSeenUnixMs := state.lastSeenUnixMs
  severity := state.severity

def toPersisted (d : EdgeSignalDecoration) : PersistedEdgeState where
  key := d.key
  endpoint := d.endpoint
  node := d.node
  source := d.source
  service := d.service
  metricPoints := asI64 d.metricPoints
  spans := asI64 d.spans
  logRecords := asI64 d.logRecords
  lastSignal := d.lastSignal
  lastMetric := d.lastMetric
  lastValue := d.lastValue
  lastSeenUnixMs := d.lastSeenUnixMs
  severity := d.severity

def toNodeSummary (d : EdgeSignalDecoration) : NodeSummary where
  node := d.node
  endpoint := d.endpoint
  source := d.source
  service := d.service
  metricPoints := d.metricPoints
  spans := d.spans
  logRecords := d.logRecords
  lastMetric := d.lastMetric
  lastValue := d.lastValue
  lastSeen := d.lastSeen

/-- A decoration of a node that has none yet. -/
def fresh (key : Str) (node : NodeSummary) (now : Reading) : EdgeSignalDecoration where
  key
  endpoint := node.endpoint
  node := node.node
  source := node.source
  service := node.service
  metricPoints := 0
  spans := 0
  logRecords := 0
  lastSignal := []
  lastMetric := []
  lastValue := []
  lastSeen := now.instant
  lastSeenUnixMs := now.unixMs
  severity := none

/-- The decoration takes over what the node has, and keeps its key and severity. -/
def observe (d : EdgeSignalDecoration) (node : NodeSummary) (lastSignal : Str) (now : Reading) :
    EdgeSignalDecoration where
  key := d.key
  endpoint := node.endpoint
  node := node.node
  source := node.source
  service := node.service
  metricPoints := node.metricPoints
  spans := node.spans
  logRecords := node.logRecords
  lastSignal
  lastMetric := node.lastMetric
  lastValue := node.lastValue
  lastSeen := node.lastSeen
  lastSeenUnixMs := now.unixMs
  severity := d.severity

/-- A new severity counts as a sign of life. -/
def setSeverity (d : EdgeSignalDecoration) (severity : Option AlertSeverity) (now : Reading) :
    EdgeSignalDecoration :=
  { d with severity, lastSeenUnixMs := now.unixMs }

end EdgeSignalDecoration

structure EdgeSignalDecorations where
  rows : SortedMap Str EdgeSignalDecoration

namespace EdgeSignalDecorations

def empty : EdgeSignalDecorations := ⟨.empty⟩

def get (e : EdgeSignalDecorations) (endpoint node : Str) : Option EdgeSignalDecoration :=
  e.rows.lookup (edgeKey endpoint node)

def observeNode (e : EdgeSignalDecorations) (node : NodeSummary) (lastSignal : Str)
    (now : Reading) : EdgeSignalDecorations × PersistedEdgeState :=
  let key := edgeKey node.endpoint node.node
  let old := (e.rows.lookup key).getD (.fresh key node now)
  let decoration := old.observe node lastSignal now
  (⟨e.rows.insert key decoration⟩, decoration.toPersisted)

def setNodeSeverity (e : EdgeSignalDecorations) (endpoint node : Str)
    (severity : Option AlertSeverity) (now : Reading) :
    EdgeSignalDecorations × Option PersistedEdgeState :=
  let key := edgeKey endpoint node
  match e.rows.lookup key with
  | none => (e, none)
  | some d =>
    let decoration := d.setSeverity severity now
    (⟨e.rows.insert key decoration⟩, some decoration.toPersisted)

def remove (e : EdgeSignalDecorations) (key : Str) : EdgeSignalDecorations := ⟨e.rows.erase key⟩

/-- The severity of one row is cleared, if it has one. -/
def clearSeverity (e : EdgeSignalDecorations) (key : Str) (now : Reading) :
    EdgeSignalDecorations × Option PersistedEdgeState :=
  match e.rows.lookup key with
  | none => (e, none)
  | some d =>
    if d.severity.isSome then
      let decoration := d.setSeverity none now
      (⟨e.rows.insert key decoration⟩, some decoration.toPersisted)
    else (e, none)

def keys (e : EdgeSignalDecorations) : List Str := e.rows.entries.map Prod.fst

/-- The states are entered in their order; the clock is read for each of them. -/
def restore (e : EdgeSignalDecorations) (now : ℕ → Reading) :
    List PersistedEdgeState → EdgeSignalDecorations × List NodeSummary
  | [] => (e, [])
  | state :: states =>
    let decoration := EdgeSignalDecoration.fromPersisted (now 0) state
    let (e, nodes) := restore ⟨e.rows.insert decoration.key decoration⟩ (fun i => now (i + 1)) states
    (e, decoration.toNodeSummary :: nodes)

end EdgeSignalDecorations

end SkidMonitor.Client
