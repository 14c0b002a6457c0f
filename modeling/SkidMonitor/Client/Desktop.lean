import SkidMonitor.Client.Parts
import SkidMonitor.Lib.Run

/-! The dashboard on the desktop: the state database, the channel to the worker that writes it,
and restarts. -/
namespace SkidMonitor.Client

def severityName : AlertSeverity → Str
  | .warning => "warning".toList
  | .critical => "critical".toList

def severityFromName (name : Str) : Option AlertSeverity :=
  if name = "warning".toList then some .warning
  else if name = "critical".toList then some .critical
  else none

/-- A row of `edge_state`, with the severity by its name. -/
abbrev EdgeRow := EdgeColumns (Option Str)

/-- A row of `alert_state`. -/
structure AlertStateRow where
  ruleId : Str
  severity : AlertSeverity
  status : AlertStatus
  endpoint : Str
  node : Str
  source : Str
  summary : Str
  detail : Str
  updatedAtUnixMs : ℤ
  deriving DecidableEq

def AlertStateRow.ofRecord (alert : AlertRecord) : AlertStateRow :=
  ⟨alert.ruleId, alert.severity, alert.status, alert.endpoint, alert.node, alert.source,
    alert.summary, alert.detail, alert.atUnixMs⟩

structure StateDb where
  edgeState : SortedMap Str EdgeRow
  alertState : SortedMap Str AlertStateRow
  alertEvents : List AlertRecord
  deriving DecidableEq

def PersistedEdgeState.toRow (edge : PersistedEdgeState) : EdgeRow :=
  edge.withSeverity (edge.severity.map severityName)

def EdgeRow.toState (row : EdgeRow) : PersistedEdgeState :=
  row.withSeverity (row.severity.bind severityFromName)

def maxRestoredEdges : ℕ := 512

namespace StateDb

def empty : StateDb := ⟨.empty, .empty, []⟩

def upsertEdgeState (db : StateDb) (edge : PersistedEdgeState) : StateDb :=
  { db with edgeState := db.edgeState.insert edge.key edge.toRow }

def deleteEdgeState (db : StateDb) (key : Str) : StateDb :=
  { db with edgeState := db.edgeState.erase key }

def insertAlertEvent (db : StateDb) (alert : AlertRecord) : StateDb :=
  { db with alertEvents := db.alertEvents ++ [alert] }

def updateAlertState (db : StateDb) (alert : AlertRecord) : StateDb :=
  { db with
    alertState := match alert.status with
      | .firing => db.alertState.insert alert.key (.ofRecord alert)
      | .resolved => db.alertState.erase alert.key }

def recordAlert (db : StateDb) (alert : AlertRecord) : StateDb :=
  (db.insertAlertEvent alert).updateAlertState alert

def handleTelemetry (db : StateDb) : StorageCommand → StateDb
  | .upsertEdge edge => db.upsertEdgeState edge
  | .deleteEdge key => db.deleteEdgeState key
  | .recordAlert alert => db.recordAlert alert

/-- The order in which the rows come back, newest first; among equals it is not determined. -/
def Ordered (db : StateDb) (rows : List EdgeRow) : Prop :=
  rows.Perm db.edgeState.values ∧ rows.Pairwise fun a b => b.lastSeenUnixMs ≤ a.lastSeenUnixMs

instance (db : StateDb) (rows : List EdgeRow) : Decidable (db.Ordered rows) :=
  inferInstanceAs (Decidable (_ ∧ _))

def loadEdgeStates (rows : List EdgeRow) : List PersistedEdgeState :=
  (rows.take maxRestoredEdges).map EdgeRow.toState

end StateDb

/-- The channel to the worker holds what it has not handled yet. -/
instance : StateStorage (List StorageCommand) where
  send queue command := queue ++ [command]

/-- How a write of the worker ends; an alert is written by two statements. -/
inductive WriteOutcome where
  | written
  | refused
  | onlyEvent
  deriving DecidableEq

def StateDb.attempt (db : StateDb) (command : StorageCommand) : WriteOutcome → StateDb
  | .written => db.handleTelemetry command
  | .refused => db
  | .onlyEvent => match command with
    | .recordAlert alert => db.insertAlertEvent alert
    | _ => db

abbrev NativeState := DashboardState (List StorageCommand)

structure Desktop where
  db : StateDb
  dashboard : NativeState

/-- The program starts on a database: with the rows it finds there, or without a storage. -/
inductive Start where
  | ready (rows : List EdgeRow) (message : Str)
  | disabled (message : Str)

inductive DesktopEvent where
  | act (action : Action)
  | handle (outcome : WriteOutcome)
  | restart (start : Start)

namespace Desktop

variable (clock : ℕ → Reading) (display : Display)

def started (db : StateDb) (ticks : ℕ) : Start → Option Desktop
  | .ready rows message =>
    if db.Ordered rows then
      some ⟨db, .new clock (some []) ticks (StateDb.loadEdgeStates rows) (some message)⟩
    else none
  | .disabled message => some ⟨db, .new clock none ticks [] (some message)⟩

/-- A restart drops what the worker has not handled: it may come before the channel is empty. -/
def step (d : Desktop) : DesktopEvent → Option Desktop
  | .act action => some { d with dashboard := d.dashboard.act clock display action }
  | .handle outcome => match d.dashboard.storage with
    | some (command :: queue) =>
      some ⟨d.db.attempt command outcome, { d.dashboard with storage := some queue }⟩
    | _ => none
  | .restart start => started clock d.db d.dashboard.ticks start

abbrev run : Desktop → List DesktopEvent → Option Desktop := Runs.run (step clock display)

/-- The first start, on an empty database. -/
def Initial (d : Desktop) : Prop := ∃ start, started clock .empty 0 start = some d

abbrev Reachable : Desktop → Prop := Runs.Reachable (step clock display) (Initial clock)

variable {clock display} {d d' : Desktop}

theorem started_ready {db : StateDb} {ticks : ℕ} {rows : List EdgeRow} {message : Str}
    (h : started clock db ticks (.ready rows message) = some d) : db.Ordered rows ∧
      d = ⟨db, .new clock (some []) ticks (StateDb.loadEdgeStates rows) (some message)⟩ := by
  obtain ⟨hordered, hd⟩ := Option.ite_none_right_eq_some.mp h
  exact ⟨hordered, (Option.some.inj hd).symm⟩

/-- The worker takes the oldest command. -/
theorem step_handle {outcome : WriteOutcome} (h : step clock display d (.handle outcome) = some d') :
    ∃ command queue, d.dashboard.storage = some (command :: queue) ∧
      d' = ⟨d.db.attempt command outcome, { d.dashboard with storage := some queue }⟩ := by
  simp only [step] at h
  split at h
  · rename_i command queue hstorage
    exact ⟨command, queue, hstorage, (Option.some.inj h).symm⟩
  · cases h

end Desktop

/-- The program on an empty database. -/
def freshDesktop : Desktop := ⟨.empty, .new stoppedClock (some []) 0 [] (some [])⟩

end SkidMonitor.Client
