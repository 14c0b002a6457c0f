import SkidMonitor.Client.Parts
import SkidMonitor.Client.Ingress
import SkidMonitor.Lib.Codec
import SkidMonitor.Lib.Run
import SkidMonitor.Lib.Uuid

/-! The dashboard in the browser: what it keeps in the local storage of its origin, under the keys
of the scope it is in, and what it makes of a new scope. -/
namespace SkidMonitor.Client

open Browser (BrowserStorageScope IngressMessage)

def edgesKey : Str := "skid-monitor.edge-state.v1".toList
def alertStateKey : Str := "skid-monitor.alert-state.v1".toList
def alertEventsKey : Str := "skid-monitor.alert-events.v1".toList
def maxEdgeStates : ℕ := 512
def maxAlertEvents : ℕ := 512

def browserStorageKey (base cloudApi : Str) (tenantId : TenantId) : Str :=
  base ++ ":cloud:".toList ++ cloudApi ++ ":tenant:".toList ++ Uuids.print tenantId.uuid

def storageKey (base : Str) : BrowserStorageScope → Option Str
  | .legacy => some base
  | .cloudPending => none
  | .cloud endpoint tenantId => some (browserStorageKey base endpoint tenantId)

def scopeLabel : BrowserStorageScope → Str
  | .legacy => "legacy browser ingress".toList
  | .cloudPending => "cloud authentication pending".toList
  | .cloud endpoint tenantId =>
    "cloud tenant ".toList ++ Uuids.print tenantId.uuid ++ " via ".toList ++ endpoint

/-- The texts the JSON library writes and reads. -/
structure Codecs where
  edges : Codec (List PersistedEdgeState)
  alertEvents : Codec (List AlertRecord)
  alertState : Codec (SortedMap Str AlertRecord)

section Framed

open Framed

def strText : Framed Str := list char

def severityText : Framed AlertSeverity := char.along
  (fun | .warning => 'w' | .critical => 'c')
  (fun c => some (if c = 'w' then .warning else .critical)) (by rintro (_ | _) <;> rfl)

/-- What may be missing is a list of at most one value. -/
def optionText {α : Type} (f : Framed α) : Framed (Option α) := (list f).along Option.toList
  (fun as => some as.head?) (by rintro (_ | a) <;> rfl)

def edgeText : Framed PersistedEdgeState :=
  (pair strText <| pair strText <| pair strText <| pair strText <| pair strText <| pair int <|
    pair int <| pair int <| pair strText <| pair strText <| pair strText <| pair int <|
    optionText severityText).along
  (fun e => (e.key, e.endpoint, e.node, e.source, e.service, e.metricPoints, e.spans,
    e.logRecords, e.lastSignal, e.lastMetric, e.lastValue, e.lastSeenUnixMs, e.severity))
  (fun (key, endpoint, node, source, service, metricPoints, spans, logRecords, lastSignal,
      lastMetric, lastValue, lastSeenUnixMs, severity) =>
    some ⟨key, endpoint, node, source, service, metricPoints, spans, logRecords, lastSignal,
      lastMetric, lastValue, lastSeenUnixMs, severity⟩) fun _ => rfl

def transitionText : Framed AlertTransition := char.along
  (fun | .fired => 'f' | .resolved => 'r')
  (fun c => some (if c = 'f' then .fired else .resolved)) (by rintro (_ | _) <;> rfl)

def statusText : Framed AlertStatus := char.along
  (fun | .firing => 'f' | .resolved => 'r')
  (fun c => some (if c = 'f' then .firing else .resolved)) (by rintro (_ | _) <;> rfl)

def alertText : Framed AlertRecord :=
  (pair int <| pair transitionText <| pair strText <| pair strText <| pair severityText <|
    pair statusText <| pair strText <| pair strText <| pair strText <| pair strText strText).along
  (fun a => (a.atUnixMs, a.transition, a.key, a.ruleId, a.severity, a.status, a.endpoint, a.node,
    a.source, a.summary, a.detail))
  (fun (atUnixMs, transition, key, ruleId, severity, status, endpoint, node, source, summary,
      detail) =>
    some ⟨atUnixMs, transition, key, ruleId, severity, status, endpoint, node, source, summary,
      detail⟩) fun _ => rfl

/-- Texts in which every part says where it ends. -/
def framedCodecs : Codecs where
  edges := (list edgeText).codec
  alertEvents := (list alertText).codec
  alertState := ((list (pair strText alertText)).along SortedMap.entries
    (fun es => if h : es.Pairwise (·.1 < ·.1) then some ⟨es, h⟩ else none)
    fun m => dif_pos m.sorted).codec

end Framed

/-- The local storage behind a page. The browser may refuse a write; `accepts` says which ones. -/
structure BrowserStorage (json : Codecs) (accepts : ℕ → Bool) where
  items : Str → Option Str
  scope : BrowserStorageScope
  writes : ℕ

section Items

variable {α : Type} (codec : Codec α)

/-- What is stored under a key: nothing, a value, or a text that is not one. -/
def readJson (items : Str → Option Str) (key : Str) : Except Unit (Option α) :=
  match items key with
  | none => .ok none
  | some text =>
    match codec.decode text with
    | some value => .ok (some value)
    | none => .error ()

variable {json : Codecs} {accepts : ℕ → Bool} (s : BrowserStorage json accepts)

/-- The storage after a write, and whether it was accepted. -/
def writeJson (key : Str) (value : α) : BrowserStorage json accepts × Bool :=
  if accepts s.writes then
    ({ s with
      items := Function.update s.items key (some (codec.encode value))
      writes := s.writes + 1 }, true)
  else ({ s with writes := s.writes + 1 }, false)

end Items

/-- The first edge of the same key is replaced; a new one comes last. -/
def replaceEdge (edge : PersistedEdgeState) : List PersistedEdgeState → List PersistedEdgeState
  | [] => [edge]
  | e :: es => if e.key = edge.key then edge :: es else e :: replaceEdge edge es

/-- Newest first, those of the same time in their order. -/
def newestFirst (edges : List PersistedEdgeState) : List PersistedEdgeState :=
  edges.insertionSort fun a b => b.lastSeenUnixMs ≤ a.lastSeenUnixMs

namespace BrowserStorage

variable {json : Codecs} {accepts : ℕ → Bool} (s : BrowserStorage json accepts)

/-- Replaces the edges of the scope; an unreadable text stays. -/
def modifyEdges (f : List PersistedEdgeState → List PersistedEdgeState) :
    BrowserStorage json accepts :=
  match storageKey edgesKey s.scope with
  | none => s
  | some key =>
    match readJson json.edges s.items key with
    | .error _ => s
    | .ok edges => (writeJson json.edges s key (f (edges.getD []))).1

def persistEdge (edge : PersistedEdgeState) : BrowserStorage json accepts :=
  s.modifyEdges fun edges => (newestFirst (replaceEdge edge edges)).take maxEdgeStates

def deleteEdge (key : Str) : BrowserStorage json accepts :=
  s.modifyEdges fun edges => edges.filter (·.key ≠ key)

def persistAlertState (alert : AlertRecord) (key : Str) : BrowserStorage json accepts :=
  match readJson json.alertState s.items key with
  | .error _ => s
  | .ok active =>
    let active := active.getD .empty
    (writeJson json.alertState s key (match alert.status with
      | .firing => active.insert alert.key alert
      | .resolved => active.erase alert.key)).1

/-- The state of the alert is only written once its event has been. -/
def persistAlert (alert : AlertRecord) : BrowserStorage json accepts :=
  match storageKey alertEventsKey s.scope, storageKey alertStateKey s.scope with
  | some eventsKey, some stateKey =>
    match readJson json.alertEvents s.items eventsKey with
    | .error _ => s
    | .ok events =>
      let events := events.getD [] ++ [alert]
      match writeJson json.alertEvents s eventsKey
        (events.drop (events.length - maxAlertEvents)) with
      | (s, true) => s.persistAlertState alert stateKey
      | (s, false) => s
  | _, _ => s

instance : StateStorage (BrowserStorage json accepts) where
  send s
    | .upsertEdge edge => s.persistEdge edge
    | .deleteEdge key => s.deleteEdge key
    | .recordAlert alert => s.persistAlert alert

end BrowserStorage

/-- The edges kept under the key of a scope; those that cannot be read are ignored. -/
def restoreScope (json : Codecs) (items : Str → Option Str) (scope : BrowserStorageScope) :
    List PersistedEdgeState :=
  match storageKey edgesKey scope with
  | none => []
  | some key =>
    match readJson json.edges items key with
    | .error _ => []
    | .ok edges => edges.getD []

/-- The dashboard of a page, and the scope it is in. -/
structure BrowserState (json : Codecs) (accepts : ℕ → Bool) where
  dashboard : DashboardState (BrowserStorage json accepts)
  browserStorageScope : BrowserStorageScope

/-- What the user of a page and its ingress do. A warning of a restore speaks of the avatar
profile as well, so its text comes from outside. -/
inductive BrowserAction where
  | act (action : Action)
  | scope (scope : BrowserStorageScope) (warning : Option Str)

namespace BrowserState

variable {json : Codecs} {accepts : ℕ → Bool} (clock : ℕ → Reading) (display : Display)

open DashboardState

/-- The whole view goes when the scope changes. -/
def clearView (d : DashboardState (BrowserStorage json accepts)) :
    DashboardState (BrowserStorage json accepts) :=
  { d with
    counters := .default
    events := []
    metrics := []
    metricHistory := .empty
    nodes := .empty
    edgeDecorations := .empty
    alerts := .empty
    status := (d.listeningLabel.map Status.listening).getD .starting }

def observeBrowserStorageScope (s : BrowserState json accepts) (scope : BrowserStorageScope)
    (warning : Option Str) : BrowserState json accepts :=
  if s.browserStorageScope = scope then s
  else
    let cleared := clearView s.dashboard
    let changed := "browser state scope changed to ".toList ++ scopeLabel scope
    match s.dashboard.storage with
    | some storage =>
      let restored := pushEvent clock
        (restoreEdges clock { cleared with storage := some { storage with scope } }
          (restoreScope json storage.items scope)) "storage".toList changed
      ⟨match warning with
        | some warning => pushEvent clock restored "storage".toList warning
        | none => restored, scope⟩
    | none =>
      ⟨pushEvent clock cleared "error".toList (changed ++
        ", but restore failed: browser state storage is unavailable".toList), scope⟩

def step (s : BrowserState json accepts) : BrowserAction → BrowserState json accepts
  | .act action => { s with dashboard := s.dashboard.act clock display action }
  | .scope scope warning => observeBrowserStorageScope clock s scope warning

/-- A message of the ingress, as `drain_ingress` handles it. -/
def ofMessage (warning : Option Str) : IngressMessage → BrowserAction
  | .listening endpoints => .act (.listening endpoints)
  | .signal listener signal => .act (.signal listener signal)
  | .error listener error => .act (.error listener error)
  | .browserStorageScope scope => .scope scope warning

/-- A page is opened, with the local storage or without. -/
def new (scope : BrowserStorageScope) (ticks : ℕ) (storage : Option (BrowserStorage json accepts))
    (message : Str) : BrowserState json accepts where
  dashboard := match storage with
    | some storage =>
      .new clock (some { storage with scope }) ticks (restoreScope json storage.items scope)
        (some message)
    | none => .new clock none ticks [] (some message)
  browserStorageScope := scope

end BrowserState

/-- An address that names a client API waits for its tenant. -/
def initialScope (hasCloudStartup : Bool) : BrowserStorageScope :=
  if hasCloudStartup then .cloudPending else .legacy

/-- The pages of one origin share its local storage. -/
structure Origin (json : Codecs) (accepts : ℕ → Bool) where
  items : Str → Option Str
  writes : ℕ
  pages : ℕ → Option (BrowserState json accepts)

/-- A page may be opened again; other keys may be written by anyone. -/
inductive OriginEvent where
  | opened (page : ℕ) (hasCloudStartup available : Bool) (ticks : ℕ) (message : Str)
  | acted (page : ℕ) (action : BrowserAction)
  | elsewhere (key : Str) (text : Option Str)

namespace Origin

variable {json : Codecs} {accepts : ℕ → Bool} (clock : ℕ → Reading) (display : Display)

/-- The storage as a page finds it. -/
def shared (w : Origin json accepts) (page : BrowserState json accepts) :
    BrowserState json accepts :=
  { page with
    dashboard := { page.dashboard with
      storage := page.dashboard.storage.map fun storage =>
        { storage with items := w.items, writes := w.writes } } }

/-- The storage as a page leaves it. -/
def leave (w : Origin json accepts) (i : ℕ) (page : BrowserState json accepts) :
    Origin json accepts :=
  let pages := Function.update w.pages i (some page)
  match page.dashboard.storage with
  | some storage => ⟨storage.items, storage.writes, pages⟩
  | none => { w with pages }

def step (w : Origin json accepts) : OriginEvent → Option (Origin json accepts)
  | .opened i hasCloudStartup available ticks message =>
    let storage := if available then some ⟨w.items, .legacy, w.writes⟩ else none
    some (w.leave i (.new clock (initialScope hasCloudStartup) ticks storage message))
  | .acted i action => (w.pages i).map fun page =>
    w.leave i ((w.shared page).step clock display action)
  | .elsewhere key text =>
    if edgesKey <+: key then none else some { w with items := Function.update w.items key text }

/-- Nothing has been opened, and no edges are stored. -/
def Initial (w : Origin json accepts) : Prop :=
  (∀ i, w.pages i = none) ∧ ∀ key, edgesKey <+: key → w.items key = none

abbrev Reachable : Origin json accepts → Prop := Runs.Reachable (step clock display) Initial

end Origin

end SkidMonitor.Client
