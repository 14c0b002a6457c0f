import SkidMonitor.Client.Desktop
import SkidMonitor.Client.LocalStorage
import SkidMonitor.Client.Queue

/-! What a page shows comes from the scope it is in: every signal is queued behind the scope it
belongs to, and a dashboard that enters a scope keeps nothing of what it has seen before. -/
namespace SkidMonitor.Client

open List

open Browser (BrowserStorageScope IngressMessage Page PageEvent Received latestScope)

/-- The part of a dashboard that is derived from signals. -/
structure View where
  counters : SignalCounters
  metrics : List MetricSample
  metricHistory : SortedMap Str (List F64)
  nodes : SortedMap Str NodeSummary
  edgeDecorations : EdgeSignalDecorations
  alerts : AlertStore

namespace DashboardState

variable {σ σ' : Type} {clock clock' : ℕ → Reading} {display : Display}
  {s : DashboardState σ} {t : DashboardState σ'}

def view (s : DashboardState σ) : View :=
  ⟨s.counters, s.metrics, s.metricHistory, s.nodes, s.edgeDecorations, s.alerts⟩

/-- Two dashboards that show the same and go on with the same readings of their clocks. -/
structure Alike (clock clock' : ℕ → Reading) (s : DashboardState σ) (t : DashboardState σ') :
    Prop where
  counters : s.counters = t.counters
  metrics : s.metrics = t.metrics
  metricHistory : s.metricHistory = t.metricHistory
  nodes : s.nodes = t.nodes
  edgeDecorations : s.edgeDecorations = t.edgeDecorations
  alerts : s.alerts = t.alerts
  alertsEnabled : s.alertsEnabled = t.alertsEnabled
  readings : ∀ k, clock (s.ticks + k) = clock' (t.ticks + k)

theorem Alike.view (h : Alike clock clock' s t) : s.view = t.view := by
  simp only [DashboardState.view, h.counters, h.metrics, h.metricHistory, h.nodes,
    h.edgeDecorations, h.alerts]

theorem Alike.now (h : Alike clock clock' s t) : clock s.ticks = clock' t.ticks := h.readings 0

theorem Alike.later (h : Alike clock clock' s t) (n k : ℕ) :
    clock (s.ticks + n + k) = clock' (t.ticks + n + k) := by
  rw [Nat.add_assoc, Nat.add_assoc]
  exact h.readings (n + k)

theorem Alike.tick (h : Alike clock clock' s t) (n : ℕ) :
    Alike clock clock' { s with ticks := s.ticks + n } { t with ticks := t.ticks + n } :=
  { h with readings := h.later n }

theorem Alike.pushEvent (h : Alike clock clock' s t) (kind kind' message message' : Str) :
    Alike clock clock' (s.pushEvent clock kind message) (t.pushEvent clock' kind' message') :=
  { h with readings := h.later 1 }

theorem Alike.pushHistory (h : Alike clock clock' s t) (m : MetricSample) :
    Alike clock clock' (s.pushHistory m) (t.pushHistory m) := by
  unfold DashboardState.pushHistory
  cases m.numeric with
  | none => exact h
  | some value => exact { h with metricHistory := by rw [h.metricHistory] }

variable [StateStorage σ] [StateStorage σ']

theorem Alike.applyAlert (h : Alike clock clock' s t) (outcome : AlertStore × Option AlertChange) :
    Alike clock clock' (s.applyAlert clock outcome) (t.applyAlert clock' outcome) := by
  unfold DashboardState.applyAlert pushAlertChange
  cases outcome.2 with
  | none => exact { h with alerts := rfl }
  | some change => exact { h with alerts := rfl, readings := h.later 2 }

theorem Alike.storeNode (h : Alike clock clock' s t) (key : Str) {entry entry' : NodeSummary}
    (hentry : entry = entry') (lastSignal : Str) :
    Alike clock clock' (s.storeNode clock key entry lastSignal)
      (t.storeNode clock' key entry' lastSignal) := by
  subst hentry
  have hdecorations : (s.edgeDecorations.observeNode entry lastSignal (clock s.ticks)).1 =
      (t.edgeDecorations.observeNode entry lastSignal (clock' t.ticks)).1 := by
    rw [h.edgeDecorations, h.now]
  exact { h with
    nodes := congrArg (SortedMap.insert · key entry) h.nodes
    edgeDecorations := hdecorations
    readings := h.later 1 }

theorem Alike.observeMetricSample (h : Alike clock clock' s t) (m : MetricSample) :
    Alike clock clock' (s.observeMetricSample clock m) (t.observeMetricSample clock' m) :=
  (h.tick 1).storeNode _ (by rw [h.now, h.nodes]) _

theorem Alike.observeSignalItems (h : Alike clock clock' s t) (listener : Str) (kind : ItemKind)
    (count : ℕ) : Alike clock clock' (s.observeSignalItems clock listener kind count)
      (t.observeSignalItems clock' listener kind count) :=
  (h.tick 1).storeNode _ (by rw [h.now, h.nodes]) _

theorem Alike.putSeverity (h : Alike clock clock' s t) (key : Str) (d : EdgeSignalDecoration)
    (severity : Option AlertSeverity) : Alike clock clock' (s.putSeverity clock key d severity)
      (t.putSeverity clock' key d severity) := by
  have hdecorations : (⟨s.edgeDecorations.rows.insert key (d.setSeverity severity (clock s.ticks))⟩ :
      EdgeSignalDecorations) =
      ⟨t.edgeDecorations.rows.insert key (d.setSeverity severity (clock' t.ticks))⟩ := by
    rw [h.edgeDecorations, h.now]
  exact { h with edgeDecorations := hdecorations, readings := h.later 1 }

theorem Alike.updateEdgeAlertSeverity (h : Alike clock clock' s t) (m : MetricSample) :
    Alike clock clock' (s.updateEdgeAlertSeverity clock m)
      (t.updateEdgeAlertSeverity clock' m) := by
  cases hkey : t.edgeDecorations.rows.lookup (edgeKey m.endpoint m.node) with
  | none =>
    rw [updateEdgeAlertSeverity_of_none clock' t hkey,
      updateEdgeAlertSeverity_of_none clock s (by rw [h.edgeDecorations, hkey])]
    exact h
  | some d =>
    rw [updateEdgeAlertSeverity_of_some clock' t hkey,
      updateEdgeAlertSeverity_of_some clock s (by rw [h.edgeDecorations, hkey]), h.alerts]
    exact h.putSeverity _ d _

theorem Alike.observeAlert (h : Alike clock clock' s t) (display : Display) (m : MetricSample) :
    Alike clock clock' (s.observeAlert clock display m) (t.observeAlert clock' display m) := by
  unfold DashboardState.observeAlert
  rw [h.alertsEnabled, h.alerts]
  split_ifs
  · exact (h.applyAlert _).updateEdgeAlertSeverity m
  · exact h

theorem Alike.ingestSample (h : Alike clock clock' s t) (m : MetricSample) :
    Alike clock clock' (s.ingestSample clock display m) (t.ingestSample clock' display m) := by
  have hentered := ((h.observeMetricSample m).pushHistory m).observeAlert display m
  exact { hentered with metrics := by rw [DashboardState.ingestSample, hentered.metrics]; rfl }

theorem Alike.ingestSamples (samples : List MetricSample) {s : DashboardState σ}
    {t : DashboardState σ'} (h : Alike clock clock' s t) :
    Alike clock clock' (samples.foldl (DashboardState.ingestSample clock display) s)
      (samples.foldl (DashboardState.ingestSample clock' display) t) := by
  induction samples generalizing s t with
  | nil => exact h
  | cons m samples ih => exact ih (h.ingestSample m)

theorem Alike.ingestSignal (h : Alike clock clock' s t) (listener : Str) (signal : Signal) :
    Alike clock clock' (s.ingestSignal clock display listener signal)
      (t.ingestSignal clock' display listener signal) := by
  unfold DashboardState.ingestSignal
  cases signal with
  | metrics request =>
    refine (Alike.ingestSamples _ ?_).pushEvent _ _ _ _
    exact { h with counters := by rw [h.counters] }
  | traces | logs =>
    refine (Alike.observeSignalItems ?_ _ _ _).pushEvent _ _ _ _
    exact { h with counters := by rw [h.counters] }

theorem Alike.observeRecovered (h : Alike clock clock' s t) (listener detail : Str) :
    Alike clock clock' (s.observeRecovered clock listener detail)
      (t.observeRecovered clock' listener detail) := by
  unfold DashboardState.observeRecovered
  rw [h.alerts]
  exact h.applyAlert _

theorem Alike.recovered (h : Alike clock clock' s t) (listener detail : Str) :
    Alike clock clock' (if s.alertsEnabled then s.observeRecovered clock listener detail else s)
      (if t.alertsEnabled then t.observeRecovered clock' listener detail else t) := by
  rw [h.alertsEnabled]
  split_ifs
  · exact h.observeRecovered listener detail
  · exact h

theorem Alike.observeSignalMessage (h : Alike clock clock' s t) (listener : Str) (signal : Signal) :
    Alike clock clock' (s.observeSignalMessage clock display listener signal)
      (t.observeSignalMessage clock' display listener signal) := by
  unfold DashboardState.observeSignalMessage
  refine Alike.ingestSignal (Alike.recovered ?_ listener _) listener signal
  cases s.listeningLabel <;> cases t.listeningLabel <;> exact { h with }

theorem Alike.recoverAll (addrs : List Str) (detail : Str) {s : DashboardState σ}
    {t : DashboardState σ'} (h : Alike clock clock' s t) :
    Alike clock clock' (addrs.foldl (fun s addr => s.observeRecovered clock addr detail) s)
      (addrs.foldl (fun t addr => t.observeRecovered clock' addr detail) t) := by
  induction addrs generalizing s t with
  | nil => exact h
  | cons addr addrs ih => exact ih (h.observeRecovered addr detail)

theorem Alike.observeListening (h : Alike clock clock' s t) (addrs : List Str) :
    Alike clock clock' (s.observeListening clock addrs) (t.observeListening clock' addrs) := by
  unfold DashboardState.observeListening
  have hlabel := { h with : Alike clock clock'
    { s with
      listeners := addrs.dedup
      listeningLabel := some (listenerStatusLabel addrs)
      status := .listening (listenerStatusLabel addrs) }
    { t with
      listeners := addrs.dedup
      listeningLabel := some (listenerStatusLabel addrs)
      status := .listening (listenerStatusLabel addrs) } }
  have hshown := hlabel.pushEvent "receiver".toList "receiver".toList
    (listenerEventMessage addrs) (listenerEventMessage addrs)
  dsimp only
  rw [hshown.alertsEnabled]
  split_ifs
  · exact Alike.recoverAll addrs _ hshown
  · exact hshown

omit [StateStorage σ] [StateStorage σ'] in
theorem Alike.failed (h : Alike clock clock' s t) (error : Str) : Alike clock clock'
    (if s.listeningLabel.isNone then { s with status := .error error } else s)
    (if t.listeningLabel.isNone then { t with status := .error error } else t) := by
  split_ifs <;> exact { h with }

theorem Alike.observeReceiverError (h : Alike clock clock' s t) (listener : Option Str)
    (error : Str) : Alike clock clock' (s.observeReceiverError clock listener error)
      (t.observeReceiverError clock' listener error) := by
  unfold DashboardState.observeReceiverError
  have hshown := h.pushEvent "error".toList "error".toList error error
  have halert : Alike clock clock'
      (if (s.pushEvent clock "error".toList error).alertsEnabled then
        (s.pushEvent clock "error".toList error).applyAlert clock
          ((s.pushEvent clock "error".toList error).alerts.observeReceiverError
            (listener.getD "receiver".toList) error)
      else s.pushEvent clock "error".toList error)
      (if (t.pushEvent clock' "error".toList error).alertsEnabled then
        (t.pushEvent clock' "error".toList error).applyAlert clock'
          ((t.pushEvent clock' "error".toList error).alerts.observeReceiverError
            (listener.getD "receiver".toList) error)
      else t.pushEvent clock' "error".toList error) := by
    rw [hshown.alertsEnabled, hshown.alerts]
    split_ifs
    · exact hshown.applyAlert _
    · exact hshown
  exact halert.failed error

/-- A message is handled in a scope that stays. -/
def handle (clock : ℕ → Reading) (display : Display) (s : DashboardState σ) :
    IngressMessage → DashboardState σ
  | .listening endpoints => s.observeListening clock endpoints
  | .signal listener signal => s.observeSignalMessage clock display listener signal
  | .error listener error => s.observeReceiverError clock listener error
  | .browserStorageScope _ => s

theorem Alike.handle (h : Alike clock clock' s t) (message : IngressMessage) :
    Alike clock clock' (s.handle clock display message) (t.handle clock' display message) := by
  cases message with
  | listening endpoints => exact h.observeListening endpoints
  | signal listener signal => exact h.observeSignalMessage listener signal
  | error listener error => exact h.observeReceiverError listener error
  | browserStorageScope scope => exact h

end DashboardState

/-- The edges in a stored text; one that cannot be read holds none. -/
def storedEdges (json : Codecs) (text : Option Str) : List PersistedEdgeState :=
  (text.bind json.edges.decode).getD []

theorem restoreScope_eq (json : Codecs) (items : Str → Option Str) (scope : BrowserStorageScope) :
    restoreScope json items scope = storedEdges json ((storageKey edgesKey scope).bind items) := by
  unfold restoreScope storedEdges
  cases storageKey edgesKey scope with
  | none => rfl
  | some key =>
    dsimp only [Option.bind_some]
    unfold readJson
    cases items key with
    | none => rfl
    | some text =>
      dsimp only [Option.bind_some]
      cases json.edges.decode text <;> rfl

/-- A dashboard without a past and without a storage, with edges that were kept. -/
def restored (readings : ℕ → Reading) (edges : List PersistedEdgeState) :
    DashboardState (List StorageCommand) :=
  { (DashboardState.empty none 0).restoreEdges readings edges with ticks := 0 }

/-- What is shown of nothing but the kept edges and the messages since. -/
def viewAfter (readings clock : ℕ → Reading) (display : Display)
    (edges : List PersistedEdgeState) (messages : List IngressMessage) : View :=
  (messages.foldl (DashboardState.handle clock display) (restored readings edges)).view

/-- A page: its ingress and the dashboard that handles the messages the ingress has queued. -/
structure Tab (json : Codecs) (accepts : ℕ → Bool) where
  page : Page
  drained : List IngressMessage
  state : BrowserState json accepts

/-- The next message is drained, with the warning a restore may give. Other pages may change what
is stored at any time. -/
inductive TabEvent where
  | ingress (event : PageEvent)
  | drain (warning : Option Str)
  | elsewhere (items : Str → Option Str)

namespace Tab

variable {json : Codecs} {accepts : ℕ → Bool}

/-- The page is opened, with the local storage or without. -/
def start (clock : ℕ → Reading) (localStorage : Str → Option Str)
    (hasCloudStartup : Bool) (ticks : ℕ) (storage : Option (BrowserStorage json accepts))
    (message : Str) : Tab json accepts where
  page := .start localStorage
  drained := []
  state := .new clock (initialScope hasCloudStartup) ticks storage message

def step (clock : ℕ → Reading) (display : Display) (t : Tab json accepts) :
    TabEvent → Option (Tab json accepts)
  | .ingress event => (t.page.step event).map fun page => { t with page }
  | .drain warning => (t.page.messages[t.drained.length]?).map fun message =>
    { t with
      drained := t.drained ++ [message]
      state := t.state.step clock display (BrowserState.ofMessage warning message) }
  | .elsewhere items => some { t with
      state.dashboard.storage := t.state.dashboard.storage.map fun storage =>
        { storage with items } }

def scope (t : Tab json accepts) : BrowserStorageScope := t.state.browserStorageScope

def ticks (t : Tab json accepts) : ℕ := t.state.dashboard.ticks

/-- What is stored under the key of a scope, as the page can read it. -/
def stored (t : Tab json accepts) (scope : BrowserStorageScope) : Option Str :=
  t.state.dashboard.storage.bind fun storage => (storageKey edgesKey scope).bind storage.items

end Tab

section Entering

variable {σ : Type} (clock : ℕ → Reading)

/-- A dashboard that was cleared and restored is alike one that has no past. -/
theorem alike_restored {d x : DashboardState σ} (edges : List PersistedEdgeState)
    (hview : x.view = ⟨.default, [], .empty, (d.restoreEdges clock edges).nodes,
      (d.restoreEdges clock edges).edgeDecorations, .empty⟩) (henabled : x.alertsEnabled = true) :
    DashboardState.Alike clock (fun k => clock (x.ticks + k)) x
      (restored (fun k => clock (d.ticks + k)) edges) := by
  have hreadings : (fun i => clock (d.ticks + i)) = fun i => clock (d.ticks + (0 + i)) := by
    simp only [Nat.zero_add]
  simp only [DashboardState.view, View.mk.injEq] at hview
  obtain ⟨hcounters, hmetrics, hhistory, hnodes, hdecorations, halerts⟩ := hview
  refine ⟨hcounters, hmetrics, hhistory, hnodes.trans ?_, hdecorations.trans ?_, halerts, henabled,
    fun k => ?_⟩
  · simp only [DashboardState.restoreEdges, restored, hreadings]
    rfl
  · simp only [DashboardState.restoreEdges, restored, hreadings]
    rfl
  · simp [restored]

variable {json : Codecs} {accepts : ℕ → Bool} {s : BrowserState json accepts}
  {scope : BrowserStorageScope}

theorem alike_entered (hother : s.browserStorageScope ≠ scope)
    (henabled : s.dashboard.alertsEnabled = true) (warning : Option Str) :
    DashboardState.Alike clock
      (fun k => clock ((s.observeBrowserStorageScope clock scope warning).dashboard.ticks + k))
      (s.observeBrowserStorageScope clock scope warning).dashboard
      (restored (fun k => clock (s.dashboard.ticks + k)) (storedEdges json
        (s.dashboard.storage.bind fun storage =>
          (storageKey edgesKey scope).bind storage.items))) := by
  unfold BrowserState.observeBrowserStorageScope
  rw [if_neg hother]
  cases hstorage : s.dashboard.storage with
  | none =>
    exact alike_restored clock (d := BrowserState.clearView s.dashboard) [] rfl henabled
  | some storage =>
    dsimp only [Option.bind_some]
    rw [← restoreScope_eq]
    cases warning with
    | none | some =>
      exact alike_restored clock (d := { BrowserState.clearView s.dashboard with
        storage := some { storage with scope } }) _ rfl henabled

theorem scope_observed (scope : BrowserStorageScope) (warning : Option Str) :
    (s.observeBrowserStorageScope clock scope warning).browserStorageScope = scope := by
  unfold BrowserState.observeBrowserStorageScope
  split_ifs with hsame
  · exact hsame
  · dsimp only
    split <;> rfl

end Entering

namespace DashboardState

variable {σ : Type} [StateStorage σ] {clock : ℕ → Reading} {display : Display}
  {s : DashboardState σ}

/-- Only the user turns the alerts off. -/
theorem enabled_act {a : Action} (display : Display) (ha : ∀ enabled, a ≠ .setAlertsEnabled enabled)
    (hs : s.alertsEnabled = true) : (s.act clock display a).alertsEnabled = true := by
  refine act_invariant clock display (I := fun s => s.alertsEnabled = true) ?_ hs
  intro t u hpart ht
  cases hpart with
  | quiet hquiet => exact hquiet.alertsEnabled.trans ht
  | counted => exact ht
  | sample => exact ((enterSample_fields clock display _ _).2.2.1).trans ht
  | items => exact ht
  | received | listening | error | extensionError =>
    exact (applyAlert_alertsEnabled clock _ _).trans ht
  | registered | removed => exact ht
  | enabled => rfl
  | disabled => exact absurd rfl (ha false)

theorem enabled_handle (hs : s.alertsEnabled = true) (message : IngressMessage) :
    (s.handle clock display message).alertsEnabled = true := by
  cases message with
  | listening endpoints => exact enabled_act (a := .listening endpoints) display nofun hs
  | signal listener signal => exact enabled_act (a := .signal listener signal) display nofun hs
  | error listener error => exact enabled_act (a := .error listener error) display nofun hs
  | browserStorageScope scope => exact hs

end DashboardState

namespace Tab

variable {json : Codecs} {accepts : ℕ → Bool} {clock : ℕ → Reading} {display : Display}
  {t u v : Tab json accepts} {first : Tab json accepts} {labels : List TabEvent} {l : TabEvent}

/-- The dashboard of a tab is alike one that has nothing but what was stored when `n` readings of
the clock were used, and the messages that were drained after `m` readings. -/
def Shows (clock : ℕ → Reading) (display : Display) (n m : ℕ) (text : Option Str)
    (messages : List IngressMessage) (t : Tab json accepts) : Prop :=
  DashboardState.Alike clock (fun k => clock (m + k)) t.state.dashboard
    (messages.foldl (DashboardState.handle (fun k => clock (m + k)) display)
      (restored (fun k => clock (n + k)) (storedEdges json text)))

/-- A drained message leads into another scope, or it is handled in the scope that is there. -/
theorem drain_cases {warning : Option Str} (h : t.step clock display (.drain warning) = some v) :
    (∃ scope, t.scope ≠ scope ∧ v.state = t.state.observeBrowserStorageScope clock scope warning ∧
      v.scope = scope) ∨
    ∃ message, v.drained = t.drained ++ [message] ∧ v.scope = t.scope ∧
      v.state.dashboard = t.state.dashboard.handle clock display message := by
  obtain ⟨message, _, rfl⟩ := Option.map_eq_some_iff.mp h
  cases message with
  | listening | signal | error => exact .inr ⟨_, rfl, rfl, rfl⟩
  | browserStorageScope scope =>
    by_cases hscope : t.scope = scope
    · have hsame : t.state.observeBrowserStorageScope clock scope warning = t.state := if_pos hscope
      exact .inr ⟨_, rfl, congrArg BrowserState.browserStorageScope hsame,
        congrArg BrowserState.dashboard hsame⟩
    · exact .inl ⟨scope, hscope, rfl, scope_observed clock scope warning⟩

/-- The moment the scope was last entered: when the page was opened, or by a drained message. -/
inductive Since (clock : ℕ → Reading) (display : Display) (ticks : ℕ) (text : Option Str)
    (first : Tab json accepts) (labels : List TabEvent) (t : Tab json accepts) : Prop
  | opened (hrun : Runs.run (step clock display) first labels = some t)
    (halong : Runs.Along (step clock display) (fun x => x.scope = t.scope) first labels)
    (hshows : Shows clock display ticks first.ticks text t.drained t)
  | entered (pre : List TabEvent) (warning : Option Str) (post : List TabEvent)
    (u v : Tab json accepts) (messages : List IngressMessage)
    (hlabels : labels = pre ++ .drain warning :: post)
    (hpre : Runs.run (step clock display) first pre = some u)
    (henter : u.step clock display (.drain warning) = some v) (hother : u.scope ≠ t.scope)
    (hpost : Runs.run (step clock display) v post = some t)
    (halong : Runs.Along (step clock display) (fun x => x.scope = t.scope) v post)
    (hmessages : t.drained = v.drained ++ messages)
    (hshows : Shows clock display u.ticks v.ticks (u.stored t.scope) messages t)

theorem enabled_step (ht : t.state.dashboard.alertsEnabled = true)
    (h : t.step clock display l = some v) : v.state.dashboard.alertsEnabled = true := by
  cases l with
  | ingress event =>
    obtain ⟨page, _, rfl⟩ := Option.map_eq_some_iff.mp h
    exact ht
  | elsewhere items =>
    cases h
    exact ht
  | drain warning =>
    obtain ⟨scope, hother, hstate, _⟩ | ⟨message, _, _, hstate⟩ := drain_cases h
    · rw [hstate]
      exact (alike_entered clock hother ht warning).alertsEnabled
    · rw [hstate]
      exact DashboardState.enabled_handle ht message

theorem Shows.append {n m : ℕ} {text : Option Str} {messages : List IngressMessage}
    (hshows : Shows clock display n m text messages t) {message : IngressMessage}
    (hstate : v.state.dashboard = t.state.dashboard.handle clock display message) :
    Shows clock display n m text (messages ++ [message]) v := by
  unfold Shows
  rw [hstate, foldl_append]
  exact hshows.handle message

variable {ticks : ℕ} {text : Option Str}

/-- A step that stays in the scope only adds to the messages since. -/
theorem Since.stays (h : Since clock display ticks text first labels t)
    (hstep : t.step clock display l = some v) (hscope : v.scope = t.scope)
    (messages : List IngressMessage) (hdrained : v.drained = t.drained ++ messages)
    (hshows : ∀ n m text past, Shows clock display n m text past t →
      Shows clock display n m text (past ++ messages) v) :
    Since clock display ticks text first (labels ++ [l]) v := by
  cases h with
  | opened hrun halong hold =>
    rw [← hscope] at halong
    refine .opened (Runs.run_append.mpr ⟨t, hrun, Runs.run_cons.mpr ⟨v, hstep, rfl⟩⟩)
      (Runs.along_concat halong hrun hstep rfl) ?_
    rw [hdrained]
    exact hshows _ _ _ _ hold
  | entered pre warning post u w past hlabels hpre henter hother hpost halong hpast hold =>
    rw [← hscope] at halong hother hold
    refine .entered pre warning (post ++ [l]) u w (past ++ messages) ?_ hpre henter hother
      (Runs.run_append.mpr ⟨t, hpost, Runs.run_cons.mpr ⟨v, hstep, rfl⟩⟩)
      (Runs.along_concat halong hpost hstep rfl) ?_ (hshows _ _ _ _ hold)
    · rw [hlabels]
      simp
    · rw [hdrained, hpast, append_assoc]

theorem since_step (hrun : Runs.run (step clock display) first labels = some t)
    (henabled : t.state.dashboard.alertsEnabled = true)
    (h : Since clock display ticks text first labels t)
    (hstep : t.step clock display l = some v) :
    Since clock display ticks text first (labels ++ [l]) v := by
  cases l with
  | ingress event =>
    obtain ⟨page, _, rfl⟩ := Option.map_eq_some_iff.mp hstep
    refine h.stays hstep rfl [] (append_nil _).symm fun n m text past hold => ?_
    rw [append_nil]
    exact hold
  | elsewhere items =>
    cases hstep
    refine h.stays rfl rfl [] (append_nil _).symm fun n m text past hold => ?_
    rw [append_nil]
    exact { hold with }
  | drain warning =>
    obtain ⟨scope, hother, hstate, hscope⟩ | ⟨message, hdrained, hscope, hstate⟩ :=
      drain_cases hstep
    · subst hscope
      refine .entered labels warning [] t v [] rfl hrun hstep hother rfl (Runs.along_nil rfl)
        (append_nil _).symm ?_
      have hentered := alike_entered clock hother henabled warning
      rw [← hstate] at hentered
      exact hentered
    · exact h.stays hstep hscope [message] hdrained fun n m text past hold => hold.append hstate

/-- The events of the ingress among those of the page. -/
def pageEvents (labels : List TabEvent) : List PageEvent :=
  labels.filterMap fun
    | .ingress event => some event
    | _ => none

theorem page_run (hrun : Runs.run (step clock display) t labels = some v) :
    Runs.run Page.step t.page (pageEvents labels) = some v.page := by
  induction labels generalizing t with
  | nil =>
    cases hrun
    rfl
  | cons l labels ih =>
    obtain ⟨u, hstep, hrest⟩ := Runs.run_cons.mp hrun
    cases l with
    | ingress event =>
      obtain ⟨page, hpage, rfl⟩ := Option.map_eq_some_iff.mp hstep
      exact Runs.run_cons.mpr ⟨page, hpage, ih hrest⟩
    | elsewhere items =>
      cases hstep
      have hpages := ih hrest
      exact hpages
    | drain warning =>
      obtain ⟨message, _, rfl⟩ := Option.map_eq_some_iff.mp hstep
      have hpages := ih hrest
      exact hpages

/-- What was drained is the head of the queue, and the scope is the latest of it. -/
structure Drained (initial : BrowserStorageScope) (t : Tab json accepts) : Prop where
  queued : t.drained <+: t.page.messages
  scope : t.scope = latestScope initial t.drained

theorem latestScope_concat (initial : BrowserStorageScope) (messages : List IngressMessage)
    (message : IngressMessage) : latestScope initial (messages ++ [message]) =
      match message with
      | .browserStorageScope next => next
      | _ => latestScope initial messages := by
  rw [latestScope, foldl_append]
  rfl

theorem drained_step {initial : BrowserStorageScope} (ht : Drained initial t)
    (hstep : t.step clock display l = some v) : Drained initial v := by
  cases l with
  | ingress event =>
    obtain ⟨page, hpage, rfl⟩ := Option.map_eq_some_iff.mp hstep
    exact ⟨ht.queued.trans (Browser.grows_step hpage), ht.scope⟩
  | elsewhere items =>
    cases hstep
    exact ⟨ht.queued, ht.scope⟩
  | drain warning =>
    obtain ⟨message, hnext, rfl⟩ := Option.map_eq_some_iff.mp hstep
    obtain ⟨rest, hrest⟩ := ht.queued
    refine ⟨?_, ?_⟩
    · rw [← hrest, getElem?_append_right (Nat.le_refl _), Nat.sub_self] at hnext
      cases rest with
      | nil => cases hnext
      | cons first rest =>
        cases hnext
        exact ⟨rest, by rw [← hrest, append_assoc]; rfl⟩
    · have hlatest := latestScope_concat initial t.drained message
      cases message with
      | listening | signal | error => exact ht.scope.trans hlatest.symm
      | browserStorageScope scope => exact (scope_observed clock scope warning).trans hlatest.symm

theorem since_start (localStorage : Str → Option Str) (hasCloudStartup : Bool)
    (ticks : ℕ) (storage : Option (BrowserStorage json accepts)) (message : Str) :
    Since clock display ticks
      ((start clock localStorage hasCloudStartup ticks storage message).stored
        (initialScope hasCloudStartup))
      (start clock localStorage hasCloudStartup ticks storage message) []
      (start clock localStorage hasCloudStartup ticks storage message) := by
  refine .opened rfl (Runs.along_nil rfl) ?_
  cases storage with
  | none => exact alike_restored clock (d := DashboardState.empty none ticks) [] rfl rfl
  | some storage =>
    have hopened := alike_restored clock
      (x := (start clock localStorage hasCloudStartup ticks (some storage)
        message).state.dashboard)
      (d := DashboardState.empty (some { storage with scope := initialScope hasCloudStartup }) ticks)
      (restoreScope json storage.items (initialScope hasCloudStartup)) rfl rfl
    rw [restoreScope_eq] at hopened
    exact hopened

/-- Every signal in the queue of a page was received behind the scope it belongs to, and what the
dashboard shows is what one without a past shows, of the edges that were stored under the key of the
scope when it was last entered and of the messages drained since. -/
theorem tab_isolated (clock : ℕ → Reading) (display : Display)
    (localStorage : Str → Option Str) (hasCloudStartup : Bool) (ticks : ℕ)
    (storage : Option (BrowserStorage json accepts)) (message : Str)
    (hfirst : first = start clock localStorage hasCloudStartup ticks storage message)
    (hrun : Runs.run (step clock display) first labels = some t) :
    t.drained <+: t.page.messages ∧ t.scope = latestScope (initialScope hasCloudStartup) t.drained ∧
    (∀ before e signal after, t.page.messages = before ++ .signal e signal :: after →
      ∃ pre l post page, pageEvents labels = pre ++ l :: post ∧
        Runs.run Page.step (.start localStorage) pre = some page ∧
        Received page l e signal (latestScope (initialScope hasCloudStartup) before)) ∧
    ((Runs.Along (step clock display) (fun x => x.scope = t.scope) first labels ∧
        t.state.dashboard.view = viewAfter (fun k => clock (ticks + k))
          (fun k => clock (first.ticks + k)) display (storedEdges json (first.stored t.scope))
          t.drained) ∨
      ∃ pre warning post u v messages, labels = pre ++ .drain warning :: post ∧
        Runs.run (step clock display) first pre = some u ∧
        u.step clock display (.drain warning) = some v ∧ u.scope ≠ t.scope ∧
        Runs.run (step clock display) v post = some t ∧
        Runs.Along (step clock display) (fun x => x.scope = t.scope) v post ∧
        t.drained = v.drained ++ messages ∧
        t.state.dashboard.view = viewAfter (fun k => clock (u.ticks + k))
          (fun k => clock (v.ticks + k)) display (storedEdges json (u.stored t.scope)) messages) := by
  subst hfirst
  have hdrained : Drained (initialScope hasCloudStartup) t := by
    refine Runs.run_invariant (I := Drained (initialScope hasCloudStartup))
      (fun _ _ _ => drained_step) hrun ⟨?_, rfl⟩
    exact nil_prefix
  have hsince := (Runs.run_history (I := fun labels (x : Tab json accepts) =>
      x.state.dashboard.alertsEnabled = true ∧
      Since clock display ticks ((start clock localStorage hasCloudStartup ticks storage
        message).stored (initialScope hasCloudStartup))
        (start clock localStorage hasCloudStartup ticks storage message) labels x)
    ⟨by cases storage <;> rfl, since_start localStorage hasCloudStartup ticks storage message⟩
    (fun labels u l v hu hinv hstep =>
      ⟨enabled_step hinv.1 hstep, since_step hu hinv.1 hinv.2 hstep⟩) hrun).2
  refine ⟨hdrained.queued, hdrained.scope, ?_, ?_⟩
  · intro before e signal after hqueue
    exact Browser.signal_received _ (page_run hrun) hqueue
  · cases hsince with
    | opened _ halong hshows =>
      have hscope : initialScope hasCloudStartup = t.scope :=
        Runs.along_head (P := fun x : Tab json accepts => x.scope = t.scope) halong
      rw [hscope] at hshows
      exact .inl ⟨halong, hshows.view⟩
    | entered pre warning post u v messages hlabels hpre henter hother hpost halong hmessages
        hshows =>
      exact .inr ⟨pre, warning, post, u, v, messages, hlabels, hpre, henter, hother, hpost, halong,
        hmessages, hshows.view⟩

/-- A request with one record. -/
def oneRecord : List (ResourceGroup Wire) := [⟨none, [⟨none, [⟨[]⟩], ⟨[]⟩⟩], ⟨[]⟩⟩]

/-- The streams of a cloud endpoint are of one tenant and then of another one, with a signal each,
and the dashboard drains them all. -/
def twoTenants : List TabEvent :=
  List.map .ingress [.add (.cloudApi ['a']) (.ok ()) false,
    .ticketDone ['a'] 1 (.ok ⟨0⟩) (.ok ()) (.ok ()), .socketOpened 0,
    .socketMessage 0 (.ok ⟨.logs oneRecord, some 5, some ⟨0⟩⟩) (.ok ()),
    .socketClosed 0 true 1000 [], .timerFired ⟨['a'], 1, 1⟩,
    .ticketDone ['a'] 1 (.ok ⟨1⟩) (.ok ()) (.ok ()), .socketOpened 1,
    .socketMessage 1 (.ok ⟨.traces oneRecord, some 6, some ⟨1⟩⟩) (.ok ())] ++
  List.replicate 8 (.drain none)

theorem tab_isolated_sample : ∃ t : Tab framedCodecs fun _ => true,
    Runs.run (step stoppedClock plainDisplay)
      (start stoppedClock (fun _ => none) true 0 (some ⟨fun _ => none, .legacy, 0⟩) []) twoTenants =
        some t ∧
      t.state.dashboard.view.counters.logRecords = 0 ∧ t.state.dashboard.view.counters.spans = 1 ∧
      t.scope = .cloud ['a'] ⟨1⟩ ∧ t.scope = latestScope .cloudPending t.drained ∧
      ∀ before e signal after, t.page.messages = before ++ .signal e signal :: after →
        ∃ pre l post page, pageEvents twoTenants = pre ++ l :: post ∧
          Runs.run Page.step (.start fun _ => none) pre = some page ∧
          Received page l e signal (latestScope .cloudPending before) := by
  have hrun : ∃ t : Tab framedCodecs fun _ => true,
      Runs.run (step stoppedClock plainDisplay)
        (start stoppedClock (fun _ => none) true 0 (some ⟨fun _ => none, .legacy, 0⟩) []) twoTenants =
          some t ∧ t.state.dashboard.view.counters.logRecords = 0 ∧
        t.state.dashboard.view.counters.spans = 1 ∧ t.scope = .cloud ['a'] ⟨1⟩ :=
    ⟨_, rfl, rfl, rfl, rfl⟩
  obtain ⟨t, ht, hlogs, hspans, hscope⟩ := hrun
  obtain ⟨_, hlatest, hreceived, _⟩ := tab_isolated stoppedClock plainDisplay (fun _ => none) true 0
    (some ⟨fun _ => none, .legacy, 0⟩) [] rfl ht
  exact ⟨t, ht, hlogs, hspans, hscope, hlatest, hreceived⟩

end Tab

end SkidMonitor.Client
