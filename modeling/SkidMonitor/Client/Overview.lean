import SkidMonitor.Client.Alignment
import SkidMonitor.Client.Presence

/-! What a dashboard shows of its past: the last samples and the last values of every trend,
whatever else happens, and a summary that counts every row once. -/
namespace SkidMonitor.Client

open List SortedMap

theorem pushCapped_rtake {α : Type} (items : List α) (item : α) (max : ℕ) :
    pushCapped (items.rtake (max + 1)) item (max + 1) = (items ++ [item]).rtake (max + 1) := by
  rw [rtake_concat_succ, pushCapped]
  simp only [rtake, length_drop]
  split
  · rw [tail_drop]
    congr 2
    omega
  · congr 2
    omega

def Action.samples (display : Display) : Action → List MetricSample
  | .signal listener (.metrics request) => metricSamples display request listener
  | _ => []

/-- The value a sample adds to a trend. -/
def MetricSample.trend (key : Str) (sample : MetricSample) : Option F64 :=
  if sample.trendKey = key then sample.numeric else none

def nodeSignalCount (node : NodeSummary) : ℕ := node.metricPoints + node.spans + node.logRecords

namespace DashboardState

variable {σ : Type}

def shown (s : DashboardState σ) := (s.metrics, s.metricHistory)

/-- The samples taken in so far are `past`. -/
structure Shows (past : List MetricSample)
    (shown : List MetricSample × SortedMap Str (List F64)) : Prop where
  metrics : shown.1 = past.rtake maxMetrics
  history : ∀ key, (shown.2.lookup key).getD [] =
    (past.filterMap (MetricSample.trend key)).rtake maxHistoryPoints

variable [StateStorage σ] (clock : ℕ → Reading) (display : Display) (s : DashboardState σ)

theorem shown_applyAlert (outcome : AlertStore × Option AlertChange) :
    (applyAlert clock s outcome).shown = s.shown := by
  obtain ⟨_, _ | _⟩ := outcome <;> rfl

theorem shown_observeAlert (sample : MetricSample) :
    (observeAlert clock display s sample).shown = s.shown := by
  unfold observeAlert updateEdgeAlertSeverity
  split
  · simp only
    split <;> exact shown_applyAlert clock s _
  · rfl

/-- Only signals bring samples. -/
theorem shown_act {a : Action} (ha : ∀ listener signal, a ≠ .signal listener signal) :
    (act clock display s a).shown = s.shown := by
  cases a with
  | signal listener signal => exact (ha _ _ rfl).elim
  | listening addrs =>
    simp only [act, observeListening]
    split
    · refine foldlRecOn (motive := (shown · = s.shown)) _ _ rfl fun t ht _ _ => ?_
      exact (shown_applyAlert clock t _).trans ht
    · rfl
  | error | extensionError =>
    simp only [act, observeReceiverError, observeExtensionError]
    split_ifs <;> first | exact shown_applyAlert clock _ _ | rfl
  | registerAgent endpoint node service =>
    simp only [act, registerAgent]
    split_ifs <;> rfl
  | removeAgent key =>
    simp only [act, removeAgent]
    split <;> rfl
  | setAlertsEnabled enabled =>
    simp only [act, setAlertsEnabled]
    split_ifs
    · rfl
    · rfl
    · refine foldlRecOn (motive := (shown · = s.shown)) _ _ rfl fun t ht _ _ => ?_
      unfold clearSeverity
      split <;> exact ht

variable {s} {past : List MetricSample}

theorem shows_ingestSample (h : Shows past s.shown) (sample : MetricSample) :
    Shows (past ++ [sample]) (ingestSample clock display s sample).shown := by
  obtain ⟨hmetrics, hhistory⟩ := Prod.mk.inj
    (shown_observeAlert clock display ((observeMetricSample clock s sample).pushHistory sample) sample)
  constructor
  · change pushCapped (observeAlert clock display _ sample).metrics sample maxMetrics = _
    have hrest : ((observeMetricSample clock s sample).pushHistory sample).metrics = s.metrics := by
      unfold pushHistory
      split <;> rfl
    rw [hmetrics, hrest, show s.metrics = _ from h.metrics]
    exact pushCapped_rtake _ _ _
  · intro key
    have hkept : ((observeMetricSample clock s sample).metricHistory.lookup key).getD [] = _ :=
      h.history key
    change ((observeAlert clock display _ sample).metricHistory.lookup key).getD [] = _
    rw [hhistory, filterMap_append, pushHistory]
    cases hn : sample.numeric with
    | none => simpa [MetricSample.trend, hn] using hkept
    | some value =>
      by_cases hk : sample.trendKey = key
      · subst hk
        simp only [lookup_upsert_self, Option.getD_some, filterMap_cons, filterMap_nil,
          MetricSample.trend, if_true, hn, hkept]
        exact pushCapped_rtake _ _ _
      · rw [lookup_upsert_of_ne (Ne.symm hk)]
        simpa [MetricSample.trend, hk] using hkept

theorem shows_samples (h : Shows past s.shown) (samples : List MetricSample) :
    Shows (past ++ samples) (samples.foldl (ingestSample clock display) s).shown := by
  induction samples generalizing past s with
  | nil => simpa using h
  | cons sample samples ih => simpa using ih (shows_ingestSample clock display h sample)

theorem shows_act (h : Shows past s.shown) (a : Action) :
    Shows (past ++ a.samples display) (act clock display s a).shown := by
  cases a with
  | signal listener signal =>
    obtain ⟨t, ht, heq⟩ : ∃ t : DashboardState σ, t.shown = s.shown ∧
        act clock display s (.signal listener signal) =
          ingestSignal clock display t listener signal := by
      refine ⟨_, ?_, rfl⟩
      split <;> split <;> first | exact shown_applyAlert clock _ _ | rfl
    rw [← ht] at h
    rw [heq]
    cases signal with
    | metrics request =>
      change Shows _ (foldl (ingestSample clock display) _ _).shown
      refine shows_samples clock display ?_ _
      exact h
    | traces | logs =>
      simp only [Action.samples, append_nil]
      exact h
  | _ =>
    simp only [Action.samples, append_nil]
    rw [shown_act clock display s (by simp)]
    exact h

/-- The samples and the trends on show are the last ones of all that was received since the
start, whatever happened in between. -/
theorem last_samples_shown (storage : Option σ) (ticks : ℕ) (restored : List PersistedEdgeState)
    (message : Option Str) (actions : List Action) :
    Shows (actions.flatMap (Action.samples display))
      (actions.foldl (act clock display) (new clock storage ticks restored message)).shown := by
  have hnew : Shows [] (new clock storage ticks restored message).shown := by
    cases message <;> exact ⟨(rtake_nil _).symm, fun _ => (rtake_nil _).symm⟩
  suffices hrun : ∀ past (s : DashboardState σ), Shows past s.shown →
      Shows (past ++ actions.flatMap (Action.samples display))
        (actions.foldl (act clock display) s).shown from hrun [] _ hnew
  induction actions with
  | nil => simp
  | cons a actions ih =>
    intro past s h
    simpa using ih _ _ (shows_act clock display h a)

/-- Rows are counted by their severity and by what they have received. -/
def tally (rows : List (Option AlertSeverity × ℕ)) (o : OperationalSummary) : OperationalSummary :=
  { o with
    online := o.online + rows.countP fun row => row.1 = none ∧ row.2 ≠ 0
    pending := o.pending + rows.countP (· = (none, 0))
    warning := o.warning + rows.countP (·.1 = some .warning)
    critical := o.critical + rows.countP (·.1 = some .critical) }

/-- The summary made of the decorations alone. -/
def rowSummary (s : DashboardState σ) : OperationalSummary :=
  let rows := (s.edgeDecorations.rows.map fun d =>
    (d.severity, d.metricPoints + d.spans + d.logRecords)).values
  tally rows ⟨rows.length, s.listeners.length, 0, 0, 0, 0, s.storage.isSome⟩

theorem foldl_countNode (f : NodeSummary → Option AlertSeverity) (nodes : List NodeSummary)
    (o : OperationalSummary) : nodes.foldl (fun o n => countNode o (f n) n) o =
      tally (nodes.map fun n => (f n, nodeSignalCount n)) o := by
  induction nodes generalizing o with
  | nil => rfl
  | cons n nodes ih =>
    simp only [foldl_cons, ih, tally, map_cons, countP_cons]
    unfold countNode nodeSignalCount
    generalize n.metricPoints + n.spans + n.logRecords = received
    rcases f n with _ | _ | _ <;> by_cases hn : received = 0 <;>
      simp [hn, Nat.add_assoc, Nat.add_comm 1]

end DashboardState

open DashboardState

/-- In every state the desktop can reach, the summary of the nodes counts every row of the
decorations once. -/
theorem summary_counts_rows {clock : ℕ → Reading} {display : Display} {d : Desktop}
    (hd : Desktop.Reachable clock display d) :
    d.dashboard.operationalSummary = d.dashboard.rowSummary := by
  have h := (Desktop.kept_reachable clock display hd).dashboard.aligned
  have hrows : (d.dashboard.nodes.map fun n => (d.dashboard.nodeSeverity n, nodeSignalCount n)) =
      d.dashboard.edgeDecorations.rows.map fun d =>
        (d.severity, d.metricPoints + d.spans + d.logRecords) := by
    refine ext_lookup fun key => ?_
    rw [lookup_map, lookup_map]
    cases hnode : d.dashboard.nodes.lookup key with
    | none => rw [h.row_none hnode, Option.map_none, Option.map_none]
    | some n =>
      obtain ⟨row, hrow, hagrees⟩ := h.of_node hnode
      rw [hrow, Option.map_some, Option.map_some, nodeSeverity, EdgeSignalDecorations.get,
        ← hagrees.nodeKey, hrow, hagrees.metricPoints, hagrees.spans, hagrees.logRecords]
      rfl
  rw [operationalSummary, foldl_countNode, rowSummary, ← hrows, values_map, length_map]

/-- One agent is registered, another one is hot, and a third one has sent a trace. -/
theorem summary_counts_rows_sample : ∃ d, Desktop.Reachable stoppedClock plainDisplay d ∧
    d.dashboard.operationalSummary = d.dashboard.rowSummary ∧
    d.dashboard.rowSummary = ⟨3, 0, 1, 1, 1, 0, true⟩ := by
  have hd : Desktop.Reachable stoppedClock plainDisplay _ :=
    ⟨⟨.empty, .new stoppedClock (some []) 0 [] (some [])⟩,
      [.act (.registerAgent ['c'] [] []), hotEvent,
        .act (.signal ['b'] (.traces [⟨none, [⟨none, [⟨[]⟩], ⟨[]⟩⟩], ⟨[]⟩⟩]))],
      ⟨.ready [] [], rfl⟩, rfl⟩
  exact ⟨_, hd, summary_counts_rows hd, by decide +kernel⟩

end SkidMonitor.Client
