import SkidMonitor.Client.Desktop
import SkidMonitor.Client.LocalStorage

/-! The alerts of the metric rules and the nodes they are about. -/
namespace SkidMonitor.Client

open List

section Observed

variable (display : Display) {sample : MetricSample} {alerts : AlertStore} {key : Str}
  {alert : AlertSnapshot}

/-- What a rule would fire for a sample names the node of the sample. -/
theorem fromSample_snapshot {evaluation : MetricEvaluation}
    (h : MetricEvaluation.fromSample display sample = some evaluation) :
    evaluation.snapshot.ruleId ∈ metricRules ∧
      evaluation.snapshot.key = ruleMetricKey evaluation.snapshot.ruleId sample ∧
      evaluation.snapshot.endpoint = sample.endpoint ∧ evaluation.snapshot.node = sample.node := by
  unfold MetricEvaluation.fromSample at h
  obtain ⟨value, _, hrule⟩ := Option.bind_eq_some_iff.mp h
  split_ifs at hrule
  · obtain rfl := Option.some.inj hrule
    exact ⟨mem_cons_self, rfl, rfl, rfl⟩
  · obtain rfl := Option.some.inj hrule
    exact ⟨mem_cons_of_mem _ mem_cons_self, rfl, rfl, rfl⟩
  · obtain rfl := Option.some.inj hrule
    exact ⟨mem_cons_of_mem _ (mem_cons_of_mem _ mem_cons_self), rfl, rfl, rfl⟩

theorem fire_active {found : AlertSnapshot}
    (h : (alerts.fire alert).1.active.lookup key = some found) :
    key = alert.key ∧ found = alert ∨ alerts.active.lookup key = some found :=
  SortedMap.lookup_insert_some h

theorem resolve_active {resolved detail : Str}
    (h : (alerts.resolve resolved detail).1.active.lookup key = some alert) :
    alerts.active.lookup key = some alert := by
  unfold AlertStore.resolve at h
  split at h
  · exact h
  · exact (SortedMap.lookup_erase_some h).2

/-- An alert that is active after a sample was so before, or is about the sample. -/
theorem observeMetric_active
    (h : (alerts.observeMetric display sample).1.active.lookup key = some alert) :
    alerts.active.lookup key = some alert ∨ alert.ruleId ∈ metricRules ∧
      key = ruleMetricKey alert.ruleId sample ∧ alert.endpoint = sample.endpoint ∧
      alert.node = sample.node := by
  unfold AlertStore.observeMetric at h
  split at h
  · exact .inl h
  · rename_i evaluation hevaluation
    obtain ⟨hrule, hkey, hendpoint, hnode⟩ := fromSample_snapshot display hevaluation
    split_ifs at h
    · obtain ⟨rfl, rfl⟩ | hold := fire_active h
      · exact .inr ⟨hrule, hkey, hendpoint, hnode⟩
      · exact .inl hold
    · exact .inl (resolve_active h)

end Observed

theorem receiverErrorRule_not_metric : AlertStore.receiverErrorRule ∉ metricRules := by decide

theorem extensionErrorRule_not_metric : AlertStore.extensionErrorRule ∉ metricRules := by decide

namespace DashboardState

variable {σ : Type} [StateStorage σ] (clock : ℕ → Reading) (display : Display)
  {s t : DashboardState σ} {a : Action} {key : Str}

/-- Every active alert of a metric rule names a node that is there. -/
def Present (s : DashboardState σ) : Prop :=
  ∀ key alert, s.alerts.active.lookup key = some alert → alert.ruleId ∈ metricRules →
    (s.nodes.lookup (edgeKey alert.endpoint alert.node)).isSome

/-- No active alert of a metric rule is about the node of this key. -/
def Unalerted (s : DashboardState σ) (key : Str) : Prop :=
  ∀ k alert, s.alerts.active.lookup k = some alert → alert.ruleId ∈ metricRules →
    edgeKey alert.endpoint alert.node ≠ key

omit [StateStorage σ] in
/-- More nodes, and no more alerts of metric rules. -/
theorem Present.mono (h : Present s)
    (hnodes : ∀ key, (s.nodes.lookup key).isSome → (t.nodes.lookup key).isSome)
    (halerts : ∀ key alert, t.alerts.active.lookup key = some alert → alert.ruleId ∈ metricRules →
      s.alerts.active.lookup key = some alert) : Present t := by
  intro key alert halert hrule
  exact hnodes _ (h key alert (halerts key alert halert hrule) hrule)

theorem present_enterSample (h : Present s) (sample : MetricSample) :
    Present (enterSample clock display s sample) := by
  obtain ⟨hnodes, halerts, _, _⟩ := enterSample_fields clock display s sample
  intro key alert halert hrule
  rw [hnodes]
  rw [halerts] at halert
  have hstays : ∀ {k}, (s.nodes.lookup k).isSome →
      ((observeMetricSample clock s sample).nodes.lookup k).isSome := fun hk =>
    SortedMap.isSome_lookup_insert hk
  split_ifs at halert
  · obtain hold | ⟨_, _, hendpoint, hnode⟩ := observeMetric_active display halert
    · exact hstays (h key alert hold hrule)
    · rw [hendpoint, hnode]
      exact Option.isSome_iff_exists.mpr ⟨_, SortedMap.lookup_insert_self⟩
  · exact hstays (h key alert halert hrule)

end DashboardState

/-- The condition on an action: a node that is removed has no active alert. -/
def Action.RemovesUnalerted {σ : Type} (s : DashboardState σ) : Action → Prop
  | .removeAgent key => s.Unalerted key
  | _ => True

namespace Desktop

variable (clock : ℕ → Reading) (display : Display) {d d' : Desktop} {event : DesktopEvent}

def RemovesUnalerted (d : Desktop) : DesktopEvent → Prop
  | .act action => action.RemovesUnalerted d.dashboard
  | _ => True

end Desktop

namespace BrowserState

variable {json : Codecs} {accepts : ℕ → Bool} (clock : ℕ → Reading) (display : Display)
  {s : BrowserState json accepts}

def RemovesUnalerted (s : BrowserState json accepts) : BrowserAction → Prop
  | .act action => action.RemovesUnalerted s.dashboard
  | .scope _ _ => True

end BrowserState

/-- A node whose processor is in use so much. -/
def usageRequest (percent : F64) : List (ResourceGroup Metric) :=
  [⟨none, [⟨none, [⟨cpuMetric, [],
    some (.gauge [⟨[], some (.asDouble percent), ⟨[]⟩⟩]), ⟨[]⟩⟩], ⟨[]⟩⟩], ⟨[]⟩⟩]

def hotRequest : List (ResourceGroup Metric) := usageRequest F64.ninety

def usageEvent (listener : Char) (percent : F64) : DesktopEvent :=
  .act (.signal [listener] (.metrics (usageRequest percent)))

def hotEvent : DesktopEvent := usageEvent 'a' F64.ninety

end SkidMonitor.Client
