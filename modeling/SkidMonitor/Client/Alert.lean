import SkidMonitor.Client.Signal
import SkidMonitor.Lib.SortedMap

/-! The alerts that are active, and the rules that fire and resolve them. -/
namespace SkidMonitor.Client

inductive AlertSeverity where
  | warning
  | critical
  deriving DecidableEq, Repr

def AlertSeverity.rank : AlertSeverity → ℕ
  | .warning => 0
  | .critical => 1

theorem AlertSeverity.rank_injective : Function.Injective AlertSeverity.rank := by
  intro a b h
  cases a <;> cases b <;> first | rfl | cases h

instance : LinearOrder AlertSeverity := LinearOrder.lift' AlertSeverity.rank
  AlertSeverity.rank_injective

inductive AlertStatus where
  | firing
  | resolved
  deriving DecidableEq

inductive AlertTransition where
  | fired
  | resolved
  deriving DecidableEq

structure AlertSnapshot where
  key : Str
  ruleId : Str
  severity : AlertSeverity
  status : AlertStatus
  endpoint : Str
  node : Str
  source : Str
  summary : Str
  detail : Str
  deriving DecidableEq

structure AlertChange where
  transition : AlertTransition
  snapshot : AlertSnapshot
  deriving DecidableEq

structure AlertSummary where
  enabled : Bool
  activeCount : ℕ
  highestSeverity : Option AlertSeverity
  deriving DecidableEq

structure AlertStore where
  active : SortedMap Str AlertSnapshot

namespace AlertStore

def empty : AlertStore := ⟨.empty⟩

/-- An alert that is active already is replaced without a change. -/
def fire (s : AlertStore) (snapshot : AlertSnapshot) : AlertStore × Option AlertChange :=
  (⟨s.active.insert snapshot.key snapshot⟩,
    if (s.active.lookup snapshot.key).isSome then none else some ⟨.fired, snapshot⟩)

def resolve (s : AlertStore) (key detail : Str) : AlertStore × Option AlertChange :=
  match s.active.lookup key with
  | none => (s, none)
  | some snapshot =>
    (⟨s.active.erase key⟩, some ⟨.resolved, { snapshot with status := .resolved, detail }⟩)

def receiverErrorRule : Str := "receiver.error".toList

def receiverErrorKey (listener : Str) : Str := receiverErrorRule ++ ':' :: listener

def observeReceiverError (s : AlertStore) (listener error : Str) :
    AlertStore × Option AlertChange :=
  s.fire ⟨receiverErrorKey listener, receiverErrorRule, .critical, .firing, listener, listener,
    listener, "Receiver error".toList, error⟩

def observeReceiverRecovered (s : AlertStore) (listener detail : Str) :
    AlertStore × Option AlertChange :=
  s.resolve (receiverErrorKey listener) detail

def extensionErrorRule : Str := "extension.error".toList

def observeExtensionError (s : AlertStore) (error : Str) : AlertStore × Option AlertChange :=
  s.fire ⟨extensionErrorRule, extensionErrorRule, .warning, .firing, "frontend".toList,
    "extension-host".toList, "frontend".toList, "Extension host error".toList, error⟩

def clear (_ : AlertStore) : AlertStore := empty

def summary (s : AlertStore) : AlertSummary :=
  ⟨true, s.active.values.length, (s.active.values.map AlertSnapshot.severity).max?⟩

def highestForNode (s : AlertStore) (endpoint node : Str) : Option AlertSeverity :=
  ((s.active.values.filter fun alert => alert.endpoint = endpoint ∧ alert.node = node).map
    AlertSnapshot.severity).max?

end AlertStore

def cpuMetric : Str := "system.cpu.usage".toList
def memoryMetric : Str := "system.memory.usage".toList
def fileRootMetric : Str := "file_node.root.available".toList

def cpuRule : Str := "system.cpu.high".toList
def memoryRule : Str := "system.memory.high".toList
def fileRootRule : Str := "file.root.unavailable".toList

def metricRules : List Str := [cpuRule, memoryRule, fileRootRule]

/-- The result of a rule for one sample: what it would fire, and whether it does. -/
structure MetricEvaluation where
  snapshot : AlertSnapshot
  firing : Bool

def ruleMetricKey (ruleId : Str) (sample : MetricSample) : Str :=
  ruleId ++ ':' :: sample.endpoint ++ ':' :: sample.trendKey

def metricEvaluation (sample : MetricSample) (ruleId : Str) (severity : AlertSeverity)
    (summary detail : Str) (firing : Bool) : MetricEvaluation :=
  ⟨⟨ruleMetricKey ruleId sample, ruleId, severity, .firing, sample.endpoint, sample.node,
    sample.source, summary, detail⟩, firing⟩

def fileRootAvailableEvaluation (sample : MetricSample) (value : F64) : MetricEvaluation :=
  let firing := F64.le value F64.zero
  let detail :=
    if firing then
      sample.source ++ " reported an unavailable file root (".toList ++ sample.attributes ++
        ").".toList
    else sample.source ++ " file root is available again.".toList
  metricEvaluation sample fileRootRule .critical "File root unavailable".toList detail firing

variable (display : Display)

def thresholdEvaluation (sample : MetricSample) (value : F64) (ruleId : Str)
    (severity : AlertSeverity) (summary : Str) (threshold : F64) : MetricEvaluation :=
  let firing := F64.le threshold value
  let detail :=
    if firing then
      sample.source ++ " reported ".toList ++ sample.value ++ " for ".toList ++ sample.name ++
        " (threshold ".toList ++ display.float threshold ++ ", ".toList ++ sample.attributes ++
        ").".toList
    else
      sample.source ++ " recovered: ".toList ++ sample.name ++ " is ".toList ++ sample.value ++
        " (threshold ".toList ++ display.float threshold ++ ").".toList
  metricEvaluation sample ruleId severity summary detail firing

def MetricEvaluation.fromSample (sample : MetricSample) : Option MetricEvaluation :=
  sample.numeric.bind fun value =>
    if sample.name = cpuMetric then
      some (thresholdEvaluation display sample value cpuRule .warning "High CPU usage".toList
        F64.ninety)
    else if sample.name = memoryMetric then
      some (thresholdEvaluation display sample value memoryRule .warning "High memory usage".toList
        F64.ninety)
    else if sample.name = fileRootMetric then some (fileRootAvailableEvaluation sample value)
    else none

def AlertStore.observeMetric (s : AlertStore) (sample : MetricSample) :
    AlertStore × Option AlertChange :=
  match MetricEvaluation.fromSample display sample with
  | none => (s, none)
  | some evaluation =>
    if evaluation.firing then s.fire evaluation.snapshot
    else s.resolve evaluation.snapshot.key evaluation.snapshot.detail

namespace AlertStore

/-- What an observation does to the active alerts, and what it reports. -/
inductive Observes (s : AlertStore) : AlertStore × Option AlertChange → Prop where
  | same : Observes s (s, none)
  | again {alert : AlertSnapshot} : (s.active.lookup alert.key).isSome →
      Observes s (⟨s.active.insert alert.key alert⟩, none)
  | fired {alert : AlertSnapshot} : s.active.lookup alert.key = none → alert.status = .firing →
      Observes s (⟨s.active.insert alert.key alert⟩, some ⟨.fired, alert⟩)
  | resolved {key detail : Str} {alert : AlertSnapshot} : s.active.lookup key = some alert →
      Observes s (⟨s.active.erase key⟩,
        some ⟨.resolved, { alert with status := .resolved, detail }⟩)

variable (s : AlertStore)

theorem observes_fire {alert : AlertSnapshot} (h : alert.status = .firing) :
    Observes s (s.fire alert) := by
  unfold fire
  split_ifs with hactive
  · exact .again hactive
  · exact .fired (Option.not_isSome_iff_eq_none.mp hactive) h

theorem observes_resolve (key detail : Str) : Observes s (s.resolve key detail) := by
  unfold resolve
  split
  · exact .same
  · rename_i alert halert
    exact .resolved halert

theorem observes_metric (sample : MetricSample) :
    Observes s (s.observeMetric display sample) := by
  unfold observeMetric
  split
  · exact .same
  · rename_i evaluation hevaluation
    have hfiring : evaluation.snapshot.status = .firing := by
      unfold MetricEvaluation.fromSample at hevaluation
      obtain ⟨value, _, hrule⟩ := Option.bind_eq_some_iff.mp hevaluation
      split_ifs at hrule <;> cases hrule <;> rfl
    split_ifs
    · exact observes_fire s hfiring
    · exact observes_resolve s _ _

end AlertStore

end SkidMonitor.Client
