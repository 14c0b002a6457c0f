import SkidMonitor.Core.Envelope
import SkidMonitor.Lib.Grouping

/-! Single measurements, and the metrics request they are sent in. -/
namespace SkidMonitor.Protocol

open Grouping List

inductive Source where
  | openTelemetry
  | kubernetes
  | edgeDevice
  | fileNode
  | computeAdvisor
  | quantum
  | system
  | macOS
  deriving DecidableEq, Repr

def Source.asStr : Source → Str
  | .openTelemetry => "opentelemetry".toList
  | .kubernetes => "kubernetes".toList
  | .edgeDevice => "edge_device".toList
  | .fileNode => "file_node".toList
  | .computeAdvisor => "compute_advisor".toList
  | .quantum => "quantum".toList
  | .system => "system".toList
  | .macOS => "macos".toList

inductive MetricKind where
  | gauge
  | sum
  | histogram
  deriving DecidableEq, Repr

structure Metric where
  name : Str
  value : F64
  source : Source
  unit : Option Str
  kind : MetricKind
  attributes : List (Str × Str)
  deriving DecidableEq, Repr

/-- The encodings of what is not spelled out in the messages of a request. -/
structure ExportRest where
  keyValue : Wire
  numberDataPoint : (startTimeUnixNano timeUnixNano : UInt64) → Wire
  sum : Wire
  histogramDataPoint : (timeUnixNano : UInt64) → (minAndMax : F64) → Wire
  histogram : Wire
  metric : Wire
  scopeMetrics : Wire
  resourceMetrics : Wire

variable (rest : ExportRest)

def pushKeyValue (out : List KeyValue) (entry : Str × Str) : List KeyValue :=
  if out.any (·.key = entry.1) then out
  else out ++ [⟨entry.1, some (some (.stringValue entry.2)), rest.keyValue⟩]

/-- A key that comes again is dropped. -/
def keyValues (attributes : List (Str × Str)) : List KeyValue :=
  attributes.foldl (pushKeyValue rest) []

def numberDataPoint (attributes : List KeyValue) (value : F64)
    (startTimeUnixNano timeUnixNano : UInt64) : NumberDataPoint :=
  ⟨attributes, some (.asDouble value), rest.numberDataPoint startTimeUnixNano timeUnixNano⟩

def otlpMetric (timeUnixNano : UInt64) (metric : Metric) : SkidMonitor.Metric :=
  let attributes := keyValues rest metric.attributes
  { name := metric.name
    unit := metric.unit.getD []
    data := some <| match metric.kind with
      | .gauge => .gauge [numberDataPoint rest attributes metric.value 0 timeUnixNano]
      | .sum =>
        .sum [numberDataPoint rest attributes metric.value timeUnixNano timeUnixNano] rest.sum
      | .histogram =>
        .histogram [⟨attributes, 1, some metric.value,
          rest.histogramDataPoint timeUnixNano metric.value⟩] rest.histogram
    rest := rest.metric }

def resourceMetrics (serviceName scopeName : Str) (timeUnixNano : UInt64)
    (group : Source × List Metric) : ResourceGroup SkidMonitor.Metric where
  resource := some <| keyValues rest [("service.name".toList, serviceName),
    ("skid_monitor.source".toList, group.1.asStr)]
  scopes := [⟨some scopeName, group.2.map (otlpMetric rest timeUnixNano), rest.scopeMetrics⟩]
  rest := rest.resourceMetrics

/-- A metric joins the others of its source. -/
def pushGroup (metric : Metric) : List (Source × List Metric) → List (Source × List Metric)
  | [] => [(metric.source, [metric])]
  | (source, grouped) :: groups =>
    if source = metric.source then (source, grouped ++ [metric]) :: groups
    else (source, grouped) :: pushGroup metric groups

def exportMetrics (metrics : List Metric) (serviceName scopeName : Str)
    (timeUnixNano : UInt64) : List (ResourceGroup SkidMonitor.Metric) :=
  (metrics.foldl (fun groups metric => pushGroup metric groups) []).map
    (resourceMetrics rest serviceName scopeName timeUnixNano)

variable {rest : ExportRest}

/-- The first entry of each key is kept. -/
theorem keyValues_eq (entries : List (Str × Str)) : keyValues rest entries =
    (firsts Prod.fst entries).map fun entry =>
      ⟨entry.1, some (some (.stringValue entry.2)), rest.keyValue⟩ := by
  induction entries using List.reverseRecOn with
  | nil => rfl
  | append_singleton entries entry ih =>
    have hany : (keyValues rest entries).any (·.key = entry.1) = true ↔
        entry.1 ∈ entries.map Prod.fst := by
      rw [ih, ← mem_keys_firsts, any_map, any_eq_true, mem_map]
      simp
    rw [keyValues, foldl_append, ← keyValues, foldl_cons, foldl_nil, pushKeyValue,
      firsts_concat]
    simp only [hany]
    split_ifs
    · exact ih
    · rw [map_append, ih]
      rfl

/-- Keys that are all different are all kept. -/
theorem keyValues_of_nodup {entries : List (Str × Str)}
    (hdistinct : (entries.map Prod.fst).Nodup) : keyValues rest entries =
      entries.map fun entry => ⟨entry.1, some (some (.stringValue entry.2)), rest.keyValue⟩ := by
  rw [keyValues_eq, firsts_of_nodup hdistinct]

theorem pushGroup_map {metric : Metric} {sources : List Source} (hsources : sources.Nodup)
    (f : Source → List Metric) : pushGroup metric (sources.map fun source => (source, f source)) =
      if metric.source ∈ sources then sources.map fun source =>
        (source, if source = metric.source then f source ++ [metric] else f source)
      else sources.map (fun source => (source, f source)) ++ [(metric.source, [metric])] := by
  induction sources with
  | nil => rfl
  | cons source sources ih =>
    obtain ⟨hnew, hrest⟩ := nodup_cons.mp hsources
    rw [map_cons, pushGroup, ih hrest]
    by_cases hsource : source = metric.source
    · subst hsource
      rw [if_pos rfl, if_pos mem_cons_self, map_cons, if_pos rfl]
      congr 1
      refine map_congr_left fun other hother => ?_
      rw [if_neg]
      rintro rfl
      exact hnew hother
    · simp only [hsource, Ne.symm hsource, mem_cons, false_or, if_false, map_cons]
      split_ifs <;> rfl

/-- The sources in the order in which they first come. -/
def sourcesOf (metrics : List Metric) : List Source :=
  (firsts Metric.source metrics).map Metric.source

theorem mem_sourcesOf {source : Source} {metrics : List Metric} :
    source ∈ sourcesOf metrics ↔ ∃ metric ∈ metrics, metric.source = source := by
  rw [sourcesOf, mem_keys_firsts, mem_map]

theorem nodup_sourcesOf (metrics : List Metric) : (sourcesOf metrics).Nodup := nodup_keys_firsts

theorem sourcesOf_concat {metrics : List Metric} {metric : Metric} :
    sourcesOf (metrics ++ [metric]) = if metric.source ∈ sourcesOf metrics then sourcesOf metrics
      else sourcesOf metrics ++ [metric.source] := by
  simp only [sourcesOf, firsts_concat, mem_keys_firsts]
  split_ifs
  · rfl
  · rw [map_append]
    rfl

/-- Each source has one group, of all its metrics in their order. -/
theorem groups_eq (metrics : List Metric) :
    metrics.foldl (fun groups metric => pushGroup metric groups) [] =
      (sourcesOf metrics).map fun source =>
        (source, metrics.filter fun metric => metric.source = source) := by
  induction metrics using List.reverseRecOn with
  | nil => rfl
  | append_singleton metrics metric ih =>
    rw [foldl_append, foldl_cons, foldl_nil, ih, pushGroup_map (nodup_sourcesOf _),
      sourcesOf_concat]
    split_ifs with hknown
    · refine map_congr_left fun source _ => ?_
      rw [filter_append, filter_singleton]
      by_cases hsource : source = metric.source
      · simp [hsource]
      · simp [hsource, Ne.symm hsource]
    · rw [map_append]
      congr 1
      · refine map_congr_left fun source hsource => ?_
        have hne : metric.source ≠ source := by
          rintro rfl
          exact hknown hsource
        simp [hne]
      · have hnone : metrics.filter (fun other => other.source = metric.source) = [] := by
          refine filter_eq_nil_iff.mpr fun other hother heq => ?_
          exact hknown (mem_sourcesOf.mpr ⟨other, hother, of_decide_eq_true heq⟩)
        simp [hnone]

/-- Metrics of one source are exported as one group. -/
theorem exportMetrics_of_source {source : Source} {metrics : List Metric} (hne : metrics ≠ [])
    (hsource : ∀ metric ∈ metrics, metric.source = source) (serviceName scopeName : Str)
    (timeUnixNano : UInt64) : exportMetrics rest metrics serviceName scopeName timeUnixNano =
      [resourceMetrics rest serviceName scopeName timeUnixNano (source, metrics)] := by
  have hall : metrics.filter (fun metric => metric.source = source) = metrics :=
    filter_eq_self.mpr fun metric hmetric => decide_eq_true (hsource metric hmetric)
  obtain ⟨metric, hmetric⟩ := exists_mem_of_ne_nil metrics hne
  have hsources : sourcesOf metrics = [source] := by
    refine perm_singleton.mp ((perm_ext_iff_of_nodup (nodup_sourcesOf _)
      (nodup_singleton _)).mpr fun other => ?_)
    rw [mem_singleton, mem_sourcesOf]
    constructor
    · rintro ⟨found, hfound, rfl⟩
      exact hsource found hfound
    · rintro rfl
      exact ⟨metric, hmetric, hsource metric hmetric⟩
  rw [exportMetrics, groups_eq, hsources, map_singleton, hall, map_singleton]

section Partition

/-- What the attributes say: their keys and values. -/
def texts (attributes : List KeyValue) : List (Str × Option (Option AnyValue)) :=
  attributes.map fun entry => (entry.key, entry.value)

def stringValues (entries : List (Str × Str)) :
    List (Str × Option (Option AnyValue)) :=
  entries.map fun entry => (entry.1, some (some (.stringValue entry.2)))

/-- The metric is carried as one data point, and its attributes by the first entry of each key. -/
def Carries (metric : Metric) (carried : SkidMonitor.Metric) : Prop :=
  carried.name = metric.name ∧ carried.unit = metric.unit.getD [] ∧ ∃ attributes,
    texts attributes = stringValues (firsts Prod.fst metric.attributes) ∧
      match metric.kind with
      | .gauge => ∃ point,
        carried.data = some (.gauge [⟨attributes, some (.asDouble metric.value), point⟩])
      | .sum => ∃ point data,
        carried.data = some (.sum [⟨attributes, some (.asDouble metric.value), point⟩] data)
      | .histogram => ∃ point data,
        carried.data = some (.histogram [⟨attributes, 1, some metric.value, point⟩] data)

/-- The group carries the metrics of this source, in their order. -/
structure GroupOf (serviceName scopeName : Str) (metrics : List Metric) (source : Source)
    (group : ResourceGroup SkidMonitor.Metric) : Prop where
  resource : ∃ attributes, group.resource = some attributes ∧
    texts attributes = stringValues [("service.name".toList, serviceName),
      ("skid_monitor.source".toList, source.asStr)]
  scopes : ∃ carried scope, group.scopes = [⟨some scopeName, carried, scope⟩] ∧
    List.Forall₂ Carries (metrics.filter fun metric => metric.source = source) carried

theorem texts_keyValues (entries : List (Str × Str)) :
    texts (keyValues rest entries) = stringValues (firsts Prod.fst entries) := by
  rw [keyValues_eq, texts, map_map]
  rfl

theorem carries_otlpMetric (timeUnixNano : UInt64) (metric : Metric) :
    Carries metric (otlpMetric rest timeUnixNano metric) := by
  refine ⟨rfl, rfl, keyValues rest metric.attributes, texts_keyValues _, ?_⟩
  unfold otlpMetric numberDataPoint
  cases metric.kind with
  | gauge => exact ⟨_, rfl⟩
  | sum | histogram => exact ⟨_, _, rfl⟩

theorem groupOf_resourceMetrics (serviceName scopeName : Str) (timeUnixNano : UInt64)
    (metrics : List Metric) (source : Source) :
    GroupOf serviceName scopeName metrics source
      (resourceMetrics rest serviceName scopeName timeUnixNano
        (source, metrics.filter fun metric => metric.source = source)) where
  resource := ⟨_, rfl, (texts_keyValues _).trans (by rw [firsts_of_nodup (by simp)])⟩
  scopes := by
    refine ⟨_, _, rfl, forall₂_map_right_iff.mpr ?_⟩
    exact forall₂_same.mpr fun metric _ => carries_otlpMetric timeUnixNano metric

theorem asStr_injective : Function.Injective Source.asStr := by
  intro s s' h
  cases s <;> cases s' <;> first | rfl | exact absurd h (by decide)

/-- The groups are those of the sources in the order in which these first come, each with all its
metrics in their order, so that every metric is in one group, once. -/
theorem exportMetrics_stable_partition (rest : ExportRest) (metrics : List Metric)
    (serviceName scopeName : Str) (timeUnixNano : UInt64) :
    ((sourcesOf metrics).map Source.asStr).Nodup ∧
      List.Forall₂ (GroupOf serviceName scopeName metrics) (sourcesOf metrics)
        (exportMetrics rest metrics serviceName scopeName timeUnixNano) ∧
      ((sourcesOf metrics).flatMap fun source =>
        metrics.filter fun metric => metric.source = source).Perm metrics ∧
      exportMetrics rest [] serviceName scopeName timeUnixNano = [] := by
  refine ⟨(nodup_sourcesOf metrics).map asStr_injective, ?_, ?_, rfl⟩
  · rw [exportMetrics, groups_eq, map_map, forall₂_map_right_iff]
    exact forall₂_same.mpr fun source _ => groupOf_resourceMetrics _ _ _ _ _
  · exact perm_groups (nodup_sourcesOf metrics) fun metric hmetric =>
      mem_sourcesOf.mpr ⟨metric, hmetric, rfl⟩

end Partition

end SkidMonitor.Protocol
