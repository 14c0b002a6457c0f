import SkidMonitor.Core.Envelope
import SkidMonitor.Lib.Numeral

/-! How the dashboard takes a metrics request apart into samples, one for each data point that
has something to show. -/
namespace SkidMonitor.Client

/-- How numbers are converted and shown, by `as f64`, `format_f64` and `format_bytes`. -/
structure Display where
  intAsFloat : Int64 → F64
  float : F64 → Str
  bytes : F64 → Str

/-- A display without digits, for samples in which no text of a number is read. -/
def plainDisplay : Display := ⟨fun _ => F64.zero, fun _ => [], fun _ => []⟩

def nodeIdAttributeKeys : List Str :=
  ["node_name".toList, "k8s.node.name".toList, "host.name".toList, "service.instance.id".toList,
    "device_id".toList]

def databaseSystemAttributeKeys : List Str := ["db.system.name".toList, "db.system".toList]

def metricResourceSourceKey : Str := "skid_monitor.source".toList
def metricServiceNameKey : Str := "service.name".toList
def metricUnknownSource : Str := "unknown".toList
def metricEmptyField : Str := "-".toList
def metricByteUnit : Str := "By".toList
def metricAttrPreviewCount : ℕ := 4
def metricTrendAttrCount : ℕ := 3

inductive MetricSignalSubtype where
  | openTelemetry
  | database
  deriving DecidableEq

inductive DatabaseSystem where
  | mySql
  | postgreSql
  | redis
  | valkey
  deriving DecidableEq

def asciiLowercase (text : Str) : Str :=
  text.map fun c => if 'A' ≤ c ∧ c ≤ 'Z' then Char.ofNat (c.toNat + 32) else c

def DatabaseSystem.fromOtel (value : Str) : Option DatabaseSystem :=
  let value := asciiLowercase (Text.trim value)
  if value = "mysql".toList then some .mySql
  else if value = "postgresql".toList then some .postgreSql
  else if value = "redis".toList then some .redis
  else if value = "valkey".toList then some .valkey
  else none

structure MetricSample where
  name : Str
  value : Str
  numeric : Option F64
  signalSubtype : MetricSignalSubtype
  databaseSystem : Option DatabaseSystem
  databaseNamespace : Str
  databaseOperation : Str
  databaseTarget : Str
  source : Str
  service : Str
  node : Str
  endpoint : Str
  kind : Str
  attributes : Str
  trendKey : Str
  deriving DecidableEq

def intText (n : ℤ) : Str := if n < 0 then '-' :: Numeral.print n.natAbs else Numeral.print n.natAbs

variable (display : Display)

def anyValue : Option AnyValue → Str
  | some (.stringValue value) => value
  | some (.boolValue value) => if value then "true".toList else "false".toList
  | some (.intValue value) => intText value.toInt
  | some (.doubleValue value) => display.float value
  | some (.arrayValue values) => Numeral.print values.length ++ " values".toList
  | some (.kvlistValue values) => Numeral.print values.length ++ " attrs".toList
  | some (.bytesValue value) => Numeral.print value.length ++ " bytes".toList
  | some (.stringValueStrindex value) => "strindex:".toList ++ intText value.toInt
  | none => metricEmptyField

def keyValue (entry : KeyValue) : Str :=
  (entry.value.map (anyValue display)).getD metricEmptyField

def attributeValue (attributes : List KeyValue) (key : Str) : Option Str :=
  (attributes.find? (·.key = key)).map (keyValue display)

def attributeValueIn (pointAttrs resourceAttrs : List KeyValue) (key : Str) : Option Str :=
  (attributeValue display pointAttrs key).or (attributeValue display resourceAttrs key)

def isMeaningful (value : Str) : Bool :=
  let value := Text.trim value
  !value.isEmpty && value ≠ metricEmptyField

def nodeIdentity (resourceAttrs pointAttrs : List KeyValue) (service source listener : Str) : Str :=
  let named := nodeIdAttributeKeys.findSome? fun key =>
    (attributeValueIn display pointAttrs resourceAttrs key).filter isMeaningful
  named.getD <|
    if isMeaningful service then service ++ '@' :: listener
    else if isMeaningful source then source ++ '@' :: listener
    else listener

def trendKey (listener name source node : Str) (attributes : List KeyValue) : Str :=
  listener ++ '/' :: source ++ '/' :: node ++ '/' :: name ++
    (attributes.take metricTrendAttrCount).flatMap fun entry =>
      ' ' :: entry.key ++ '=' :: keyValue display entry

def joinComma : List Str → Str
  | [] => []
  | [part] => part
  | part :: parts => part ++ ", ".toList ++ joinComma parts

def metricAttributes (service scope : Str) (attributes : List KeyValue) : Str :=
  let shown := (attributes.take metricAttrPreviewCount).map fun entry =>
    entry.key ++ '=' :: keyValue display entry
  let more :=
    if attributes.length > metricAttrPreviewCount then
      ['+' :: Numeral.print (attributes.length - metricAttrPreviewCount)]
    else []
  joinComma (["service=".toList ++ service, "scope=".toList ++ scope] ++ shown ++ more)

def databaseSystem (resourceAttrs pointAttrs : List KeyValue) : Option DatabaseSystem :=
  (databaseSystemAttributeKeys.findSome? (attributeValueIn display pointAttrs resourceAttrs)).bind
    DatabaseSystem.fromOtel

def databaseTarget (resourceAttrs pointAttrs : List KeyValue) : Str :=
  let value := attributeValueIn display pointAttrs resourceAttrs
  let address := (value "server.address".toList).or (value "network.peer.address".toList)
  let port := (value "server.port".toList).or (value "network.peer.port".toList)
  match address.filter isMeaningful, port.filter isMeaningful with
  | some address, some port => address ++ ':' :: port
  | some address, none => address
  | none, _ => metricEmptyField

def metricSample (name value : Str) (numeric : Option F64) (source service scope kind : Str)
    (resourceAttrs pointAttrs : List KeyValue) (listener : Str) : MetricSample :=
  let node := nodeIdentity display resourceAttrs pointAttrs service source listener
  let system := databaseSystem display resourceAttrs pointAttrs
  let entry := attributeValueIn display pointAttrs resourceAttrs
  { name, value, numeric
    signalSubtype := if system.isSome then .database else .openTelemetry
    databaseSystem := system
    databaseNamespace := (entry "db.namespace".toList).getD metricEmptyField
    databaseOperation :=
      ((entry "db.operation.name".toList).or (entry "db.query.summary".toList)).getD
        metricEmptyField
    databaseTarget := databaseTarget display resourceAttrs pointAttrs
    source, service, node
    endpoint := listener
    kind
    attributes := metricAttributes display service scope pointAttrs
    trendKey := trendKey display listener name source node pointAttrs }

def numberF64 : NumberValue → F64
  | .asDouble value => value
  | .asInt value => display.intAsFloat value

def formatMetricValue (value : F64) (unit : Str) : Str :=
  if unit = metricByteUnit then display.bytes value
  else if unit.isEmpty then display.float value
  else display.float value ++ ' ' :: unit

def countText (count : UInt64) : Str := "count ".toList ++ Numeral.print count.toNat

def sumAndCount (sum : F64) (count : UInt64) (unit : Str) : Str :=
  "sum ".toList ++ formatMetricValue display sum unit ++ " / ".toList ++ countText count

/-- What the samples of one metric share. -/
structure SampleContext where
  source : Str
  service : Str
  scope : Str
  resourceAttrs : List KeyValue
  listener : Str

variable (metric : Metric) (context : SampleContext)

def sampleOf (value : Str) (numeric : Option F64) (kind : Str) (pointAttrs : List KeyValue) :
    MetricSample :=
  metricSample display metric.name value numeric context.source context.service context.scope kind
    context.resourceAttrs pointAttrs context.listener

/-- A number point without a value is passed over. -/
def numberSample (kind : Str) (point : NumberDataPoint) : Option MetricSample :=
  point.value.map fun value =>
    let numeric := numberF64 display value
    sampleOf display metric context (formatMetricValue display numeric metric.unit) (some numeric)
      kind point.attributes

def histogramSample (kind : Str) (point : HistogramDataPoint) : MetricSample :=
  let value := match point.sum with
    | some sum => sumAndCount display sum point.count metric.unit
    | none => countText point.count
  sampleOf display metric context value point.sum kind point.attributes

def summarySample (point : SummaryDataPoint) : MetricSample :=
  sampleOf display metric context (sumAndCount display point.sum point.count metric.unit)
    (some point.sum) "summary".toList point.attributes

def metricToSamples : List MetricSample :=
  match metric.data with
  | some (.gauge points) => points.filterMap (numberSample display metric context "gauge".toList)
  | some (.sum points _) => points.filterMap (numberSample display metric context "sum".toList)
  | some (.histogram points _) =>
    points.map (histogramSample display metric context "histogram".toList)
  | some (.exponentialHistogram points _) =>
    points.map (histogramSample display metric context "exp_histogram".toList)
  | some (.summary points) => points.map (summarySample display metric context)
  | none => []

def metricSamples (request : List (ResourceGroup Metric)) (listener : Str) : List MetricSample :=
  request.flatMap fun resource =>
    let resourceAttrs := resource.resource.getD []
    let source :=
      (attributeValue display resourceAttrs metricResourceSourceKey).getD metricUnknownSource
    let service :=
      (attributeValue display resourceAttrs metricServiceNameKey).getD metricEmptyField
    resource.scopes.flatMap fun group =>
      let scope := (group.scope.filter (!·.isEmpty)).getD metricEmptyField
      group.records.flatMap fun metric =>
        metricToSamples display metric ⟨source, service, scope, resourceAttrs, listener⟩

variable {display}

/-- A sample is named after the listener it came from, and after the attributes of its point. -/
theorem exists_trendKey {request : List (ResourceGroup Metric)} {listener : Str}
    {sample : MetricSample} (h : sample ∈ metricSamples display request listener) :
    sample.endpoint = listener ∧ ∃ pointAttrs, sample.trendKey =
      trendKey display listener sample.name sample.source sample.node pointAttrs := by
  simp only [metricSamples, List.mem_flatMap] at h
  obtain ⟨group, _, scope, _, metric, _, h⟩ := h
  unfold metricToSamples at h
  rcases hdata : metric.data with _ | points | ⟨points, _⟩ | ⟨points, _⟩ | ⟨points, _⟩ | points
  all_goals rw [hdata] at h
  · cases h
  · obtain ⟨point, _, hpoint⟩ := List.mem_filterMap.mp h
    obtain ⟨value, _, rfl⟩ := Option.map_eq_some_iff.mp hpoint
    exact ⟨rfl, _, rfl⟩
  · obtain ⟨point, _, hpoint⟩ := List.mem_filterMap.mp h
    obtain ⟨value, _, rfl⟩ := Option.map_eq_some_iff.mp hpoint
    exact ⟨rfl, _, rfl⟩
  all_goals
    obtain ⟨point, _, rfl⟩ := List.mem_map.mp h
    exact ⟨rfl, _, rfl⟩

end SkidMonitor.Client
