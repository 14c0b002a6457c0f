import SkidMonitor.Agent.DeviceSocket
import SkidMonitor.Client.Desktop

/-! The series the dashboard keeps of the measurements of devices: under which key the values of
a record are collected, and which records share one. -/
namespace SkidMonitor.Client

open List

open Agent.DeviceSocket (EdgeRecord edgeRecord edgeWireMetric metricName recordsOf
  decodeDevicePayload decodeDevicePayload_ok decodeDevicePayload_of_frame)
open EdgeWire (EdgeMetricsFrame EdgeMetricSample isEdgeWireFrame)
open Protocol (ExportRest keyValues otlpMetric exportMetrics)

/-- The node a record is shown at: the first of its names that says something. -/
def EdgeRecord.node (listener : Str) (r : EdgeRecord) : Str :=
  if isMeaningful r.nodeName then r.nodeName
  else if isMeaningful r.deviceId then r.deviceId
  else "skid-edge-wire@".toList ++ listener

/-- The part of the key that says where a metric comes from. -/
def EdgeRecord.label (listener : Str) (r : EdgeRecord) : Str :=
  EdgeRecord.node listener r ++ '/' :: metricName r.sample.metricId ++
    ' ' :: ("device_id".toList ++ '=' :: r.deviceId) ++
    ' ' :: ("node_name".toList ++ '=' :: r.nodeName)

/-- The key of a record; the sensor is no part of it. -/
def EdgeRecord.seriesKey (listener : Str) (r : EdgeRecord) : Str :=
  listener ++ '/' :: "edge_device".toList ++ '/' :: (EdgeRecord.label listener r ++
    ' ' :: "metric_id".toList ++ '=' :: Numeral.print r.sample.metricId.value.toNat)

/-- Other names that read the same once they are joined. -/
def EdgeRecord.Crossed (listener : Str) (r r' : EdgeRecord) : Prop :=
  r.sample.metricId = r'.sample.metricId ∧
    (r.deviceId, r.nodeName) ≠ (r'.deviceId, r'.nodeName) ∧
    EdgeRecord.label listener r = EdgeRecord.label listener r'

/-- What is derived from a record. -/
structure Derives (listener : Str) (r : EdgeRecord) (m : MetricSample) : Prop where
  trendKey : m.trendKey = EdgeRecord.seriesKey listener r
  numeric : m.numeric = some r.sample.value.toF64

section Keys

variable {listener : Str} {r r' : EdgeRecord}

theorem print_injective : Function.Injective Numeral.print := by
  intro n n' h
  have hread := congrArg Numeral.read h
  simpa using hread

theorem eq_notMem_print (n : ℕ) : '=' ∉ Numeral.print n := by
  intro hmem
  have hdigit := all_eq_true.mp (Numeral.print_isDigit n) _ hmem
  exact absurd hdigit (by decide)

theorem metricId_ext {a b : EdgeWire.MetricId} (h : a.value.toNat = b.value.toNat) : a = b := by
  cases a
  cases b
  cases UInt16.toNat_inj.mp h
  rfl

/-- Two records share a key if they are of one metric and their labels read the same. -/
theorem seriesKey_eq_iff : EdgeRecord.seriesKey listener r = EdgeRecord.seriesKey listener r' ↔
    r.sample.metricId = r'.sample.metricId ∧
      EdgeRecord.label listener r = EdgeRecord.label listener r' := by
  unfold EdgeRecord.seriesKey
  constructor
  · intro h
    have htail := (List.cons.inj (append_cancel_left h)).2
    obtain ⟨hlabel, hprint⟩ :=
      (Text.append_cons_inj (eq_notMem_print _) (eq_notMem_print _)).mp htail
    exact ⟨metricId_ext (print_injective hprint), append_cancel_right hlabel⟩
  · rintro ⟨hmetric, hlabel⟩
    rw [hmetric, hlabel]

theorem label_congr (hdevice : r.deviceId = r'.deviceId) (hnode : r.nodeName = r'.nodeName)
    (hmetric : r.sample.metricId = r'.sample.metricId) :
    EdgeRecord.label listener r = EdgeRecord.label listener r' := by
  unfold EdgeRecord.label EdgeRecord.node
  rw [hdevice, hnode, hmetric]

theorem seriesKey_ne_iff : EdgeRecord.seriesKey listener r ≠ EdgeRecord.seriesKey listener r' ↔
    (r.deviceId, r.nodeName, r.sample.metricId) ≠ (r'.deviceId, r'.nodeName, r'.sample.metricId) ∧
      ¬ EdgeRecord.Crossed listener r r' := by
  rw [Ne, seriesKey_eq_iff, ← not_or]
  refine not_congr ⟨?_, ?_⟩
  · rintro ⟨hmetric, hlabel⟩
    by_cases hnames : (r.deviceId, r.nodeName) = (r'.deviceId, r'.nodeName)
    · obtain ⟨hdevice, hnode⟩ := Prod.mk.inj hnames
      left
      rw [hdevice, hnode, hmetric]
    · exact .inr ⟨hmetric, hnames, hlabel⟩
  · rintro (hsame | ⟨hmetric, _, hlabel⟩)
    · obtain ⟨hdevice, hrest⟩ := Prod.mk.inj hsame
      obtain ⟨hnode, hmetric⟩ := Prod.mk.inj hrest
      exact ⟨hmetric, label_congr hdevice hnode hmetric⟩
    · exact ⟨hmetric, hlabel⟩

/-- Names without spaces are never taken for others. -/
theorem not_crossed (hr : ' ' ∉ r.deviceId ∧ ' ' ∉ r.nodeName)
    (hr' : ' ' ∉ r'.deviceId ∧ ' ' ∉ r'.nodeName) : ¬ EdgeRecord.Crossed listener r r' := by
  have hplain : ∀ {title name : Str}, ' ' ∉ title → ' ' ∉ name → ' ' ∉ title ++ '=' :: name := by
    intro title name htitle hname
    simp [htitle, hname]
  have hdeviceTitle : ' ' ∉ "device_id".toList := by decide
  have hnodeTitle : ' ' ∉ "node_name".toList := by decide
  rintro ⟨_, hnames, hlabel⟩
  unfold EdgeRecord.label at hlabel
  obtain ⟨hlabel, hnode⟩ := (Text.append_cons_inj (hplain hnodeTitle hr.2)
    (hplain hnodeTitle hr'.2)).mp hlabel
  obtain ⟨_, hdevice⟩ := (Text.append_cons_inj (hplain hdeviceTitle hr.1)
    (hplain hdeviceTitle hr'.1)).mp hlabel
  exact hnames (Prod.ext (List.cons.inj (append_cancel_left hdevice)).2
    (List.cons.inj (append_cancel_left hnode)).2)

end Keys

section Samples

variable {display : Display} {rest : ExportRest} {timeUnixNano : UInt64} {listener : Str}
  {frame : EdgeMetricsFrame} {sample : EdgeMetricSample}

/-- Attributes with a text each, under different keys. -/
def textAttributes (rest : ExportRest) (entries : List (Str × Str)) : List KeyValue :=
  entries.map fun entry => ⟨entry.1, some (some (.stringValue entry.2)), rest.keyValue⟩

theorem attributeValue_text (entries : List (Str × Str)) (key : Str) :
    attributeValue display (textAttributes rest entries) key =
      (entries.find? (·.1 = key)).map Prod.snd := by
  unfold attributeValue textAttributes
  rw [find?_map, Option.map_map]
  rfl

/-- All attributes of a record are there, in their order. -/
theorem edge_attributes : keyValues rest (edgeWireMetric frame sample).attributes =
    textAttributes rest (edgeWireMetric frame sample).attributes :=
  Protocol.keyValues_of_nodup (Agent.DeviceSocket.nodup_attributes frame sample)

def edgeResource : List (Str × Str) :=
  [("service.name".toList, "skid-edge-wire".toList),
    ("skid_monitor.source".toList, "edge_device".toList)]

theorem resource_attributes : keyValues rest edgeResource = textAttributes rest edgeResource :=
  Protocol.keyValues_of_nodup (by decide)

theorem attributeValue_none {entries : List (Str × Str)} {key : Str}
    (hkey : ∀ entry ∈ entries, entry.1 ≠ key) :
    attributeValue display (textAttributes rest entries) key = none := by
  rw [attributeValue_text, find?_eq_none.mpr (by simpa using hkey)]
  rfl

def edgeKeys : List Str :=
  ["device_id".toList, "node_name".toList, "metric_id".toList, "sensor_id".toList, "sensor".toList]

theorem mem_edgeKeys {entry : Str × Str} (h : entry ∈ (edgeWireMetric frame sample).attributes) :
    entry.1 ∈ edgeKeys := by
  simp only [edgeWireMetric, mem_append, mem_cons, not_mem_nil, or_false,
    Option.mem_toList, Option.map_eq_some_iff] at h
  obtain (rfl | rfl | rfl | rfl) | ⟨name, _, rfl⟩ := h <;>
    simp only [edgeKeys, mem_cons, true_or, or_true]

/-- A key that neither the record nor its resource has. -/
theorem edge_attribute_none {key : Str} (hkey : key ∉ edgeKeys)
    (hresource : key ∉ edgeResource.map Prod.fst) :
    attributeValueIn display (textAttributes rest (edgeWireMetric frame sample).attributes)
      (textAttributes rest edgeResource) key = none := by
  unfold attributeValueIn
  rw [attributeValue_none, attributeValue_none]
  · rfl
  · rintro entry hentry rfl
    exact hresource (mem_map_of_mem hentry)
  · rintro entry hentry rfl
    exact hkey (mem_edgeKeys hentry)

theorem edge_attribute_node :
    attributeValueIn display (textAttributes rest (edgeWireMetric frame sample).attributes)
      (textAttributes rest edgeResource) "node_name".toList = some frame.nodeName := by
  unfold attributeValueIn
  rw [attributeValue_text]
  rfl

theorem edge_attribute_device :
    attributeValueIn display (textAttributes rest (edgeWireMetric frame sample).attributes)
      (textAttributes rest edgeResource) "device_id".toList = some frame.deviceId := by
  unfold attributeValueIn
  rw [attributeValue_text]
  rfl

theorem nodeIdentity_edge : nodeIdentity display (textAttributes rest edgeResource)
      (textAttributes rest (edgeWireMetric frame sample).attributes) "skid-edge-wire".toList
      "edge_device".toList listener = EdgeRecord.node listener (edgeRecord frame sample) := by
  have hservice : isMeaningful "skid-edge-wire".toList = true := by decide
  unfold nodeIdentity EdgeRecord.node
  simp only [nodeIdAttributeKeys, findSome?_cons, findSome?_nil]
  rw [edge_attribute_node, edge_attribute_none (by decide) (by decide),
    edge_attribute_none (by decide) (by decide), edge_attribute_none (by decide) (by decide),
    edge_attribute_device, hservice]
  cases hnode : isMeaningful frame.nodeName <;> cases hdevice : isMeaningful frame.deviceId <;>
    simp [edgeRecord, Option.filter, hnode, hdevice]

/-- Of many attributes three are part of the key. -/
theorem trendKey_text (name source node : Str) (a b c : Str × Str) (more : List (Str × Str)) :
    trendKey display listener name source node (textAttributes rest (a :: b :: c :: more)) =
      listener ++ '/' :: source ++ '/' :: (node ++ '/' :: name ++ ' ' :: (a.1 ++ '=' :: a.2) ++
        ' ' :: (b.1 ++ '=' :: b.2) ++ ' ' :: c.1 ++ '=' :: c.2) := by
  have htext : ∀ (key value : Str) (wire : Wire),
      keyValue display ⟨key, some (some (.stringValue value)), wire⟩ = value := fun _ _ _ => rfl
  simp [trendKey, textAttributes, metricTrendAttrCount, htext]

theorem trendKey_edge : trendKey display listener (metricName sample.metricId)
      "edge_device".toList (EdgeRecord.node listener (edgeRecord frame sample))
      (textAttributes rest (edgeWireMetric frame sample).attributes) =
    EdgeRecord.seriesKey listener (edgeRecord frame sample) :=
  trendKey_text _ _ _ _ _ _ _

def edgeContext (rest : ExportRest) (listener : Str) : SampleContext where
  source := "edge_device".toList
  service := "skid-edge-wire".toList
  scope := "skid-monitor-edge-wire".toList
  resourceAttrs := textAttributes rest edgeResource
  listener

/-- Each exported metric gives one sample. -/
theorem metricToSamples_otlp (metric : Protocol.Metric) (context : SampleContext) : ∃ value kind,
    metricToSamples display (otlpMetric rest timeUnixNano metric) context =
      [sampleOf display (otlpMetric rest timeUnixNano metric) context value (some metric.value) kind
        (keyValues rest metric.attributes)] := by
  obtain ⟨name, value, source, unit, kind, attributes⟩ := metric
  cases kind <;> exact ⟨_, _, rfl⟩

variable (display rest timeUnixNano listener frame)

theorem metricToSamples_edge (sample : EdgeMetricSample) : ∃ m, metricToSamples display
      (otlpMetric rest timeUnixNano (edgeWireMetric frame sample)) (edgeContext rest listener) = [m] ∧
    Derives listener (edgeRecord frame sample) m := by
  obtain ⟨value, kind, hsamples⟩ := metricToSamples_otlp
    (edgeWireMetric frame sample) (edgeContext rest listener)
  rw [hsamples, edge_attributes]
  refine ⟨_, rfl, ?_, rfl⟩
  exact (congrArg (trendKey display listener _ _ · _) nodeIdentity_edge).trans trendKey_edge

theorem derives_edge (samples : List EdgeMetricSample) :
    List.Forall₂ (Derives listener) (samples.map (edgeRecord frame))
      ((samples.map (edgeWireMetric frame)).flatMap fun metric =>
        metricToSamples display (otlpMetric rest timeUnixNano metric)
          (edgeContext rest listener)) := by
  induction samples with
  | nil => exact .nil
  | cons sample samples ih =>
    obtain ⟨m, hm, hderives⟩ :=
      metricToSamples_edge display rest timeUnixNano listener frame sample
    rw [map_cons, map_cons, flatMap_cons, hm]
    exact .cons hderives ih

/-- The samples of the signal are those of the records, one for each and in their order. -/
theorem derives_export (samples : List EdgeMetricSample) :
    List.Forall₂ (Derives listener) (samples.map (edgeRecord frame))
      (metricSamples display (exportMetrics rest (samples.map (edgeWireMetric frame))
        "skid-edge-wire".toList "skid-monitor-edge-wire".toList timeUnixNano) listener) := by
  cases samples with
  | nil => exact .nil
  | cons sample samples =>
    have hsource : ∀ metric ∈ (sample :: samples).map (edgeWireMetric frame),
        metric.source = .edgeDevice := by
      intro metric hmetric
      obtain ⟨_, _, rfl⟩ := mem_map.mp hmetric
      rfl
    rw [Protocol.exportMetrics_of_source (by simp) hsource]
    have hresource : (Protocol.resourceMetrics rest "skid-edge-wire".toList
        "skid-monitor-edge-wire".toList timeUnixNano
        (.edgeDevice, (sample :: samples).map (edgeWireMetric frame))).resource =
        some (textAttributes rest edgeResource) := congrArg some resource_attributes
    simp only [metricSamples, flatMap_cons, flatMap_nil, append_nil, hresource,
      Option.getD_some]
    simp only [Protocol.resourceMetrics, flatMap_cons, flatMap_nil, append_nil,
      flatMap_map]
    have hderives := derives_edge display rest timeUnixNano listener frame (sample :: samples)
    rw [flatMap_map] at hderives
    exact hderives

end Samples

section History

variable {σ : Type} [StateStorage σ] (clock : ℕ → Reading) (display : Display)

/-- The values of a series, of which the last are kept. -/
def keepValues (entry : Option (List F64)) (values : List F64) : Option (List F64) :=
  values.foldl (fun entry value => some (pushCapped (entry.getD []) value maxHistoryPoints)) entry

/-- The values that belong to a key. -/
def valuesOf (key : Str) (samples : List MetricSample) : List F64 :=
  samples.filterMap fun m => if m.trendKey = key then m.numeric else none

theorem history_observeAlert (s : DashboardState σ) (m : MetricSample) :
    (s.observeAlert clock display m).metricHistory = s.metricHistory := by
  unfold DashboardState.observeAlert DashboardState.updateEdgeAlertSeverity
    DashboardState.applyAlert
  split_ifs
  · cases hchange : (s.alerts.observeMetric display m).2 <;> dsimp only <;> split <;> rfl
  · rfl

theorem history_ingestSample (s : DashboardState σ) (m : MetricSample) (key : Str) :
    (s.ingestSample clock display m).metricHistory.lookup key =
      keepValues (s.metricHistory.lookup key) (valuesOf key [m]) := by
  have hkept : (s.ingestSample clock display m).metricHistory =
      (s.pushHistory m).metricHistory := by
    refine (history_observeAlert clock display _ m).trans ?_
    unfold DashboardState.pushHistory
    cases m.numeric <;> rfl
  rw [hkept]
  unfold DashboardState.pushHistory valuesOf
  cases hnumeric : m.numeric with
  | none => simp [keepValues, hnumeric]
  | some value =>
    by_cases hkey : m.trendKey = key
    · subst hkey
      simp [keepValues, hnumeric]
    · simp [keepValues, hkey, SortedMap.lookup_upsert_of_ne (Ne.symm hkey)]

/-- Each entry of the history takes the values of its own key, in their order. -/
theorem history_foldl (samples : List MetricSample) (s : DashboardState σ) (key : Str) :
    (samples.foldl (DashboardState.ingestSample clock display) s).metricHistory.lookup key =
      keepValues (s.metricHistory.lookup key) (valuesOf key samples) := by
  induction samples generalizing s with
  | nil => rfl
  | cons m samples ih =>
    have hsplit : valuesOf key (m :: samples) = valuesOf key [m] ++ valuesOf key samples :=
      filterMap_append (l := [m])
    rw [foldl_cons, ih, history_ingestSample, hsplit, keepValues, keepValues, keepValues,
      foldl_append]

theorem history_ingestSignal (s : DashboardState σ) (listener : Str)
    (request : List (ResourceGroup Metric)) (key : Str) :
    (s.ingestSignal clock display listener (.metrics request)).metricHistory.lookup key =
      keepValues (s.metricHistory.lookup key)
        (valuesOf key (metricSamples display request listener)) :=
  history_foldl clock display _ _ key

end History

section Main

variable {listener : Str} {records : List EdgeRecord} {samples : List MetricSample}

theorem valuesOf_derives (h : List.Forall₂ (Derives listener) records samples) (key : Str) :
    valuesOf key samples =
      (records.filter fun r => EdgeRecord.seriesKey listener r = key).map
        fun r => r.sample.value.toF64 := by
  induction h with
  | nil => rfl
  | @cons r m records samples hderives _ ih =>
    unfold valuesOf at ih ⊢
    by_cases hkey : EdgeRecord.seriesKey listener r = key
    · rw [filterMap_cons_some (by rw [hderives.trendKey, if_pos hkey, hderives.numeric]), ih,
        filter_cons_of_pos (by simpa using hkey), map_cons]
    · rw [filterMap_cons_none (by rw [hderives.trendKey, if_neg hkey]), ih,
        filter_cons_of_neg (by simpa using hkey)]

variable {σ : Type} [StateStorage σ] {rest : ExportRest}
  {timeUnixNano timeUnixNano' : UInt64} {decodeSignalPayload : List UInt8 → Except String Signal}
  {payload payload' : List UInt8} {signal signal' : Signal}

/-- The records of an accepted frame and the samples of its signal belong together. -/
theorem derives_payload (hwire : isEdgeWireFrame payload)
    (h : decodeDevicePayload rest timeUnixNano decodeSignalPayload payload = .ok signal)
    (display : Display) (listener : Str) :
    ∃ records request, recordsOf payload = .ok records ∧ signal = .metrics request ∧
      List.Forall₂ (Derives listener) records (metricSamples display request listener) := by
  obtain ⟨frame, samples, hrecords, rfl⟩ := decodeDevicePayload_ok hwire h
  exact ⟨_, _, hrecords, rfl, derives_export display rest timeUnixNano listener frame samples⟩

/-- Two records are collected in different series exactly if they are of different devices, nodes
or metrics and their names do not read the same once they are joined, as names without spaces never
do. Each series takes the values of its own records. -/
theorem series_apart_iff (clock : ℕ → Reading) (display : Display) (listener : Str)
    (hwire : isEdgeWireFrame payload) (hwire' : isEdgeWireFrame payload')
    (h : decodeDevicePayload rest timeUnixNano decodeSignalPayload payload = .ok signal)
    (h' : decodeDevicePayload rest timeUnixNano' decodeSignalPayload payload' = .ok signal') :
    ∃ records records' request request', recordsOf payload = .ok records ∧
      recordsOf payload' = .ok records' ∧ signal = .metrics request ∧ signal' = .metrics request' ∧
      (metricSamples display request listener).length = records.length ∧
      (metricSamples display request' listener).length = records'.length ∧
      (∀ r m r' m', (r, m) ∈ records.zip (metricSamples display request listener) →
        (r', m') ∈ records'.zip (metricSamples display request' listener) →
        (m.trendKey ≠ m'.trendKey ↔
          (r.deviceId, r.nodeName, r.sample.metricId) ≠
            (r'.deviceId, r'.nodeName, r'.sample.metricId) ∧
          ¬ EdgeRecord.Crossed listener r r') ∧
        (' ' ∉ r.deviceId ∧ ' ' ∉ r.nodeName → ' ' ∉ r'.deviceId ∧ ' ' ∉ r'.nodeName →
          ¬ EdgeRecord.Crossed listener r r')) ∧
      ∀ (s : DashboardState σ) (key : Str),
        (s.ingestSignal clock display listener signal).metricHistory.lookup key =
          keepValues (s.metricHistory.lookup key)
            ((records.filter fun r => EdgeRecord.seriesKey listener r = key).map
              fun r => r.sample.value.toF64) := by
  obtain ⟨records, request, hrecords, rfl, hderives⟩ := derives_payload hwire h display listener
  obtain ⟨records', request', hrecords', rfl, hderives'⟩ :=
    derives_payload hwire' h' display listener
  refine ⟨records, records', request, request', hrecords, hrecords', rfl, rfl,
    hderives.length_eq.symm, hderives'.length_eq.symm, ?_, ?_⟩
  · intro r m r' m' hm hm'
    rw [(forall₂_zip hderives hm).trendKey, (forall₂_zip hderives' hm').trendKey]
    exact ⟨seriesKey_ne_iff, not_crossed⟩
  · intro s key
    rw [history_ingestSignal, valuesOf_derives hderives key]

def plainRest : ExportRest where
  keyValue := ⟨[]⟩
  numberDataPoint _ _ := ⟨[]⟩
  sum := ⟨[]⟩
  histogramDataPoint _ _ := ⟨[]⟩
  histogram := ⟨[]⟩
  metric := ⟨[]⟩
  scopeMetrics := ⟨[]⟩
  resourceMetrics := ⟨[]⟩

def jsonOnly (_ : List UInt8) : Except String Signal := .error "expected value"

/-- Device `a` on node `b` measures the temperature with two sensors, 38.5 and 100 degrees. -/
def sensorsPayload : List UInt8 :=
  [0x53, 0x45, 1, 1, 0, 0, 7, 2, 1, 1, 0x61, 0x62,
    0, 1, 0, 1, 1, 1, 0x42, 0x1a, 0, 0,
    0, 1, 0, 2, 1, 1, 0x42, 0xc8, 0, 0]

def sensorsFrame : EdgeMetricsFrame :=
  ⟨7, 0, ['a'], ['b'], 2, sensorsPayload.drop 12⟩

def sensorSample (sensor : EdgeWire.SensorId) (bits : UInt32) : EdgeMetricSample :=
  ⟨⟨1, by decide⟩, sensor, .gauge, .celsius, ⟨bits⟩⟩

def sensorSamples : List EdgeMetricSample :=
  [sensorSample ⟨1, by decide⟩ 0x421a0000, sensorSample ⟨2, by decide⟩ 0x42c80000]

theorem sensorsPayload_decoded :
    EdgeWire.decodeMetricsFrame sensorsPayload = .ok sensorsFrame ∧
      sensorsFrame.items = sensorSamples.map .ok := by
  have hdevice : Text.fromUtf8 [0x61] = some ['a'] := Text.fromUtf8_toUtf8 ['a']
  have hnode : Text.fromUtf8 [0x62] = some ['b'] := Text.fromUtf8_toUtf8 ['b']
  refine ⟨?_, by decide +kernel⟩
  unfold EdgeWire.decodeMetricsFrame sensorsPayload
  simp [EdgeWire.magic, EdgeWire.version, EdgeWire.frameKindMetrics, EdgeWire.recordLen,
    hdevice, hnode]
  rfl

theorem sensorsPayload_accepted (timeUnixNano : UInt64) :
    decodeDevicePayload plainRest timeUnixNano jsonOnly sensorsPayload =
        .ok (.metrics (exportMetrics plainRest (sensorSamples.map (edgeWireMetric sensorsFrame))
          "skid-edge-wire".toList "skid-monitor-edge-wire".toList timeUnixNano)) ∧
      recordsOf sensorsPayload = .ok (sensorSamples.map (edgeRecord sensorsFrame)) :=
  decodeDevicePayload_of_frame (by decide) sensorsPayload_decoded.1 sensorsPayload_decoded.2

theorem series_apart_iff_sample : ∃ records request,
    recordsOf sensorsPayload = .ok records ∧
    decodeDevicePayload plainRest 0 jsonOnly sensorsPayload = .ok (.metrics request) ∧
    (metricSamples plainDisplay request ['l']).length = records.length := by
  obtain ⟨records, _, request, _, hrecords, _, hsignal, _, hlength, _⟩ :=
    series_apart_iff (σ := List StorageCommand) stoppedClock plainDisplay ['l'] (by decide)
      (by decide) (sensorsPayload_accepted 0).1 (sensorsPayload_accepted 1).1
  exact ⟨records, request, hrecords, (sensorsPayload_accepted 0).1.trans (congrArg _ hsignal),
    hlength⟩

/-- Two sensors of one device share a series, and their values are mixed in it. -/
theorem sensors_share_series : ∃ request r r' m m' value value',
    isEdgeWireFrame sensorsPayload ∧
    decodeDevicePayload plainRest 0 jsonOnly sensorsPayload = .ok (.metrics request) ∧
    recordsOf sensorsPayload = .ok [r, r'] ∧
    metricSamples plainDisplay request ['l'] = [m, m'] ∧
    r.sample.sensorId ≠ r'.sample.sensorId ∧ m.trendKey = m'.trendKey ∧ value ≠ value' ∧
    ((DashboardState.empty (σ := List StorageCommand) none 0).ingestSignal stoppedClock
      plainDisplay ['l'] (.metrics request)).metricHistory.lookup m.trendKey =
      some [value, value'] := by
  let r := edgeRecord sensorsFrame (sensorSample ⟨1, by decide⟩ 0x421a0000)
  let r' := edgeRecord sensorsFrame (sensorSample ⟨2, by decide⟩ 0x42c80000)
  obtain ⟨hsignal, hrecords⟩ := sensorsPayload_accepted 0
  have hderives := derives_export plainDisplay plainRest 0 ['l'] sensorsFrame sensorSamples
  generalize exportMetrics plainRest _ _ _ _ = request at hsignal hderives
  have hkeys : EdgeRecord.seriesKey ['l'] r' = EdgeRecord.seriesKey ['l'] r :=
    seriesKey_eq_iff.mpr ⟨rfl, label_congr rfl rfl rfl⟩
  have hhistory := history_ingestSignal stoppedClock plainDisplay
    (DashboardState.empty (σ := List StorageCommand) none 0) ['l'] request
    (EdgeRecord.seriesKey ['l'] r)
  rw [valuesOf_derives hderives] at hhistory
  have hboth : (sensorSamples.map (edgeRecord sensorsFrame)).filter
      (fun x => EdgeRecord.seriesKey ['l'] x = EdgeRecord.seriesKey ['l'] r) = [r, r'] := by
    change [r, r'].filter _ = _
    simp [hkeys]
  rw [hboth] at hhistory
  obtain ⟨m, _, hm, hrest, hsamples⟩ := forall₂_cons_left_iff.mp hderives
  obtain ⟨m', _, hm', hnil, rfl⟩ := forall₂_cons_left_iff.mp hrest
  obtain rfl := forall₂_nil_left_iff.mp hnil
  refine ⟨request, r, r', m, m', r.sample.value.toF64, r'.sample.value.toF64, by decide, hsignal,
    hrecords, hsamples, by decide, ?_, ?_, ?_⟩
  · rw [hm.trendKey, hm'.trendKey]
    exact hkeys.symm
  · change F32.toF64 ⟨0x421a0000⟩ ≠ F32.toF64 ⟨0x42c80000⟩
    unfold F32.toF64
    decide
  · rw [hm.trendKey]
    exact hhistory

end Main

end SkidMonitor.Client
