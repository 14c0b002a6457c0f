import SkidMonitor.Agent.DeviceSocket
import SkidMonitor.Core.EdgeRoundTrip

/-! Which decoder a device's payload goes to, and what a written frame becomes. -/
namespace SkidMonitor.Agent.DeviceSocket

open List

open EdgeWire (EdgeIdentity EdgeMetricSample EdgeMetricsFrame RawSample isEdgeWireFrame
  encodeMetricsFrame)
open Protocol (ExportRest exportMetrics keyValues)

variable {rest : ExportRest} {timeUnixNano : UInt64} {identity : EdgeIdentity}
  {samples : List EdgeMetricSample} {sample : EdgeMetricSample} {payload : List UInt8}

/-- The text attributes of a list, in order. -/
def HasTexts (attributes : List KeyValue) (entries : List (Str × Str)) : Prop :=
  attributes.map (fun kv => (kv.key, kv.value)) =
    entries.map fun entry => (entry.1, some (some (.stringValue entry.2)))

/-- Kind, value and attributes of a metric with one data point. -/
def onlyPoint (metric : Metric) : Option (EdgeWire.MetricKind × F64 × List KeyValue) :=
  match metric.data with
  | some (.gauge [⟨attributes, some (.asDouble value), _⟩]) => some (.gauge, value, attributes)
  | some (.sum [⟨attributes, some (.asDouble value), _⟩] _) => some (.sum, value, attributes)
  | some (.histogram [⟨attributes, 1, some value, _⟩] _) => some (.histogram, value, attributes)
  | _ => none

/-- The metric says of the sample all the frame said. -/
structure Carries (identity : EdgeIdentity) (sample : EdgeMetricSample) (metric : Metric) :
    Prop where
  name : metric.name = metricName sample.metricId
  unit : metric.unit = sample.unit.asStr.getD []
  point : ∃ attributes, onlyPoint metric = some (sample.kind, sample.value.toF64, attributes) ∧
    HasTexts attributes ([("device_id".toList, identity.deviceId),
      ("node_name".toList, identity.nodeName),
      ("metric_id".toList, Numeral.print sample.metricId.value.toNat),
      ("sensor_id".toList, Numeral.print sample.sensorId.value.toNat)] ++
      ((EdgeWire.SensorId.knownName sample.sensorId).map ("sensor".toList, ·)).toList)

theorem hasTexts_keyValues {entries : List (Str × Str)}
    (h : (entries.map Prod.fst).Nodup) : HasTexts (keyValues rest entries) entries := by
  rw [HasTexts, Protocol.keyValues_of_nodup h, map_map]
  rfl

theorem carries_otlpMetric (frame : EdgeMetricsFrame) (sample : EdgeMetricSample) :
    Carries ⟨frame.deviceId, frame.nodeName⟩ sample
      (Protocol.otlpMetric rest timeUnixNano (edgeWireMetric frame sample)) where
  name := rfl
  unit := rfl
  point := by
    refine ⟨keyValues rest (edgeWireMetric frame sample).attributes, ?_,
      hasTexts_keyValues (nodup_attributes frame sample)⟩
    obtain ⟨metricId, sensorId, kind, unit, value⟩ := sample
    cases kind <;> rfl

/-- The one group of a device, with the metrics of its samples. -/
structure DeviceGroup (identity : EdgeIdentity) (samples : List EdgeMetricSample)
    (group : ResourceGroup Metric) : Prop where
  source : ∃ attributes, group.resource = some attributes ∧
    HasTexts attributes [("service.name".toList, "skid-edge-wire".toList),
      ("skid_monitor.source".toList, "edge_device".toList)]
  metrics : ∃ scope, group.scopes = [scope] ∧
    List.Forall₂ (Carries identity) samples scope.records

theorem deviceGroup_resourceMetrics (frame : EdgeMetricsFrame) (samples : List EdgeMetricSample) :
    DeviceGroup ⟨frame.deviceId, frame.nodeName⟩ samples
      (Protocol.resourceMetrics rest "skid-edge-wire".toList "skid-monitor-edge-wire".toList
        timeUnixNano (.edgeDevice, samples.map (edgeWireMetric frame))) where
  source := by
    refine ⟨_, rfl, hasTexts_keyValues ?_⟩
    change ["service.name".toList, "skid_monitor.source".toList].Nodup
    decide
  metrics := by
    refine ⟨_, rfl, ?_⟩
    dsimp only
    rw [map_map, forall₂_map_right_iff, forall₂_same]
    exact fun sample _ => carries_otlpMetric frame sample

/-- An object's text: white space, then a brace. -/
def IsObjectText (bytes : List UInt8) : Prop :=
  ∃ space body, bytes = space ++ 0x7B :: body ∧
    ∀ b ∈ space, b = 0x20 ∨ b = 0x09 ∨ b = 0x0A ∨ b = 0x0D

theorem not_isEdgeWireFrame (h : IsObjectText payload) : isEdgeWireFrame payload = false := by
  obtain ⟨space, body, rfl, hspace⟩ := h
  have hhead : ∀ b rest, space ++ 0x7B :: body = b :: rest → b ≠ 0x53 := by
    rintro b rest heq rfl
    cases space with
    | nil => cases heq
    | cons b' space =>
      obtain ⟨rfl, -⟩ := List.cons.inj heq
      rcases forall_mem_cons.mp hspace |>.1 with h | h | h | h <;> cases h
  cases hbytes : space ++ 0x7B :: body with
  | nil => rfl
  | cons b rest =>
    have hne := hhead b rest hbytes
    simp [isEdgeWireFrame, EdgeWire.magic, hne]

/-- The bytes of a written frame are taken for a frame. -/
theorem isEdgeWireFrame_bytes (frame : EdgeMetricsFrame) : isEdgeWireFrame frame.bytes := by
  simp [isEdgeWireFrame, EdgeMetricsFrame.bytes, EdgeWire.magic, EdgeWire.headerLen]
  omega

/-- A frame that was written becomes the metrics of its samples, and the text of a signal goes to
the decoder of signals. -/
theorem device_payload_dispatch (rest : ExportRest) (timeUnixNano : UInt64)
    (encodeSignal : Signal → List UInt8) (decodeSignalPayload : List UInt8 → Except String Signal)
    (hjson : ∀ signal, IsObjectText (encodeSignal signal)) :
    (∀ out seq identity metrics out' n,
      encodeMetricsFrame out seq identity metrics = some (out', .ok n) →
      ∃ samples groups, samples.map EdgeMetricSample.raw = metrics ∧
        decodeDevicePayload rest timeUnixNano decodeSignalPayload (out'.take n) =
          .ok (.metrics groups) ∧
        (samples = [] → groups = []) ∧
        (samples ≠ [] → ∃ group, groups = [group] ∧ DeviceGroup identity samples group)) ∧
      ∀ signal, decodeDevicePayload rest timeUnixNano decodeSignalPayload (encodeSignal signal) =
        decodeSignalPayload (encodeSignal signal) := by
  refine ⟨fun out seq identity metrics out' n hencode => ?_, fun signal => ?_⟩
  · have haccepted : EdgeWire.Accepted out identity metrics := by
      by_contra h
      obtain ⟨err, herr⟩ := EdgeWire.encodeMetricsFrame_of_not_accepted seq h
      rw [herr] at hencode
      cases hencode
    obtain ⟨samples, rfl⟩ := EdgeWire.exists_checked haccepted.metricIds haccepted.sensorIds
    rw [EdgeWire.encodeMetricsFrame_of_accepted seq haccepted] at hencode
    cases hencode
    have hcount := haccepted.count
    rw [length_map] at hcount
    have hframe := EdgeWire.decodeMetricsFrame_bytes
      (EdgeWire.wellFormed_writtenFrame seq haccepted)
    have hfuel := EdgeWire.toNat_writtenCount seq identity haccepted.count
    rw [length_map] at hfuel
    have hitems := EdgeWire.items_writtenFrame seq identity hcount hfuel.ge
    have hdecode : decodeDevicePayload rest timeUnixNano decodeSignalPayload _ = _ :=
      (decodeDevicePayload_of_frame (isEdgeWireFrame_bytes _) hframe hitems).1
    rw [Bytes.take_fill]
    refine ⟨samples, _, rfl, hdecode, ?_, ?_⟩
    · rintro rfl
      rfl
    · intro hne
      have hmap : ∀ {frame}, samples.map (edgeWireMetric frame) ≠ [] := by simpa using hne
      refine ⟨_, Protocol.exportMetrics_of_source hmap
        (forall_mem_map.mpr fun _ _ => rfl) _ _ _, ?_⟩
      exact deviceGroup_resourceMetrics
        (EdgeWire.writtenFrame seq identity (samples.map EdgeMetricSample.raw)) samples
  · exact if_neg (by simp [not_isEdgeWireFrame (hjson signal)])

def bareRest : ExportRest :=
  ⟨⟨[]⟩, fun _ _ => ⟨[]⟩, ⟨[]⟩, fun _ _ => ⟨[]⟩, ⟨[]⟩, ⟨[]⟩, ⟨[]⟩, ⟨[]⟩⟩

/-- A frame with one sample, and the text of a signal. -/
theorem device_payload_dispatch_sample :
    let raw : RawSample := ⟨1, 1, .gauge, .celsius, ⟨0x41C80000⟩⟩
    let identity : EdgeIdentity := ⟨"dev".toList, "node".toList⟩
    let text : List UInt8 := (Sample.texts.lookup (.logs [])).getD []
    (∃ out n samples group,
      encodeMetricsFrame (List.replicate 64 0) 7 identity [raw] = some (out, .ok n) ∧
      samples.map EdgeMetricSample.raw = [raw] ∧
      decodeDevicePayload bareRest 0 Sample.fromSlice (out.take n) = .ok (.metrics [group]) ∧
      DeviceGroup identity samples group) ∧
    decodeDevicePayload bareRest 0 Sample.fromSlice text = .ok (.logs []) := by
  intro raw identity text
  -- A signal that is not in the table is written as an empty object.
  let encodeSignal (signal : Signal) : List UInt8 :=
    (Sample.texts.lookup signal).getD (asciiBytes ["\x7b\x7d"])
  have hobject : ∀ signal, IsObjectText (encodeSignal signal) := by
    intro signal
    simp only [encodeSignal, Sample.texts, lookup]
    split
    · exact ⟨[], _, rfl, by simp⟩
    · split <;> exact ⟨[], _, rfl, by simp⟩
  obtain ⟨hframe, hsignal⟩ := device_payload_dispatch bareRest 0 encodeSignal Sample.fromSlice hobject
  refine ⟨?_, hsignal (.logs [])⟩
  have haccepted : EdgeWire.Accepted (List.replicate 64 0) identity [raw] := by
    constructor <;> decide +kernel
  have hencode := EdgeWire.encodeMetricsFrame_of_accepted 7 haccepted
  obtain ⟨samples, groups, hraw, hdecode, -, hgroups⟩ := hframe _ _ _ _ _ _ hencode
  obtain ⟨group, rfl, hgroup⟩ := hgroups (by rintro rfl; cases hraw)
  exact ⟨_, _, samples, group, hencode, hraw, hdecode, hgroup⟩

end SkidMonitor.Agent.DeviceSocket
