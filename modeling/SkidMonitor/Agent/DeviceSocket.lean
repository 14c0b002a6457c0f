import SkidMonitor.Core.EdgeWire
import SkidMonitor.Core.Metrics
import SkidMonitor.Lib.Numeral

/-! The payloads devices send to the agent: a compact frame, which becomes a metrics signal, or a
signal as it is. -/
namespace SkidMonitor.Agent.DeviceSocket

open EdgeWire (EdgeMetricsFrame EdgeMetricSample MetricId isEdgeWireFrame decodeMetricsFrame)
open Protocol (ExportRest exportMetrics)

def metricName (metricId : MetricId) : Str :=
  (EdgeWire.MetricId.knownName metricId).getD
    ("edge.metric.".toList ++ Numeral.print metricId.value.toNat)

def edgeWireMetric (frame : EdgeMetricsFrame) (sample : EdgeMetricSample) : Protocol.Metric where
  name := metricName sample.metricId
  value := sample.value.toF64
  source := .edgeDevice
  unit := sample.unit.asStr
  kind := match sample.kind with
    | .gauge => .gauge
    | .sum => .sum
    | .histogram => .histogram
  attributes :=
    [("device_id".toList, frame.deviceId), ("node_name".toList, frame.nodeName),
      ("metric_id".toList, Numeral.print sample.metricId.value.toNat),
      ("sensor_id".toList, Numeral.print sample.sensorId.value.toNat)] ++
    ((EdgeWire.SensorId.knownName sample.sensorId).map ("sensor".toList, ·)).toList

theorem nodup_attributes (frame : EdgeMetricsFrame) (sample : EdgeMetricSample) :
    ((edgeWireMetric frame sample).attributes.map Prod.fst).Nodup := by
  cases hname : EdgeWire.SensorId.knownName sample.sensorId with
  | none =>
    simp only [edgeWireMetric, hname]
    change ["device_id".toList, "node_name".toList, "metric_id".toList, "sensor_id".toList].Nodup
    decide
  | some name =>
    simp only [edgeWireMetric, hname]
    change ["device_id".toList, "node_name".toList, "metric_id".toList, "sensor_id".toList,
      "sensor".toList].Nodup
    decide

section Decode

variable (rest : ExportRest) (timeUnixNano : UInt64)
  (decodeSignalPayload : List UInt8 → Except String Signal)

def invalidFrame (err : EdgeWire.DecodeError) : String := "edge-wire frame: " ++ err.debug

def invalidRecord (err : EdgeWire.DecodeError) : String := "edge-wire record: " ++ err.debug

/-- The first record that cannot be read fails the whole payload. -/
def decodeEdgeWirePayload (payload : List UInt8) : Except String Signal := do
  let frame ← (decodeMetricsFrame payload).mapError invalidFrame
  let samples ← frame.items.mapM (·.mapError invalidRecord)
  return .metrics (exportMetrics rest (samples.map (edgeWireMetric frame)) "skid-edge-wire".toList
    "skid-monitor-edge-wire".toList timeUnixNano)

def decodeDevicePayload (payload : List UInt8) : Except String Signal :=
  if isEdgeWireFrame payload then decodeEdgeWirePayload rest timeUnixNano payload
  else decodeSignalPayload payload

end Decode

/-- A record of a frame, with the names the frame gives. -/
structure EdgeRecord where
  deviceId : Str
  nodeName : Str
  sample : EdgeMetricSample
  deriving DecidableEq

def edgeRecord (frame : EdgeMetricsFrame) (sample : EdgeMetricSample) : EdgeRecord :=
  ⟨frame.deviceId, frame.nodeName, sample⟩

/-- The records of a frame, unless one of them cannot be read. -/
def recordsOf (payload : List UInt8) : Except EdgeWire.DecodeError (List EdgeRecord) := do
  let frame ← decodeMetricsFrame payload
  let samples ← frame.items.mapM id
  return samples.map (edgeRecord frame)

theorem mapM_mapError {ε ε' α : Type} {f : ε → ε'} {items : List (Except ε α)} {as : List α}
    (h : items.mapM (·.mapError f) = .ok as) : items.mapM id = .ok as := by
  induction items generalizing as with
  | nil =>
    cases h
    rfl
  | cons item items ih =>
    rw [List.mapM_cons] at h ⊢
    cases item with
    | error err => cases h
    | ok a =>
      cases hrest : items.mapM (·.mapError f) with
      | error err =>
        rw [hrest] at h
        cases h
      | ok as' =>
        rw [hrest] at h
        cases h
        rw [ih hrest]
        rfl

variable {rest : ExportRest} {timeUnixNano : UInt64} {payload : List UInt8} {signal : Signal}
  {decodeSignalPayload : List UInt8 → Except String Signal}

/-- An accepted frame becomes the metrics of its records. -/
theorem decodeDevicePayload_ok (hwire : isEdgeWireFrame payload)
    (h : decodeDevicePayload rest timeUnixNano decodeSignalPayload payload = .ok signal) :
    ∃ (frame : EdgeMetricsFrame) (samples : List EdgeMetricSample),
      recordsOf payload = .ok (samples.map (edgeRecord frame)) ∧
      signal = .metrics (exportMetrics rest (samples.map (edgeWireMetric frame))
        "skid-edge-wire".toList "skid-monitor-edge-wire".toList timeUnixNano) := by
  rw [decodeDevicePayload, if_pos hwire] at h
  unfold decodeEdgeWirePayload at h
  cases hframe : decodeMetricsFrame payload with
  | error err =>
    rw [hframe] at h
    cases h
  | ok frame =>
    rw [hframe] at h
    cases hsamples : frame.items.mapM (·.mapError invalidRecord) with
    | error err =>
      simp only [Except.mapError, bind, Except.bind] at h hsamples
      rw [hsamples] at h
      cases h
    | ok samples =>
      have hread := mapM_mapError hsamples
      simp only [Except.mapError, bind, Except.bind] at h hsamples
      rw [hsamples] at h
      cases h
      refine ⟨frame, samples, ?_, rfl⟩
      simp only [recordsOf, hframe, bind, Except.bind]
      rw [hread]
      rfl

theorem mapM_map_ok {ε ε' α : Type} {f : Except ε α → Except ε' α} (hf : ∀ a, f (.ok a) = .ok a)
    (as : List α) : (as.map Except.ok).mapM f = .ok as := by
  induction as with
  | nil => rfl
  | cons a as ih =>
    rw [List.map_cons, List.mapM_cons, hf, ih]
    rfl

/-- A frame whose records can all be read is accepted. -/
theorem decodeDevicePayload_of_frame {frame : EdgeMetricsFrame} {samples : List EdgeMetricSample}
    (hwire : isEdgeWireFrame payload) (hframe : decodeMetricsFrame payload = .ok frame)
    (hitems : frame.items = samples.map .ok) :
    decodeDevicePayload rest timeUnixNano decodeSignalPayload payload =
        .ok (.metrics (exportMetrics rest (samples.map (edgeWireMetric frame))
          "skid-edge-wire".toList "skid-monitor-edge-wire".toList timeUnixNano)) ∧
      recordsOf payload = .ok (samples.map (edgeRecord frame)) := by
  rw [decodeDevicePayload, if_pos hwire]
  unfold decodeEdgeWirePayload recordsOf
  rw [hframe]
  simp only [Except.mapError, bind, Except.bind]
  rw [hitems, mapM_map_ok (fun _ => rfl), mapM_map_ok (fun _ => rfl)]
  exact ⟨rfl, rfl⟩

end SkidMonitor.Agent.DeviceSocket
