import SkidMonitor.Lib.Bytes
import SkidMonitor.Lib.Float64
import SkidMonitor.Lib.Text

/-! The compact frame in which small devices send their measurements: a header, two names and a
number of records of ten bytes. -/
namespace SkidMonitor.EdgeWire

open Bytes (u16FromBe u32FromBe)

def magic : List UInt8 := [0x53, 0x45]
def version : UInt8 := 1
def frameKindMetrics : UInt8 := 1
def headerLen : ℕ := 10
def recordLen : ℕ := 10

inductive DecodeError where
  | tooShort
  | badMagic
  | unsupportedVersion
  | unsupportedKind
  | invalidUtf8
  | truncatedIdentity
  | badRecordLength
  | reservedMetricId
  | reservedSensorId
  | unknownMetricKind
  | unknownUnit
  deriving DecidableEq, Repr

/-- The name of the error, as it is printed for debugging. -/
def DecodeError.debug : DecodeError → String
  | .tooShort => "TooShort"
  | .badMagic => "BadMagic"
  | .unsupportedVersion => "UnsupportedVersion"
  | .unsupportedKind => "UnsupportedKind"
  | .invalidUtf8 => "InvalidUtf8"
  | .truncatedIdentity => "TruncatedIdentity"
  | .badRecordLength => "BadRecordLength"
  | .reservedMetricId => "ReservedMetricId"
  | .reservedSensorId => "ReservedSensorId"
  | .unknownMetricKind => "UnknownMetricKind"
  | .unknownUnit => "UnknownUnit"

/-- The number of a metric or a sensor; zero is reserved. -/
structure EdgeId where
  value : UInt16
  nonzero : value ≠ 0
  deriving DecidableEq, Repr

abbrev MetricId := EdgeId
abbrev SensorId := EdgeId

def EdgeId.new (value : UInt16) : Option EdgeId := if h : value = 0 then none else some ⟨value, h⟩

def MetricId.knownName (id : MetricId) : Option Str :=
  match id.value.toNat with
  | 1 => some "edge.temperature".toList
  | 2 => some "edge.voltage.input".toList
  | 3 => some "edge.network.rssi".toList
  | 4 => some "edge.boot.count".toList
  | 5 => some "edge.watchdog.resets".toList
  | _ => none

def SensorId.knownName (id : SensorId) : Option Str :=
  match id.value.toNat with
  | 1 => some "enclosure".toList
  | 2 => some "power".toList
  | 3 => some "wifi".toList
  | 4 => some "runtime".toList
  | _ => none

inductive MetricKind where
  | gauge
  | sum
  | histogram
  deriving DecidableEq, Repr

def MetricKind.fromU8 (value : UInt8) : Option MetricKind :=
  match value.toNat with
  | 1 => some .gauge
  | 2 => some .sum
  | 3 => some .histogram
  | _ => none

inductive MeasureUnit where
  | none
  | celsius
  | volt
  | dbm
  | count
  | percent
  deriving DecidableEq, Repr

def MeasureUnit.fromU8 (value : UInt8) : Option MeasureUnit :=
  match value.toNat with
  | 0 => some .none
  | 1 => some .celsius
  | 2 => some .volt
  | 3 => some .dbm
  | 4 => some .count
  | 5 => some .percent
  | _ => Option.none

def MeasureUnit.asStr : MeasureUnit → Option Str
  | .none => Option.none
  | .celsius => some "C".toList
  | .volt => some "V".toList
  | .dbm => some "dBm".toList
  | .count => some "1".toList
  | .percent => some "%".toList

structure EdgeMetricSample where
  metricId : MetricId
  sensorId : SensorId
  kind : MetricKind
  unit : MeasureUnit
  value : F32
  deriving DecidableEq, Repr

structure EdgeMetricsFrame where
  seq : UInt16
  flags : UInt8
  deviceId : Str
  nodeName : Str
  metricCount : UInt8
  records : List UInt8
  deriving DecidableEq, Repr

structure EdgeMetricIter where
  records : List UInt8
  remaining : ℕ

def decodeRecord (metric sensor : UInt16) (kind unit : UInt8) (value : UInt32) :
    Except DecodeError EdgeMetricSample := do
  let metricId ← (EdgeId.new metric).elim (.error .reservedMetricId) .ok
  let sensorId ← (EdgeId.new sensor).elim (.error .reservedSensorId) .ok
  let kind ← (MetricKind.fromU8 kind).elim (.error .unknownMetricKind) .ok
  let unit ← (MeasureUnit.fromU8 unit).elim (.error .unknownUnit) .ok
  return { metricId, sensorId, kind, unit, value := ⟨value⟩ }

def EdgeMetricIter.next (iter : EdgeMetricIter) :
    Option (Except DecodeError EdgeMetricSample × EdgeMetricIter) :=
  match iter.remaining with
  | 0 => none
  | remaining + 1 =>
    match iter.records with
    | m :: m' :: s :: s' :: kind :: unit :: a :: b :: c :: d :: records =>
      some (decodeRecord (u16FromBe m m') (u16FromBe s s') kind unit (u32FromBe a b c d),
        ⟨records, remaining⟩)
    -- fewer than `recordLen` bytes are left
    | _ => some (.error .badRecordLength, { iter with remaining := 0 })

/-- Everything the iterator yields. -/
def EdgeMetricIter.items (fuel : ℕ) (iter : EdgeMetricIter) :
    List (Except DecodeError EdgeMetricSample) :=
  match fuel, iter.next with
  | fuel + 1, some (item, iter) => item :: items fuel iter
  | _, _ => []

def EdgeMetricsFrame.iter (frame : EdgeMetricsFrame) : EdgeMetricIter :=
  ⟨frame.records, frame.metricCount.toNat⟩

def EdgeMetricsFrame.items (frame : EdgeMetricsFrame) : List (Except DecodeError EdgeMetricSample) :=
  frame.iter.items frame.metricCount.toNat

def isEdgeWireFrame (input : List UInt8) : Bool :=
  input.length ≥ headerLen ∧ input.take 2 = magic

def decodeMetricsFrame (input : List UInt8) : Except DecodeError EdgeMetricsFrame :=
  match input with
  | m :: m' :: v :: kind :: flags :: s :: s' :: metricCount :: deviceIdLen :: nodeNameLen :: rest => do
    if [m, m'] ≠ magic then throw .badMagic
    if v ≠ version then throw .unsupportedVersion
    if kind ≠ frameKindMetrics then throw .unsupportedKind
    if rest.length < deviceIdLen.toNat + nodeNameLen.toNat then throw .truncatedIdentity
    let named := rest.drop deviceIdLen.toNat
    let deviceId ← (Text.fromUtf8 (rest.take deviceIdLen.toNat)).elim (.error .invalidUtf8) .ok
    let nodeName ← (Text.fromUtf8 (named.take nodeNameLen.toNat)).elim (.error .invalidUtf8) .ok
    let records := named.drop nodeNameLen.toNat
    if records.length ≠ metricCount.toNat * recordLen then throw .badRecordLength
    return { seq := u16FromBe s s', flags, deviceId, nodeName, metricCount, records }
  -- fewer than `headerLen` bytes
  | _ => .error .tooShort

end SkidMonitor.EdgeWire
