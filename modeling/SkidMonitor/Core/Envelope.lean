import SkidMonitor.Lib.Float64
import SkidMonitor.Lib.Text
import SkidMonitor.Lib.Uuid

/-! Identifiers, signals and the envelope they travel in. -/
namespace SkidMonitor

open Uuids (Uuid)

structure EventId where
  uuid : Uuid
  deriving DecidableEq, Repr

structure TenantId where
  uuid : Uuid
  deriving DecidableEq, Repr

inductive IdError where
  | empty
  | tooLong (max : ℕ)
  | controlCharacter
  deriving DecidableEq, Repr

/-- The text of the error, as it is displayed. -/
def IdError.toText : IdError → String
  | .empty => "identifier must not be empty"
  | .tooLong max => "identifier must be at most " ++ toString max ++ " bytes"
  | .controlCharacter => "identifier must not contain control characters"

def maxAgentIdBytes : ℕ := 255

/-- An agent identifier: a trimmed, nonempty text of bounded size without control
characters. -/
structure AgentId where
  text : Str
  trimmed : Text.trim text = text
  nonempty : text ≠ []
  bounded : Text.byteLength text ≤ maxAgentIdBytes
  printable : text.any Text.isControl = false
  deriving DecidableEq, Repr

def AgentId.new (value : Str) : Except IdError AgentId :=
  let trimmed := Text.trim value
  if hempty : trimmed = [] then .error .empty
  else if hlong : Text.byteLength trimmed > maxAgentIdBytes then .error (.tooLong maxAgentIdBytes)
  else if hcontrol : trimmed.any Text.isControl then .error .controlCharacter
  else .ok ⟨trimmed, Text.trim_trim value, hempty, not_lt.mp hlong, Bool.eq_false_iff.mpr hcontrol⟩

def AgentId.sampleA : AgentId := ⟨['a'], by decide, by decide, by decide, by decide⟩
def AgentId.sampleB : AgentId := ⟨['b'], by decide, by decide, by decide, by decide⟩

/-- A stored identifier passes its own check again. -/
@[simp] theorem AgentId.new_text (a : AgentId) : AgentId.new a.text = .ok a := by
  unfold AgentId.new
  simp only [a.trimmed, dif_neg a.nonempty, dif_neg (not_lt.mpr a.bounded), a.printable]
  rfl

theorem AgentId.text_injective : Function.Injective AgentId.text := by
  intro a b h
  cases a
  cases b
  cases h
  rfl

/-- Identifiers are ordered as their texts. -/
instance : LinearOrder AgentId := LinearOrder.lift' AgentId.text AgentId.text_injective

inductive SignalScope where
  | solo
  | tenant (tenantId : TenantId)
  deriving DecidableEq, Repr

def SignalScope.tenantId : SignalScope → Option TenantId
  | .solo => none
  | .tenant tenantId => some tenantId

inductive SignalKind where
  | metrics
  | traces
  | logs
  deriving DecidableEq, Repr

/-- The encoding of the fields of a message that are not spelled out here. -/
structure Wire where
  bytes : List UInt8
  deriving DecidableEq, Repr

/-- The value of an attribute; of nested values only the number is read. -/
inductive AnyValue where
  | stringValue (value : Str)
  | boolValue (value : Bool)
  | intValue (value : Int64)
  | doubleValue (value : F64)
  | arrayValue (values : List Wire)
  | kvlistValue (values : List Wire)
  | bytesValue (value : List UInt8)
  | stringValueStrindex (value : Int32)
  deriving DecidableEq, Repr

/-- The value may be absent, and a value may be there and hold nothing. -/
structure KeyValue where
  key : Str
  value : Option (Option AnyValue)
  rest : Wire
  deriving DecidableEq, Repr

inductive NumberValue where
  | asDouble (value : F64)
  | asInt (value : Int64)
  deriving DecidableEq, Repr

structure NumberDataPoint where
  attributes : List KeyValue
  value : Option NumberValue
  rest : Wire
  deriving DecidableEq, Repr

/-- A point of a histogram of either kind. -/
structure HistogramDataPoint where
  attributes : List KeyValue
  count : UInt64
  sum : Option F64
  rest : Wire
  deriving DecidableEq, Repr

structure SummaryDataPoint where
  attributes : List KeyValue
  count : UInt64
  sum : F64
  rest : Wire
  deriving DecidableEq, Repr

inductive MetricData where
  | gauge (dataPoints : List NumberDataPoint)
  | sum (dataPoints : List NumberDataPoint) (rest : Wire)
  | histogram (dataPoints : List HistogramDataPoint) (rest : Wire)
  | exponentialHistogram (dataPoints : List HistogramDataPoint) (rest : Wire)
  | summary (dataPoints : List SummaryDataPoint)
  deriving DecidableEq, Repr

structure Metric where
  name : Str
  unit : Str
  data : Option MetricData
  rest : Wire
  deriving DecidableEq, Repr

/-- The records of one instrumentation scope, with its name. -/
structure ScopeGroup (ρ : Type) where
  scope : Option Str
  records : List ρ
  rest : Wire
  deriving DecidableEq, Repr

/-- The scopes of one resource, with its attributes. -/
structure ResourceGroup (ρ : Type) where
  resource : Option (List KeyValue)
  scopes : List (ScopeGroup ρ)
  rest : Wire
  deriving DecidableEq, Repr

inductive Signal where
  | metrics (resourceMetrics : List (ResourceGroup Metric))
  | traces (resourceSpans : List (ResourceGroup Wire))
  | logs (resourceLogs : List (ResourceGroup Wire))
  deriving DecidableEq, Repr

structure SignalEnvelope where
  eventId : EventId
  scope : SignalScope
  agentId : AgentId
  sequence : UInt64
  receivedAtUnixNano : UInt64
  payload : Signal
  deriving DecidableEq, Repr

def SignalEnvelope.kind (envelope : SignalEnvelope) : SignalKind :=
  match envelope.payload with
  | .metrics _ => .metrics
  | .traces _ => .traces
  | .logs _ => .logs

structure SignalCursor where
  value : UInt64
  deriving DecidableEq, Repr

structure AppendOutcome where
  cursor : SignalCursor
  inserted : Bool
  deriving DecidableEq, Repr

structure SignalRecord where
  cursor : SignalCursor
  envelope : SignalEnvelope
  deriving DecidableEq, Repr

/-- The bytes of texts of ASCII characters. -/
def asciiBytes (pieces : List String) : List UInt8 :=
  pieces.flatMap fun text => text.toList.map fun c => c.toNat.toUInt8

namespace Sample

/-- Two signals and their JSON texts. -/
def texts : List (Signal × List UInt8) :=
  [(.metrics [], asciiBytes ["\x7b\"Metrics\":\x7b\"resourceMetrics\":[]\x7d\x7d"]),
    (.logs [], asciiBytes ["\x7b\"Logs\":\x7b\"resourceLogs\":[]\x7d\x7d"])]

def toVec (signal : Signal) : Except String (List UInt8) :=
  (texts.lookup signal).elim (.error "unknown signal") .ok

def fromSlice (text : List UInt8) : Except String Signal :=
  (texts.find? (·.2 = text)).elim (.error "unknown text") fun row => .ok row.1

end Sample

end SkidMonitor
