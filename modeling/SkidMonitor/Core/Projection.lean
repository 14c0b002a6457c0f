import SkidMonitor.Core.Envelope
import SkidMonitor.Lib.SortedMap

/-! The running totals kept for each tenant. -/
namespace SkidMonitor

def saturatingAdd (a b : UInt64) : UInt64 :=
  if a.toNat + b.toNat < 2 ^ 64 then a + b else UInt64.ofNat (2 ^ 64 - 1)

theorem toNat_saturatingAdd (a b : UInt64) :
    (saturatingAdd a b).toNat = min (a.toNat + b.toNat) (2 ^ 64 - 1) := by
  unfold saturatingAdd
  split_ifs with h
  · rw [UInt64.toNat_add, Nat.mod_eq_of_lt h]
    omega
  · rw [UInt64.toNat_ofNat']
    omega

structure SignalCounters where
  metricBatches : UInt64
  metricPoints : UInt64
  traceBatches : UInt64
  spans : UInt64
  logBatches : UInt64
  logRecords : UInt64
  deriving DecidableEq, Repr

def SignalCounters.default : SignalCounters := ⟨0, 0, 0, 0, 0, 0⟩

def metricDataPointCount (metric : Metric) : ℕ :=
  match metric.data with
  | some (.gauge dataPoints) => dataPoints.length
  | some (.sum dataPoints _) => dataPoints.length
  | some (.histogram dataPoints _) => dataPoints.length
  | some (.exponentialHistogram dataPoints _) => dataPoints.length
  | some (.summary dataPoints) => dataPoints.length
  | none => 0

/-- A sum over the records of all scopes of all resources, as a 64-bit integer. -/
def countRecords {ρ : Type} (count : ρ → ℕ) (groups : List (ResourceGroup ρ)) : UInt64 :=
  UInt64.ofNat ((groups.flatMap fun g => g.scopes.flatMap fun s => s.records.map count).sum)

def SignalCounters.observe (c : SignalCounters) : Signal → SignalCounters
  | .metrics request =>
    { c with
      metricBatches := saturatingAdd c.metricBatches 1
      metricPoints := saturatingAdd c.metricPoints (countRecords metricDataPointCount request) }
  | .traces request =>
    { c with
      traceBatches := saturatingAdd c.traceBatches 1
      spans := saturatingAdd c.spans (countRecords (fun _ => 1) request) }
  | .logs request =>
    { c with
      logBatches := saturatingAdd c.logBatches 1
      logRecords := saturatingAdd c.logRecords (countRecords (fun _ => 1) request) }

structure AgentSignalProjection where
  agentId : AgentId
  lastSequence : UInt64
  lastReceivedAtUnixNano : UInt64
  counters : SignalCounters
  deriving DecidableEq, Repr

structure SignalProjection where
  counters : SignalCounters
  agents : SortedMap AgentId AgentSignalProjection
  deriving DecidableEq

def SignalProjection.default : SignalProjection := ⟨.default, .empty⟩

def SignalProjection.observe (p : SignalProjection) (envelope : SignalEnvelope) :
    SignalProjection where
  counters := p.counters.observe envelope.payload
  agents := p.agents.upsert envelope.agentId fun old =>
    let agent := old.getD ⟨envelope.agentId, 0, 0, .default⟩
    { agent with
      lastSequence := max agent.lastSequence envelope.sequence
      lastReceivedAtUnixNano := max agent.lastReceivedAtUnixNano envelope.receivedAtUnixNano
      counters := agent.counters.observe envelope.payload }

end SkidMonitor
