import SkidMonitor.Lib.Outline
import SkidMonitor.Server.Store

/-! The store as a system of concurrent calls on one database. -/
namespace SkidMonitor

open ReadCommitted
open Uuids (Uuid)

inductive Call where
  | append (envelope : SignalEnvelope)
  | load (scope : SignalScope) (after : SignalCursor) (rowLimit maxJsonBytes : ℕ)
  | upsertTenant (t : TenantId) (slug displayName actorId : Str)
  | listAgents (t : TenantId)
  | loadProjection (t : TenantId)
  | enroll (t : TenantId) (a : AgentId) (displayName : Option Str) (actorId : Str)
  | setEnabled (t : TenantId) (a : AgentId) (enabled : Bool) (actorId : Str)
  | createTicket (id : Uuid) (t : TenantId) (subject : Str) (authorizedUntilUnix : UInt64)
      (ttlNanos : ℕ)
  | consumeTicket (t : TenantId) (id : Uuid)
  | cleanupTickets (t : TenantId)
  deriving DecidableEq

inductive Reply where
  | appended (outcome : AppendOutcome)
  | loaded (records : List SignalRecord)
  | tenant (record : TenantRecord)
  | agents (records : List AgentRecord)
  | projection (record : Option ProjectionRecord)
  | enrolled (record : AgentRecord)
  | enabled (record : Option AgentRecord)
  | ticket (id : Uuid)
  | grant (grant : Option StreamTicketGrant)
  | removed (count : ℕ)
  deriving DecidableEq

def Call.program (sd : Serde) : Call → StoreM Reply
  | .append envelope => .appended <$> appendEnvelope sd envelope
  | .load scope after rowLimit maxJsonBytes =>
    .loaded <$> loadEnvelopesAfterBounded sd scope after rowLimit maxJsonBytes
  | .upsertTenant t slug displayName actorId =>
    .tenant <$> upsertTenantAs t slug displayName actorId
  | .listAgents t => .agents <$> SkidMonitor.listAgents t
  | .loadProjection t => .projection <$> SkidMonitor.loadProjection t
  | .enroll t a displayName actorId => .enrolled <$> enrollAgentAs t a displayName actorId
  | .setEnabled t a enabled actorId => .enabled <$> setAgentEnabledAs t a enabled actorId
  | .createTicket id t subject authorizedUntilUnix ttlNanos =>
    .ticket <$> createStreamTicket id t subject authorizedUntilUnix ttlNanos
  | .consumeTicket t id => .grant <$> consumeStreamTicket t id
  | .cleanupTickets t => .removed <$> cleanupStreamTickets t

/-- PostgreSQL under the calls of the store. -/
def pg (sd : Serde) : Service Stmt Stmt.Resp Db Write Lock Conn DbError PgStoreError Reply Call where
  apply := Db.apply
  eval st conn db rd := st.eval conn db rd
  locks st conn db rd := st.locks conn db rd
  conflicts := Lock.conflicts
  configure := Stmt.configure
  idle := ⟨none, 0⟩
  commits := Stmt.commits
  draws := Stmt.draws
  maxIdentity := 2 ^ 63 - 1
  outage := .connection
  program := Call.program sd
  raise := .database

theorem conflicts_symm (sd : Serde) (a b : Lock) :
    (pg sd).conflicts a b = (pg sd).conflicts b a := by
  simp [pg, Lock.conflicts, eq_comm, Bool.or_comm]

abbrev StoreState := State Stmt Stmt.Resp Db Write Lock Conn PgStoreError Reply Call
abbrev StoreLabel := Label Call
abbrev StoreTxn := Txn Write Lock Conn Call

/-- No call has been made and no event accepted; tenants, agents and tickets are there
already. -/
structure Initial (s : StoreState) : Prop where
  idle : s.Idle
  events : s.db.events = []
  projections : s.db.projections = []
  last : 0 ≤ s.past.last

def Reachable (sd : Serde) : StoreState → Prop := Runs.Reachable (pg sd).step Initial

/-! A small store, with two tenants that share a lock key and one agent each. -/
namespace Sample

open Numbers (Decimal Literal Number sign)

def rows : List (Signal × List UInt8 × Value) :=
  [emptyLogs, nulLogs, narrowGauge, wideGauge, largestGauge]

/-- The digits of the largest double are not among them: they are out of range. -/
def numbers : List (Literal × Number) :=
  [(⟨false, 0, 0, none⟩, .posInt 0), (⟨false, 15, 1, none⟩, .float oneAndHalf),
    (⟨false, 10000000000000000, 0, none⟩, .posInt 10000000000000000)]

def serde : Serde := .ofTable rows numbers

theorem serde_tagged : serde.Tagged := by
  have htext : ∀ r ∈ rows, r.2.1 ≠ [] := by decide +kernel
  refine tagged_ofTable htext fun r hr => ?_
  simp only [rows, List.mem_cons, List.not_mem_nil, or_false] at hr
  rcases hr with rfl | rfl | rfl | rfl | rfl <;> exact ⟨_, rfl⟩

def tenant : TenantId := ⟨5⟩
def neighbour : TenantId := ⟨0x40000000000000001⟩

example : tenantLockKey tenant = tenantLockKey neighbour := by decide

def agent : AgentId := .sampleA

def store : StoreState where
  db := ⟨[⟨tenant, ['t'], ['T'], true, 0⟩, ⟨neighbour, ['n'], ['N'], true, 0⟩],
    [⟨tenant, ['a'], none, true, 0, none⟩, ⟨neighbour, ['a'], none, true, 0, none⟩], [], [], [], []⟩
  past := ⟨0, []⟩
  sessions _ := none
  log := []

theorem store_initial : Initial store := ⟨⟨rfl, fun _ => rfl, rfl⟩, rfl, rfl, Int.le_refl _⟩

def logs (t : TenantId) (sequence : UInt64) : SignalEnvelope :=
  ⟨⟨sequence.toNat⟩, .tenant t, agent, sequence, 1, .logs []⟩

def signal (row : Signal × List UInt8 × Value) (sequence : UInt64) : SignalEnvelope :=
  { logs tenant sequence with payload := row.1 }

/-- The labels of an append that is not interrupted. -/
def append (i : ℕ) (envelope : SignalEnvelope) (fresh : ℤ) : List StoreLabel :=
  .start i (.append envelope) :: List.replicate 12 (.exec i ⟨10, fresh⟩) ++ [.finish i]

/-- Where the labels lead from the small store. -/
def reached (labels : List StoreLabel) : StoreState :=
  (Runs.run (pg serde).step store labels).getD store

variable {labels rest : List StoreLabel}

theorem run_reached (h : (Runs.run (pg serde).step store labels).isSome) :
    Runs.run (pg serde).step store labels = some (reached labels) := by
  obtain ⟨s, hs⟩ := Option.isSome_iff_exists.mp h
  rw [reached, hs]
  rfl

theorem reachable_reached (h : (Runs.run (pg serde).step store labels).isSome) :
    Reachable serde (reached labels) := ⟨store, labels, store_initial, run_reached h⟩

/-- No session is open where those of the calls made are closed. -/
theorem quiet_reached (h : (Runs.run (pg serde).step store labels).isSome)
    (hclosed : ∀ c ∈ (reached labels).past.calls, ((reached labels).sessions c.1).isNone) (j : ℕ) :
    (reached labels).sessions j = none := by
  cases hx : (reached labels).sessions j with
  | none => rfl
  | some x =>
    have hstart : Service.Known store :=
      ⟨fun i x hx => by simp [store] at hx, fun i c res h => by simp [store] at h⟩
    have hknown : Service.Known (reached labels) :=
      Runs.run_invariant (fun _ _ _ hs hstep => Service.known_step (Service.step_cases hstep) hs)
        (run_reached h) hstart
    have := hclosed _ (hknown.opened j x hx)
    simp [hx] at this

theorem run_reached_append (h : (Runs.run (pg serde).step store (labels ++ rest)).isSome) :
    Runs.run (pg serde).step (reached labels) rest = some (reached (labels ++ rest)) := by
  obtain ⟨s, hs, hrest⟩ := Runs.run_append.mp (run_reached h)
  rw [reached, hs]
  exact hrest

theorem step_reached {l : StoreLabel}
    (h : (Runs.run (pg serde).step store (labels ++ [l])).isSome) :
    (pg serde).step (reached labels) l = some (reached (labels ++ [l])) := by
  obtain ⟨s, hs, hnil⟩ := Runs.run_cons.mp (run_reached_append h)
  exact hs.trans hnil

end Sample

end SkidMonitor
