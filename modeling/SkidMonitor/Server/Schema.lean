import SkidMonitor.Lib.Table
import SkidMonitor.Server.Payload

/-! The tables of the store, with the columns that some statement reads, and the row
writes the statements make. Times are in microseconds. -/
namespace SkidMonitor

open List

open Numbers (Numeric)
open Uuids (Uuid)

structure TenantRow where
  id : TenantId
  slug : Str
  displayName : Str
  enabled : Bool
  createdAt : ℕ
  deriving DecidableEq, Repr

structure AgentRow where
  tenantId : TenantId
  agentId : Str
  displayName : Option Str
  enabled : Bool
  enrolledAt : ℕ
  lastSeenAt : Option ℕ
  deriving DecidableEq, Repr

structure EventRow where
  cursor : ℤ
  tenantId : TenantId
  eventId : Uuid
  agentId : Str
  sequence : ℕ
  receivedAtUnixNano : ℕ
  signalKind : String
  payload : Json Numeric
  payloadBytes : ℕ

structure ProjectionRow where
  tenantId : TenantId
  lastCursor : ℤ
  projection : SignalProjection
  deriving DecidableEq

inductive AuditDetails where
  | tenant (slug displayName : Str)
  | enroll (displayName : Option Str)
  | setEnabled (enabled : Bool)
  deriving DecidableEq, Repr

structure AuditRow where
  tenantId : TenantId
  actorType : String
  actorId : Str
  action : String
  targetType : String
  targetId : Str
  details : AuditDetails
  deriving DecidableEq, Repr

structure TicketRow where
  ticketId : Uuid
  tenantId : TenantId
  subject : Str
  createdAt : ℕ
  authorizedUntil : ℕ
  expiresAt : ℕ
  consumedAt : Option ℕ
  deriving DecidableEq, Repr

/-- Rows stand in the order in which they were committed. -/
structure Db where
  tenants : List TenantRow
  agents : List AgentRow
  events : List EventRow
  projections : List ProjectionRow
  audits : List AuditRow
  tickets : List TicketRow

inductive Write where
  | upsertTenant (row : TenantRow)
  | upsertAgent (row : AgentRow)
  | setAgentEnabled (t : TenantId) (a : Str) (enabled : Bool)
  | touchAgent (t : TenantId) (a : Str) (now : ℕ)
  | insertEvent (row : EventRow)
  | insertProjection (row : ProjectionRow)
  | updateProjection (t : TenantId) (cursor : ℤ) (projection : SignalProjection)
  | insertAudit (row : AuditRow)
  | insertTicket (row : TicketRow)
  | consumeTicket (t : TenantId) (id : Uuid) (now : ℕ)
  /-- The tickets a cleanup has found at the time `now` of its statement. -/
  | deleteTickets (t : TenantId) (ids : List Uuid) (now : ℕ)

/-- The tenant whose rows a write changes. -/
def Write.tenant : Write → TenantId
  | .upsertTenant row => row.id
  | .upsertAgent row => row.tenantId
  | .insertEvent row => row.tenantId
  | .insertProjection row => row.tenantId
  | .insertAudit row => row.tenantId
  | .insertTicket row => row.tenantId
  | .setAgentEnabled t _ _ | .touchAgent t _ _ | .updateProjection t _ _
  | .consumeTicket t _ _ | .deleteTickets t _ _ => t

def AgentRow.isFor (t : TenantId) (a : Str) (row : AgentRow) : Bool :=
  row.tenantId = t ∧ row.agentId = a

def TicketRow.spent (now : ℕ) (row : TicketRow) : Bool :=
  row.consumedAt.isSome || row.expiresAt ≤ now

namespace Db

def apply (db : Db) : Write → Db
  | .upsertTenant row =>
    { db with
      tenants := Table.upsert (fun r => r.id = row.id)
        (fun r => { r with slug := row.slug, displayName := row.displayName }) row db.tenants }
  | .upsertAgent row =>
    { db with
      agents := Table.upsert (AgentRow.isFor row.tenantId row.agentId)
        (fun r => { r with displayName := row.displayName, enabled := true }) row db.agents }
  | .setAgentEnabled t a enabled =>
    { db with
      agents := Table.modify (AgentRow.isFor t a)
        (fun r => { r with enabled := enabled }) db.agents }
  | .touchAgent t a now =>
    { db with
      agents := Table.modify (AgentRow.isFor t a)
        (fun r => { r with lastSeenAt := some now }) db.agents }
  | .insertEvent row => { db with events := db.events ++ [row] }
  | .insertProjection row => { db with projections := db.projections ++ [row] }
  | .updateProjection t cursor projection =>
    { db with
      projections := Table.modify (fun r => r.tenantId = t)
        (fun r => { r with lastCursor := max r.lastCursor cursor, projection := projection })
        db.projections }
  | .insertAudit row => { db with audits := db.audits ++ [row] }
  | .insertTicket row => { db with tickets := db.tickets ++ [row] }
  | .consumeTicket t id now =>
    { db with
      tickets := Table.modify (fun r => r.tenantId = t ∧ r.ticketId = id)
        (fun r => { r with consumedAt := some now }) db.tickets }
  | .deleteTickets t ids _ =>
    { db with tickets := db.tickets.filter fun r => !(r.tenantId = t && ids.contains r.ticketId) }

/-- The rows of one tenant. -/
def slice (db : Db) (t : TenantId) : Db where
  tenants := db.tenants.filter fun r => r.id = t
  agents := db.agents.filter fun r => r.tenantId = t
  events := db.events.filter fun r => r.tenantId = t
  projections := db.projections.filter fun r => r.tenantId = t
  audits := db.audits.filter fun r => r.tenantId = t
  tickets := db.tickets.filter fun r => r.tenantId = t

/-- Row-level security: the rows a transaction with this `app.tenant_id` can see. -/
def visible (db : Db) : Option TenantId → Db
  | none => ⟨[], [], [], [], [], []⟩
  | some t => db.slice t

def tenant? (db : Db) (t : TenantId) : Option TenantRow := db.tenants.find? fun r => r.id = t

def agent? (db : Db) (t : TenantId) (a : Str) : Option AgentRow :=
  db.agents.find? (AgentRow.isFor t a)

def event? (db : Db) (t : TenantId) (a : Str) (sequence : ℕ) : Option EventRow :=
  db.events.find? fun r => r.tenantId = t ∧ r.agentId = a ∧ r.sequence = sequence

def projection? (db : Db) (t : TenantId) : Option ProjectionRow :=
  db.projections.find? fun r => r.tenantId = t

/-- The events of a tenant in the order in which they were committed. -/
def eventsOf (db : Db) (t : TenantId) : List EventRow := db.events.filter fun r => r.tenantId = t

def projectionsOf (db : Db) (t : TenantId) : List ProjectionRow :=
  db.projections.filter fun r => r.tenantId = t

def tenantEnabled (db : Db) (t : TenantId) : Option Bool := (db.tenant? t).map (·.enabled)

def agentEnabled (db : Db) (t : TenantId) (a : Str) : Option Bool :=
  (db.agent? t a).map (·.enabled)

end Db

/-- Writes that leave events and projections alone. -/
def Write.Quiet : Write → Prop
  | .insertEvent _ | .insertProjection _ | .updateProjection _ _ _ => False
  | _ => True

/-- Writes that may change whether an agent is enabled. -/
def Write.Switches (t : TenantId) (a : Str) : Write → Prop
  | .upsertAgent row => row.tenantId = t ∧ row.agentId = a
  | .setAgentEnabled t' a' _ => t' = t ∧ a' = a
  | _ => False

namespace Db

variable {db : Db} {w : Write} {t : TenantId} {a : Str}

/-- A write of another tenant leaves the rows of a tenant alone. -/
theorem slice_apply_ne (h : w.tenant ≠ t) : (db.apply w).slice t = db.slice t := by
  cases w <;> simp only [Write.tenant] at h <;> simp only [apply, slice, mk.injEq, and_true, true_and]
  case upsertTenant row =>
    exact Table.filter_upsert_ne (fun _ => rfl) (by simp_all) (by simp_all)
  case upsertAgent row =>
    exact Table.filter_upsert_ne (fun _ => rfl) (by simp_all [AgentRow.isFor]) (by simp_all)
  case setAgentEnabled | touchAgent =>
    exact Table.filter_modify_ne (fun _ => rfl) (by simp_all [AgentRow.isFor])
  case updateProjection | consumeTicket =>
    exact Table.filter_modify_ne (fun _ => rfl) (by simp_all)
  case deleteTickets =>
    rw [filter_filter]
    apply filter_congr
    intro r _
    by_cases hr : r.tenantId = t
    · simp [hr, Ne.symm h]
    · simp [hr]
  all_goals simp [filter_append, h]

/-- A write of a tenant acts on the rows of that tenant. -/
theorem slice_apply (h : w.tenant = t) : (db.apply w).slice t = (db.slice t).apply w := by
  subst h
  cases w <;> simp only [Write.tenant, apply, slice, mk.injEq, and_true, true_and]
  case upsertTenant row => exact Table.filter_upsert (fun _ => rfl) (fun _ h => h) (by simp)
  case upsertAgent row =>
    exact Table.filter_upsert (fun _ => rfl) (by simp_all [AgentRow.isFor]) (by simp)
  case deleteTickets => exact filter_comm _ _ _
  case setAgentEnabled | touchAgent | updateProjection | consumeTicket =>
    exact Table.filter_modify fun _ => rfl
  all_goals simp [filter_append]

theorem mem_eventsOf {row : EventRow} : row ∈ db.eventsOf t ↔ row ∈ db.events ∧ row.tenantId = t := by
  simp [eventsOf]

theorem eventsOf_apply (h : w.Quiet ∨ w.tenant ≠ t) : (db.apply w).eventsOf t = db.eventsOf t := by
  rcases h with h | h
  · cases w <;> first | rfl | exact h.elim
  · exact congrArg Db.events (slice_apply_ne h)

theorem projectionsOf_apply (h : w.Quiet ∨ w.tenant ≠ t) :
    (db.apply w).projectionsOf t = db.projectionsOf t := by
  rcases h with h | h
  · cases w <;> first | rfl | exact h.elim
  · exact congrArg Db.projections (slice_apply_ne h)

theorem agentEnabled_apply (h : ¬ w.Switches t a) :
    (db.apply w).agentEnabled t a = db.agentEnabled t a := by
  have hkey : ∀ {t' a'}, ¬ (t' = t ∧ a' = a) →
      ∀ r, AgentRow.isFor t a r = true → AgentRow.isFor t' a' r = false := by
    intro t' a' hne r hr
    simp only [AgentRow.isFor, decide_eq_true_eq, decide_eq_false_iff_not] at hr ⊢
    rintro ⟨rfl, rfl⟩
    exact hne hr
  unfold agentEnabled agent?
  cases w <;> try rfl
  case upsertAgent row =>
    exact congrArg _ (Table.find?_upsert_ne (by intro; rfl) (hkey h)
      (decide_eq_false h))
  case setAgentEnabled t' a' enabled =>
    exact congrArg _ (Table.find?_modify_ne (by intro; rfl) (hkey h))
  case touchAgent t' a' now =>
    simp only [apply]
    rw [Table.find?_modify (by intro; rfl), Option.map_map]
    congr 1
    funext r
    simp only [Function.comp_apply]
    split <;> rfl

theorem agentEnabled_upsertAgent {row : AgentRow} (h : row.enabled = true) :
    (db.apply (.upsertAgent row)).agentEnabled row.tenantId row.agentId = some true := by
  unfold agentEnabled agent? apply
  rw [Table.find?_upsert (by intro; rfl) (by simp [AgentRow.isFor])]
  cases db.agents.find? (AgentRow.isFor row.tenantId row.agentId) with
  | none => simp [h]
  | some r => simp

theorem agentEnabled_setAgentEnabled {enabled : Bool} :
    (db.apply (.setAgentEnabled t a enabled)).agentEnabled t a =
      (db.agentEnabled t a).map fun _ => enabled := by
  unfold agentEnabled agent? apply
  rw [Table.find?_modify (by intro; rfl)]
  cases hfind : db.agents.find? (AgentRow.isFor t a) with
  | none => rfl
  | some r => simp [find?_some hfind]

theorem tenant?_slice : (db.slice t).tenant? t = db.tenant? t :=
  Table.find?_filter fun _ h => h

theorem agent?_slice : (db.slice t).agent? t a = db.agent? t a :=
  Table.find?_filter fun _ h => by simp_all [AgentRow.isFor]

theorem event?_slice {sequence : ℕ} : (db.slice t).event? t a sequence = db.event? t a sequence :=
  Table.find?_filter fun _ h => by simp_all

theorem projection?_slice : (db.slice t).projection? t = db.projection? t :=
  Table.find?_filter fun _ h => h

theorem event?_eq_find? {sequence : ℕ} : db.event? t a sequence =
    (db.eventsOf t).find? fun r => r.tenantId = t ∧ r.agentId = a ∧ r.sequence = sequence :=
  (Table.find?_filter fun _ h => by simp_all).symm

theorem projection?_eq_head? : db.projection? t = (db.projectionsOf t).head? :=
  (head?_filter ..).symm

/-- Events are only ever added, behind the old ones. -/
theorem events_apply : db.events <+: (db.apply w).events := by
  cases w with
  | insertEvent row => exact prefix_append _ _
  | _ => exact prefix_rfl

end Db

end SkidMonitor
