import SkidMonitor.Lib.Numeral
import SkidMonitor.Lib.ReadCommitted
import SkidMonitor.Server.Schema

/-! The statements of the store and what the database does with them: the rows they
return, the rows they write, the errors they raise and the locks they take. -/
namespace SkidMonitor

open Numbers (Number Numeric)
open ReadCommitted (Reading)
open Uuids (Uuid)

/-- A row of `signal_events` as it is inserted, with its numbers as texts. -/
structure EventInsert where
  tenantId : TenantId
  eventId : Uuid
  agentId : Str
  sequence : Str
  receivedAtUnixNano : Str
  signalKind : String
  payload : Value
  payloadBytes : ℕ

inductive Stmt where
  | begin
  | setTenantContext (t : TenantId)
  | requireEnabledTenant (t : TenantId)
  | advisoryLock (key : BitVec 64)
  | selectAgentEnabled (t : TenantId) (a : Str)
  | insertEvent (event : EventInsert)
  | selectEvent (t : TenantId) (a : Str) (sequence : Str)
  | insertProjection (t : TenantId) (projection : SignalProjection)
  | selectProjectionForUpdate (t : TenantId)
  | updateProjection (t : TenantId) (cursor : ℤ) (projection : SignalProjection)
  | touchAgent (t : TenantId) (a : Str)
  | notify (t : TenantId) (cursor : UInt64)
  | loadEnvelopesBounded (t : TenantId) (after : ℤ) (limit maxBytes : ℕ)
  | listAgents (t : TenantId)
  | selectProjection (t : TenantId)
  | agentCardinality (t : TenantId) (a : Str)
  | upsertAgent (t : TenantId) (a : Str) (displayName : Option Str)
  | setAgentEnabled (t : TenantId) (a : Str) (enabled : Bool)
  | upsertTenant (t : TenantId) (slug displayName : Str)
  | insertAudit (row : AuditRow)
  | cleanupStreamTickets (t : TenantId)
  | createStreamTicket (id : Uuid) (t : TenantId) (subject : Str) (ttlMillis : ℕ)
      (authorizedUntilUnix : ℕ)
  | consumeStreamTicket (t : TenantId) (id : Uuid)
  | commit

/-- The columns `cursor`, `signal_kind` and `payload` of an event. -/
structure ExistingEvent where
  cursor : ℤ
  signalKind : String
  payload : Json Numeric

structure LoadedEvent where
  cursor : ℤ
  eventId : Uuid
  agentId : Str
  sequence : Str
  receivedAtUnixNano : Str
  payload : Json Numeric

structure AgentColumns where
  agentId : Str
  displayName : Option Str
  enabled : Bool
  enrolledAtUnixNano : ℤ
  lastSeenAtUnixNano : Option ℤ
  deriving DecidableEq, Repr

structure TenantColumns where
  slug : Str
  displayName : Str
  enabled : Bool
  createdAtUnixNano : ℤ
  deriving DecidableEq, Repr

def Stmt.Resp : Stmt → Type
  | .requireEnabledTenant _ | .selectAgentEnabled _ _ => Option Bool
  | .insertEvent _ => Option ℤ
  | .selectEvent _ _ _ => Option ExistingEvent
  | .selectProjectionForUpdate _ => Option SignalProjection
  | .loadEnvelopesBounded _ _ _ _ => List LoadedEvent
  | .listAgents _ => List AgentColumns
  | .selectProjection _ => Option (ℤ × SignalProjection)
  | .agentCardinality _ _ => ℤ × Bool
  | .upsertAgent _ _ _ => AgentColumns
  | .setAgentEnabled _ _ _ => Option AgentColumns
  | .upsertTenant _ _ _ => TenantColumns
  | .cleanupStreamTickets _ | .createStreamTicket _ _ _ _ _ => ℕ
  | .consumeStreamTicket _ _ => Option (Str × ℤ)
  | _ => Unit

/-- The settings of a transaction. -/
structure Conn where
  tenantId : Option TenantId
  startedAt : ℕ
  deriving DecidableEq, Repr

/-- The payload column keeps numbers as decimals and refuses the NUL character. -/
def toJsonb (value : Value) : Json Numeric := value.map fun n => Numeric.ofLiteral n.print

/-- The value of a payload column, if the JSON library takes every number of it. -/
def fromJsonb (sd : Serde) (column : Json Numeric) : Option Value :=
  column.traverse fun x => sd.numberFromText x.print

def hasNul (text : Str) : Bool := text.contains '\x00'

/-- The error of the first check that does not hold. -/
def requireChecks : List (String × Bool) → Except DbError Unit
  | [] => .ok ()
  | (name, holds) :: rest => if holds then requireChecks rest else .error (.checkViolation name)

/-- No character but blanks: what a trim of blanks leaves empty. -/
def blank (text : Str) : Bool := text.all (· = ' ')

def requireText (text : Str) : Except DbError Unit :=
  if hasNul text then .error .invalidText else .ok ()

/-- Row-level security for new rows. -/
def requireTenant (conn : Conn) (t : TenantId) : Except DbError Unit :=
  if conn.tenantId = some t then .ok () else .error (.checkViolation "row_security")

def requireNumeral (text : Str) : Except DbError ℕ :=
  match Numeral.read text with
  | some n => .ok n
  | none => .error .invalidText

def EventRow.checks (row : EventRow) : List (String × Bool) :=
  [("signal_events_cursor_positive", 0 < row.cursor),
   ("signal_events_kind", ["metrics", "traces", "logs"].contains row.signalKind),
   ("signal_events_payload_bytes_bounded", row.payloadBytes ≤ 16777216),
   ("signal_events_payload_bytes_positive", 0 < row.payloadBytes),
   ("signal_events_payload_object", match row.payload with | .obj _ => true | _ => false),
   ("signal_events_received_at_u64", row.receivedAtUnixNano ≤ 18446744073709551615),
   ("signal_events_sequence_u64", row.sequence ≤ 18446744073709551615)]

def EventInsert.row (event : EventInsert) (cursor : ℤ) : Except DbError EventRow := do
  if !event.payload.allTexts (fun s => !hasNul s.toList) then
    throw .invalidText
  requireText event.agentId
  let sequence ← requireNumeral event.sequence
  let receivedAt ← requireNumeral event.receivedAtUnixNano
  let row : EventRow := ⟨cursor, event.tenantId, event.eventId, event.agentId, sequence,
    receivedAt, event.signalKind, toJsonb event.payload, event.payloadBytes⟩
  requireChecks row.checks
  return row

/-- Microseconds as a `bigint` of nanoseconds. -/
def unixNano (time : ℕ) : Except DbError ℤ :=
  if (time * 1000 : ℤ) < 2 ^ 63 then .ok (time * 1000) else .error .numericOutOfRange

def AgentRow.columns (row : AgentRow) : Except DbError AgentColumns := do
  let enrolledAt ← unixNano row.enrolledAt
  let lastSeenAt ← row.lastSeenAt.mapM unixNano
  return ⟨row.agentId, row.displayName, row.enabled, enrolledAt, lastSeenAt⟩

def TenantRow.columns (row : TenantRow) : Except DbError TenantColumns := do
  let createdAt ← unixNano row.createdAt
  return ⟨row.slug, row.displayName, row.enabled, createdAt⟩

/-- The window functions of the bounded load: cursor, ordinal and running size. -/
def rankedMetadata : ℕ → ℕ → List EventRow → List (ℤ × ℕ × ℕ)
  | _, _, [] => []
  | ordinal, total, row :: rows =>
    (row.cursor, ordinal, total + row.payloadBytes) ::
      rankedMetadata (ordinal + 1) (total + row.payloadBytes) rows

def byCursor (rows : List EventRow) : List EventRow :=
  rows.insertionSort fun a b => a.cursor ≤ b.cursor

/-- The rows of the bounded load. -/
def loadBounded (events : List EventRow) (t : TenantId) (after : ℤ) (limit maxBytes : ℕ) :
    List EventRow :=
  let matching := byCursor (events.filter fun r => r.tenantId = t ∧ after < r.cursor)
  let ranked := rankedMetadata 1 0 (matching.take limit)
  let cutoff := ((ranked.filter fun m => m.2.1 = 1 ∨ m.2.2 ≤ maxBytes).map (·.1)).max?
  match cutoff with
  | none => []
  | some cutoff => matching.filter fun r => r.cursor ≤ cutoff

def EventRow.loaded (row : EventRow) : LoadedEvent :=
  ⟨row.cursor, row.eventId, row.agentId, Numeral.print row.sequence,
    Numeral.print row.receivedAtUnixNano, row.payload⟩

def AgentRow.enrolled (row : AgentRow) (old : Option AgentRow) : AgentRow :=
  match old with
  | some r => { r with displayName := row.displayName, enabled := true }
  | none => row

/-- The answer to a statement and the rows it writes. `db` holds all rows; a statement
reads those its tenant sees, unique indexes look at all of them. -/
def Stmt.eval (conn : Conn) (db : Db) (rd : Reading) :
    (st : Stmt) → Except DbError (st.Resp × List Write)
  | .begin | .setTenantContext _ | .advisoryLock _ | .notify _ _ | .commit => .ok ((), [])
  | .requireEnabledTenant t =>
    .ok (((db.visible conn.tenantId).tenant? t).map (·.enabled), [])
  | .selectAgentEnabled t a =>
    .ok (((db.visible conn.tenantId).agent? t a).map (·.enabled), [])
  | .insertEvent event => do
    let row ← event.row rd.fresh
    requireTenant conn row.tenantId
    if (db.event? row.tenantId row.agentId row.sequence).isSome then
      return (none, [])
    if db.events.any fun r => r.tenantId = row.tenantId ∧ r.eventId = row.eventId then
      throw (.uniqueViolation "signal_events_tenant_event_unique")
    return (some rd.fresh, [.insertEvent row])
  | .selectEvent t a sequence => do
    let sequence ← requireNumeral sequence
    return (((db.visible conn.tenantId).event? t a sequence).map fun r =>
      ⟨r.cursor, r.signalKind, r.payload⟩, [])
  | .insertProjection t projection => do
    requireTenant conn t
    if (db.projection? t).isSome then
      return ((), [])
    return ((), [.insertProjection ⟨t, 0, projection⟩])
  | .selectProjectionForUpdate t =>
    .ok (((db.visible conn.tenantId).projection? t).map (·.projection), [])
  | .updateProjection t cursor projection =>
    .ok ((), if ((db.visible conn.tenantId).projection? t).isSome then
      [.updateProjection t cursor projection] else [])
  | .touchAgent t a =>
    .ok ((), if ((db.visible conn.tenantId).agent? t a).isSome then
      [.touchAgent t a conn.startedAt] else [])
  | .loadEnvelopesBounded t after limit maxBytes =>
    .ok ((loadBounded (db.visible conn.tenantId).events t after limit maxBytes).map
      EventRow.loaded, [])
  | .listAgents t => do
    let rows := (db.visible conn.tenantId).agents.filter fun r => r.tenantId = t
    let columns ← (rows.insertionSort fun a b => a.agentId ≤ b.agentId).mapM AgentRow.columns
    return (columns, [])
  | .selectProjection t =>
    .ok (((db.visible conn.tenantId).projection? t).map fun r => (r.lastCursor, r.projection), [])
  | .agentCardinality t a =>
    let rows := (db.visible conn.tenantId).agents.filter fun r => r.tenantId = t
    .ok ((rows.length, rows.any fun r => r.agentId = a), [])
  | .upsertAgent t a displayName => do
    requireText a
    displayName.forM requireText
    requireTenant conn t
    requireChecks [("agents_display_name_not_blank", !displayName.any blank),
      ("agents_id_size", 1 ≤ Text.byteLength a ∧ Text.byteLength a ≤ 255)]
    let row : AgentRow := ⟨t, a, displayName, true, conn.startedAt, none⟩
    let columns ← (row.enrolled (db.agent? t a)).columns
    return (columns, [.upsertAgent row])
  | .setAgentEnabled t a enabled =>
    match (db.visible conn.tenantId).agent? t a with
    | none => .ok (none, [])
    | some row => do
      let columns ← { row with enabled := enabled }.columns
      return (some columns, [.setAgentEnabled t a enabled])
  | .upsertTenant t slug displayName => do
    requireText slug
    requireText displayName
    requireTenant conn t
    requireChecks [("tenants_display_name_not_blank", !blank displayName),
      ("tenants_slug_not_blank", !blank slug)]
    if db.tenants.any fun r => r.slug = slug ∧ r.id ≠ t then
      throw (.uniqueViolation "tenants_slug_key")
    let row : TenantRow := ⟨t, slug, displayName, true, conn.startedAt⟩
    let new := match db.tenant? t with
      | some r => { r with slug := slug, displayName := displayName }
      | none => row
    let columns ← new.columns
    return (columns, [.upsertTenant row])
  | .insertAudit row => do
    requireText row.actorId
    requireTenant conn row.tenantId
    requireChecks [("audit_events_actor_id_not_blank", !blank row.actorId)]
    return ((), [.insertAudit row])
  | .cleanupStreamTickets t =>
    let rows := (db.visible conn.tenantId).tickets.filter fun r => r.tenantId = t && r.spent rd.now
    .ok (rows.length, [.deleteTickets t (rows.map (·.ticketId)) rd.now])
  | .createStreamTicket id t subject ttlMillis authorizedUntilUnix => do
    requireText subject
    let authorizedUntil := authorizedUntilUnix * 1000000
    if authorizedUntil ≤ rd.now then
      return ((0 : ℕ), [])
    let row : TicketRow := ⟨id, t, subject, conn.startedAt, authorizedUntil,
      min (rd.now + ttlMillis * 1000) authorizedUntil, none⟩
    requireTenant conn t
    requireChecks [("stream_tickets_authorization_after_creation", row.createdAt < authorizedUntil),
      ("stream_tickets_expiry_after_creation", row.createdAt < row.expiresAt),
      ("stream_tickets_subject_not_blank", !blank subject),
      ("stream_tickets_subject_size", Text.byteLength subject ≤ 1024)]
    if db.tickets.any fun r => r.ticketId = id then
      throw (.uniqueViolation "stream_tickets_pkey")
    return ((1 : ℕ), [.insertTicket row])
  | .consumeStreamTicket t id =>
    let row := (db.visible conn.tenantId).tickets.find? fun r =>
      r.tenantId = t ∧ r.ticketId = id ∧ r.spent rd.now = false
    match row with
    | none => .ok (none, [])
    | some row =>
      .ok (some (row.subject, (row.authorizedUntil + 500000) / 1000000),
        [.consumeTicket t id rd.now])

/-- What a lock is on: an advisory key, a row, or a key of a unique index. -/
inductive LockTarget where
  | advisory (key : BitVec 64)
  | tenantRow (t : TenantId)
  | slug (slug : Str)
  | agentRow (t : TenantId) (a : Str)
  | projectionRow (t : TenantId)
  | eventKey (t : TenantId) (a : Str) (sequence : ℕ)
  | eventId (t : TenantId) (id : Uuid)
  | ticket (id : Uuid)
  deriving DecidableEq

structure Lock where
  target : LockTarget
  exclusive : Bool
  deriving DecidableEq

/-- Two share locks go together; everything else on one target conflicts. -/
def Lock.conflicts (l h : Lock) : Bool := l.target = h.target && (l.exclusive || h.exclusive)

/-- The locks a statement takes. A row is locked only if the statement finds it; a new
row locks its unique keys. -/
def Stmt.locks (conn : Conn) (db : Db) (rd : Reading) : Stmt → List Lock
  | .requireEnabledTenant t =>
    if ((db.visible conn.tenantId).tenant? t).isSome then [⟨.tenantRow t, false⟩] else []
  | .advisoryLock key => [⟨.advisory key, true⟩]
  | .selectAgentEnabled t a =>
    if ((db.visible conn.tenantId).agent? t a).isSome then [⟨.agentRow t a, false⟩] else []
  | .insertEvent event =>
    match event.row rd.fresh with
    | .error _ => []
    | .ok row =>
      if (db.event? row.tenantId row.agentId row.sequence).isSome then []
      else [⟨.eventKey row.tenantId row.agentId row.sequence, true⟩,
        ⟨.eventId row.tenantId row.eventId, true⟩]
  | .insertProjection t _ =>
    if (db.projection? t).isSome then [] else [⟨.projectionRow t, true⟩]
  | .selectProjectionForUpdate t | .updateProjection t _ _ =>
    if ((db.visible conn.tenantId).projection? t).isSome then [⟨.projectionRow t, true⟩] else []
  | .touchAgent t a | .setAgentEnabled t a _ =>
    if ((db.visible conn.tenantId).agent? t a).isSome then [⟨.agentRow t a, true⟩] else []
  | .upsertAgent t a _ => [⟨.agentRow t a, true⟩]
  | .upsertTenant t slug _ => [⟨.tenantRow t, true⟩, ⟨.slug slug, true⟩]
  | .cleanupStreamTickets t =>
    ((db.visible conn.tenantId).tickets.filter fun r => r.tenantId = t && r.spent rd.now).map
      fun r => ⟨.ticket r.ticketId, true⟩
  | .createStreamTicket id _ _ _ authorizedUntilUnix =>
    if authorizedUntilUnix * 1000000 ≤ rd.now then [] else [⟨.ticket id, true⟩]
  | .consumeStreamTicket t id =>
    if (db.visible conn.tenantId).tickets.any fun r =>
        r.tenantId = t ∧ r.ticketId = id ∧ r.spent rd.now = false then [⟨.ticket id, true⟩] else []
  | _ => []

def Stmt.configure (st : Stmt) (rd : Reading) (conn : Conn) : Conn :=
  match st with
  | .begin => { conn with startedAt := rd.now }
  | .setTenantContext t => { conn with tenantId := some t }
  | _ => conn

def Stmt.commits : Stmt → Bool
  | .commit => true
  | _ => false

/-- The statements that take a value of the identity column. -/
def Stmt.draws : Stmt → Bool
  | .insertEvent _ => true
  | _ => false

end SkidMonitor
