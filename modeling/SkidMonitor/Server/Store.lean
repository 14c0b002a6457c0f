import SkidMonitor.Lib.Fallible
import SkidMonitor.Server.Sql

/-! The calls of `PgSignalStore`, statement by statement. -/
namespace SkidMonitor

open Uuids (Uuid)

abbrev StoreM := Prog Stmt Stmt.Resp PgStoreError

abbrev exec (st : Stmt) : StoreM st.Resp := Prog.send st

def maxLoadLimit : ℕ := 1000
def maxReplayJsonBytes : ℕ := 64 * 1024 * 1024
def maxAgentsPerTenant : ℕ := 1000
def maxStreamTicketTtlNanos : ℕ := 5 * 60 * 1000000000
def maxStreamTicketSubjectBytes : ℕ := 1024
def maxStreamTicketAuthorizationUnix : ℕ := 253402300799

structure AgentRecord where
  tenantId : TenantId
  agentId : AgentId
  displayName : Option Str
  enabled : Bool
  enrolledAtUnixNano : UInt64
  lastSeenAtUnixNano : Option UInt64
  deriving DecidableEq, Repr

structure TenantRecord where
  tenantId : TenantId
  slug : Str
  displayName : Str
  enabled : Bool
  createdAtUnixNano : UInt64
  deriving DecidableEq, Repr

structure ProjectionRecord where
  tenantId : TenantId
  lastCursor : SignalCursor
  projection : SignalProjection
  deriving DecidableEq

structure StreamTicketGrant where
  subject : Str
  authorizedUntilUnix : UInt64
  deriving DecidableEq, Repr

def tenantScope : SignalScope → Except PgStoreError TenantId
  | .tenant tenantId => .ok tenantId
  | .solo => .error .soloScope

def signalKindName (envelope : SignalEnvelope) : String :=
  match envelope.kind with
  | .metrics => "metrics"
  | .traces => "traces"
  | .logs => "logs"

def boundedLoadLimit (limit : ℕ) : ℕ := min limit maxLoadLimit

def boundedReplayJsonBytes (maxJsonBytes : ℕ) : ℕ := min maxJsonBytes maxReplayJsonBytes

def validateAgentCapacity (tenantId : TenantId) (agentCount : ℤ) (alreadyEnrolled : Bool) :
    Except PgStoreError Unit :=
  if !alreadyEnrolled && agentCount ≥ maxAgentsPerTenant then
    .error (.agentLimitReached tenantId maxAgentsPerTenant)
  else .ok ()

def normalizedDisplayName (displayName : Option Str) : Option Str :=
  (displayName.map Text.trim).filter (!·.isEmpty)

def requiredActorId (actorId : Str) : Except PgStoreError Str :=
  let actorId := Text.trim actorId
  if actorId.isEmpty then .error .invalidActorId else .ok actorId

def requiredStreamTicketSubject (subject : Str) : Except PgStoreError Str :=
  let subject := Text.trim subject
  if subject.isEmpty || Text.byteLength subject > maxStreamTicketSubjectBytes then
    .error .invalidStreamTicketSubject
  else .ok subject

def streamTicketTtlMillis (ttlNanos : ℕ) : Except PgStoreError ℕ :=
  if ttlNanos = 0 ∨ ttlNanos > maxStreamTicketTtlNanos then .error .invalidStreamTicketTtl
  else if ttlNanos / 1000000 = 0 then .error .invalidStreamTicketTtl
  else .ok (ttlNanos / 1000000)

def streamTicketAuthorizationUnix (authorizedUntilUnix : UInt64) : Except PgStoreError ℕ :=
  if authorizedUntilUnix.toNat > maxStreamTicketAuthorizationUnix then
    .error .invalidStreamTicketAuthorizationExpiry
  else .ok authorizedUntilUnix.toNat

/-- The two halves of the identifier, one on the other. -/
def tenantLockKey (tenantId : TenantId) : BitVec 64 :=
  tenantId.uuid.extractLsb' 64 64 ^^^ tenantId.uuid.extractLsb' 0 64

def toPgI64 (field : String) (value : UInt64) : Except PgStoreError ℤ :=
  if value.toNat < 2 ^ 63 then .ok value.toNat else .error (.integerOutOfRange field)

def fromPgI64 (field : String) (value : ℤ) : Except PgStoreError UInt64 :=
  if 0 ≤ value ∧ value < 2 ^ 63 then .ok (UInt64.ofNat value.toNat)
  else .error (.integerOutOfRange field)

def fromPgU64Text (field : String) (value : Str) : Except PgStoreError UInt64 :=
  match Numeral.readU64 value with
  | some n => .ok n
  | none => .error (.corruptRow field)

def cursorFromRow (cursor : ℤ) : Except PgStoreError SignalCursor :=
  return ⟨← fromPgI64 "cursor" cursor⟩

/-- A cursor is read from its row as the number it is. -/
theorem cursorFromRow_ok {z : ℤ} {c : SignalCursor} (h : cursorFromRow z = .ok c) :
    z = c.value.toNat ∧ z < 2 ^ 63 := by
  unfold cursorFromRow fromPgI64 at h
  split_ifs at h with hz
  · cases h
    have hlt : z.toNat < 2 ^ 64 := by omega
    simp only [UInt64.toNat_ofNat', Nat.mod_eq_of_lt hlt]
    omega
  · cases h

theorem cursorFromRow_bounds {z : ℤ} (hpos : 0 ≤ z) (hlt : z < 2 ^ 63) :
    ∃ c, cursorFromRow z = .ok c := by
  refine ⟨⟨UInt64.ofNat z.toNat⟩, ?_⟩
  simp only [cursorFromRow, fromPgI64, if_pos (And.intro hpos hlt)]
  rfl

theorem toPgI64_ok {field : String} {c : UInt64} {z : ℤ} (hz : z = c.toNat) (hlt : z < 2 ^ 63) :
    toPgI64 field c = .ok z := by
  rw [toPgI64, if_pos (by omega), hz]

def agentIdFromRow (text : Str) : Except PgStoreError AgentId :=
  match AgentId.new text with
  | .ok agentId => .ok agentId
  | .error error => .error (.invalidAgentId error.toText)

/-- A payload column that cannot be decoded is an error of the row. -/
def payloadFromColumn (sd : Serde) (column : Json Numbers.Numeric) : Except PgStoreError Value :=
  Fallible.orError (.database .columnDecode) (fromJsonb sd column)

def signalRecordFromRow (sd : Serde) (tenantId : TenantId) (row : LoadedEvent) :
    Except PgStoreError SignalRecord := do
  let payload ← payloadFromColumn sd row.payload
  let cursor ← cursorFromRow row.cursor
  let eventId ← (Uuids.parse (Uuids.print row.eventId)).elim
    (throw (.corruptRow "event_id")) (fun uuid => pure (EventId.mk uuid))
  let agentId ← agentIdFromRow row.agentId
  let sequence ← fromPgU64Text "sequence" row.sequence
  let receivedAtUnixNano ← fromPgU64Text "received_at_unix_nano" row.receivedAtUnixNano
  let payload ← (sd.signalFromValue payload).elim (throw .json) pure
  return ⟨cursor, ⟨eventId, .tenant tenantId, agentId, sequence, receivedAtUnixNano, payload⟩⟩

def agentRecordFromRow (tenantId : TenantId) (row : AgentColumns) :
    Except PgStoreError AgentRecord := do
  let agentId ← agentIdFromRow row.agentId
  let enrolledAt ← fromPgI64 "enrolled_at_unix_nano" row.enrolledAtUnixNano
  let lastSeenAt ← row.lastSeenAtUnixNano.mapM (fromPgI64 "last_seen_at_unix_nano")
  return ⟨tenantId, agentId, row.displayName, row.enabled, enrolledAt, lastSeenAt⟩

def signalRecordsFromRows (sd : Serde) (tenantId : TenantId) (rows : List LoadedEvent) :
    Except PgStoreError (List SignalRecord) := rows.mapM (signalRecordFromRow sd tenantId)

def agentRecordsFromRows (tenantId : TenantId) (rows : List AgentColumns) :
    Except PgStoreError (List AgentRecord) := rows.mapM (agentRecordFromRow tenantId)

def tenantRecordFromRow (tenantId : TenantId) (row : TenantColumns) :
    Except PgStoreError TenantRecord := do
  let createdAt ← fromPgI64 "created_at_unix_nano" row.createdAtUnixNano
  return ⟨tenantId, row.slug, row.displayName, row.enabled, createdAt⟩

def requireEnabledTenant (tenantId : TenantId) : StoreM Unit := do
  match ← exec (.requireEnabledTenant tenantId) with
  | some true => pure ()
  | some false => throw (.tenantDisabled tenantId)
  | none => throw (.database .rowNotFound)

/-- The head of every call: a transaction for one tenant, which must be enabled. -/
def beginFor (tenantId : TenantId) : StoreM Unit := do
  exec .begin
  exec (.setTenantContext tenantId)
  requireEnabledTenant tenantId

/-- The check of the agent, which locks its row until the transaction ends. -/
def requireEnabledAgent (tenantId : TenantId) (agentId : AgentId) : StoreM Unit := do
  match ← exec (.selectAgentEnabled tenantId agentId.text) with
  | none => throw (.agentNotEnrolled agentId)
  | some false => throw (.agentDisabled agentId)
  | some true => pure ()

/-- The branch of an append whose sequence is taken: the stored event must be the same. -/
def confirmExisting (sd : Serde) (tenantId : TenantId) (envelope : SignalEnvelope)
    (payload : Value) : StoreM AppendOutcome := do
  let sequence := Numeral.print envelope.sequence.toNat
  match ← exec (.selectEvent tenantId envelope.agentId.text sequence) with
  | none => throw (.database .rowNotFound)
  | some row =>
    let existing ← payloadFromColumn sd row.payload
    if row.signalKind ≠ signalKindName envelope ∨
        Json.eqBy Numbers.Number.same existing payload = false then
      throw (.sequenceConflict envelope.agentId envelope.sequence)
    else
      let cursor ← cursorFromRow row.cursor
      exec .commit
      return ⟨cursor, false⟩

/-- The branch of an append whose event is new: the projection takes it in. -/
def recordInserted (tenantId : TenantId) (envelope : SignalEnvelope) (inserted : ℤ) :
    StoreM AppendOutcome := do
  let cursor ← cursorFromRow inserted
  let cursorI64 ← toPgI64 "cursor" cursor.value
  exec (.insertProjection tenantId .default)
  match ← exec (.selectProjectionForUpdate tenantId) with
  | none => throw (.database .rowNotFound)
  | some projection =>
    exec (.updateProjection tenantId cursorI64 (projection.observe envelope))
    exec (.touchAgent tenantId envelope.agentId.text)
    exec (.notify tenantId cursor.value)
    exec .commit
    return ⟨cursor, true⟩

def appendEnvelope (sd : Serde) (envelope : SignalEnvelope) : StoreM AppendOutcome := do
  let tenantId ← tenantScope envelope.scope
  let sequence := Numeral.print envelope.sequence.toNat
  let receivedAt := Numeral.print envelope.receivedAtUnixNano.toNat
  let payload ← canonicalSignalPayload sd envelope.payload
  beginFor tenantId
  exec (.advisoryLock (tenantLockKey tenantId))
  requireEnabledAgent tenantId envelope.agentId
  match ← exec (.insertEvent ⟨tenantId, envelope.eventId.uuid, envelope.agentId.text, sequence,
      receivedAt, signalKindName envelope, payload.value, payload.byteLen⟩) with
  | none => confirmExisting sd tenantId envelope payload.value
  | some inserted => recordInserted tenantId envelope inserted

def loadEnvelopesAfterBounded (sd : Serde) (scope : SignalScope) (after : SignalCursor)
    (rowLimit maxJsonBytes : ℕ) : StoreM (List SignalRecord) := do
  let tenantId ← tenantScope scope
  let after ← toPgI64 "cursor" after.value
  beginFor tenantId
  let rows ← exec (.loadEnvelopesBounded tenantId after (boundedLoadLimit rowLimit)
    (boundedReplayJsonBytes maxJsonBytes))
  let records ← signalRecordsFromRows sd tenantId rows
  exec .commit
  return records

def upsertTenantAs (tenantId : TenantId) (slug displayName actorId : Str) :
    StoreM TenantRecord := do
  let actorId ← requiredActorId actorId
  let slug := Text.trim slug
  let displayName := Text.trim displayName
  exec .begin
  exec (.setTenantContext tenantId)
  let row ← exec (.upsertTenant tenantId slug displayName)
  let tenant ← tenantRecordFromRow tenantId row
  if !tenant.enabled then
    throw (.tenantDisabled tenantId)
  exec (.insertAudit ⟨tenantId, "user", actorId, "tenant.upsert", "tenant",
    Uuids.print tenantId.uuid, .tenant slug displayName⟩)
  exec .commit
  return tenant

def listAgents (tenantId : TenantId) : StoreM (List AgentRecord) := do
  beginFor tenantId
  let rows ← exec (.listAgents tenantId)
  let agents ← agentRecordsFromRows tenantId rows
  exec .commit
  return agents

def loadProjection (tenantId : TenantId) : StoreM (Option ProjectionRecord) := do
  beginFor tenantId
  match ← exec (.selectProjection tenantId) with
  | none =>
    exec .commit
    return none
  | some (lastCursor, projection) =>
    let lastCursor ← fromPgI64 "last_cursor" lastCursor
    exec .commit
    return some ⟨tenantId, ⟨lastCursor⟩, projection⟩

def enrollAgentAs (tenantId : TenantId) (agentId : AgentId) (displayName : Option Str)
    (actorId : Str) : StoreM AgentRecord := do
  let actorId ← requiredActorId actorId
  let displayName := normalizedDisplayName displayName
  beginFor tenantId
  exec (.advisoryLock (tenantLockKey tenantId))
  let cardinality ← exec (.agentCardinality tenantId agentId.text)
  validateAgentCapacity tenantId cardinality.1 cardinality.2
  let row ← exec (.upsertAgent tenantId agentId.text displayName)
  let agent ← agentRecordFromRow tenantId row
  exec (.insertAudit ⟨tenantId, "user", actorId, "agent.enroll", "agent", agentId.text,
    .enroll displayName⟩)
  exec .commit
  return agent

def setAgentEnabledAs (tenantId : TenantId) (agentId : AgentId) (enabled : Bool)
    (actorId : Str) : StoreM (Option AgentRecord) := do
  let actorId ← requiredActorId actorId
  beginFor tenantId
  match ← exec (.setAgentEnabled tenantId agentId.text enabled) with
  | none =>
    exec .commit
    return none
  | some row =>
    let agent ← agentRecordFromRow tenantId row
    exec (.insertAudit ⟨tenantId, "user", actorId, "agent.set_enabled", "agent", agentId.text,
      .setEnabled enabled⟩)
    exec .commit
    return some agent

/-- The fresh identifier of the ticket is an argument here. -/
def createStreamTicket (ticketId : Uuid) (tenantId : TenantId) (subject : Str)
    (authorizedUntilUnix : UInt64) (ttlNanos : ℕ) : StoreM Uuid := do
  let subject ← requiredStreamTicketSubject subject
  let authorizedUntilUnix ← streamTicketAuthorizationUnix authorizedUntilUnix
  let ttlMillis ← streamTicketTtlMillis ttlNanos
  beginFor tenantId
  let _ ← exec (.cleanupStreamTickets tenantId)
  let inserted : ℕ ← exec (.createStreamTicket ticketId tenantId subject ttlMillis
    authorizedUntilUnix)
  if inserted = 0 then
    throw .streamTicketAuthorizationExpired
  exec .commit
  return ticketId

def consumeStreamTicket (tenantId : TenantId) (ticketId : Uuid) :
    StoreM (Option StreamTicketGrant) := do
  beginFor tenantId
  match ← exec (.consumeStreamTicket tenantId ticketId) with
  | none =>
    exec .commit
    return none
  | some (subject, authorizedUntilUnix) =>
    let authorizedUntilUnix ← fromPgI64 "authorized_until_unix" authorizedUntilUnix
    exec .commit
    return some ⟨subject, authorizedUntilUnix⟩

def cleanupStreamTickets (tenantId : TenantId) : StoreM ℕ := do
  beginFor tenantId
  let removed ← exec (.cleanupStreamTickets tenantId)
  exec .commit
  return removed

end SkidMonitor
