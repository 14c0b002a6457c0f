import SkidMonitor.Server.Issues

/-! The stages of the calls, and that each call moves through them. Appends and loads
are followed statement by statement; the other calls never touch events. -/
namespace SkidMonitor

open ReadCommitted

variable {sd : Serde}

/-- An append past its checks of the envelope. -/
structure Append (sd : Serde) where
  envelope : SignalEnvelope
  tenant : TenantId
  payload : CanonicalSignalPayload
  scope : envelope.scope = .tenant tenant
  canonical : canonicalSignalPayload sd envelope.payload = .ok payload

namespace Append

variable (w : Append sd)

def agent : Str := w.envelope.agentId.text

def insert : EventInsert :=
  ⟨w.tenant, w.envelope.eventId.uuid, w.agent, Numeral.print w.envelope.sequence.toNat,
    Numeral.print w.envelope.receivedAtUnixNano.toNat, signalKindName w.envelope,
    w.payload.value, w.payload.byteLen⟩

/-- The row an append inserts at a cursor. -/
def row (cursor : ℤ) : EventRow :=
  ⟨cursor, w.tenant, w.envelope.eventId.uuid, w.agent, w.envelope.sequence.toNat,
    w.envelope.receivedAtUnixNano.toNat, signalKindName w.envelope,
    toJsonb w.payload.value, w.payload.byteLen⟩

/-- The check that takes an existing event for the one that is appended again. -/
def Matches (kind : String) (payload : Value) : Prop :=
  kind = signalKindName w.envelope ∧
    Json.eqBy Numbers.Number.same payload w.payload.value = true

instance (kind : String) (payload : Value) : Decidable (w.Matches kind payload) :=
  inferInstanceAs (Decidable (_ ∧ _))

/-- The payload column can be read, and the check goes through. -/
def Confirms (kind : String) (column : Json Numbers.Numeric) : Prop :=
  ∃ stored, fromJsonb sd column = some stored ∧ w.Matches kind stored

/-- An append is determined by its envelope. -/
theorem eq_of_envelope {w v : Append sd} (h : w.envelope = v.envelope) : w = v := by
  obtain ⟨e, t, p, hs, hp⟩ := w
  obtain ⟨e', t', p', hs', hp'⟩ := v
  cases h
  cases SignalScope.tenant.inj (hs.symm.trans hs')
  cases Except.ok.inj (hp.symm.trans hp')
  rfl

end Append

/-- A load past its checks of scope and cursor. -/
structure Load where
  tenant : TenantId
  after : ℤ
  limit : ℕ
  maxBytes : ℕ

inductive Stage (sd : Serde) where
  | opening (w : Append sd)
  | admitting (w : Append sd)
  | admitted (w : Append sd)
  | locked (w : Append sd)
  | checked (w : Append sd)
  | found (w : Append sd)
  | duplicate (w : Append sd) (cursor : ℤ)
  | placed (w : Append sd) (cursor : ℤ)
  | prepared (w : Append sd) (cursor : ℤ)
  | observed (w : Append sd) (cursor : ℤ) (projection : SignalProjection)
  | updated (w : Append sd) (cursor : ℤ)
  | loadOpening (q : Load)
  | loadAdmitting (q : Load)
  | loaded (q : Load) (rows : List LoadedEvent)
  | refused (error : PgStoreError)
  | other
  | ended (outcome : AppendOutcome)

/-- Answers that say nothing about events. -/
def Reply.Quiet : Reply → Prop
  | .appended _ | .loaded _ => False
  | _ => True

inductive Move : Stage sd → (st : Stmt) → st.Resp → Stage sd → Prop
  | begin (w) : Move (.opening w) .begin () (.opening w)
  | context (w) : Move (.opening w) (.setTenantContext w.tenant) () (.admitting w)
  | admitted (w) :
      Move (.admitting w) (.requireEnabledTenant w.tenant) (some true) (.admitted w)
  | tenantDisabled (w) : Move (.admitting w) (.requireEnabledTenant w.tenant) (some false)
      (.refused (.tenantDisabled w.tenant))
  | tenantMissing (w) : Move (.admitting w) (.requireEnabledTenant w.tenant) none
      (.refused (.database .rowNotFound))
  | lock (w) : Move (.admitted w) (.advisoryLock (tenantLockKey w.tenant)) () (.locked w)
  | agentEnabled (w) :
      Move (.locked w) (.selectAgentEnabled w.tenant w.agent) (some true) (.checked w)
  | agentDisabled (w) : Move (.locked w) (.selectAgentEnabled w.tenant w.agent) (some false)
      (.refused (.agentDisabled w.envelope.agentId))
  | agentMissing (w) : Move (.locked w) (.selectAgentEnabled w.tenant w.agent) none
      (.refused (.agentNotEnrolled w.envelope.agentId))
  | taken (w) : Move (.checked w) (.insertEvent w.insert) none (.found w)
  | inserted (w) (cursor : ℤ) :
      Move (.checked w) (.insertEvent w.insert) (some cursor) (.placed w cursor)
  | same (w) (row : ExistingEvent) (hm : w.Confirms row.signalKind row.payload) :
      Move (.found w) (.selectEvent w.tenant w.agent w.insert.sequence) (some row)
        (.duplicate w row.cursor)
  | unreadable (w) (row : ExistingEvent) (hread : fromJsonb sd row.payload = none) :
      Move (.found w) (.selectEvent w.tenant w.agent w.insert.sequence) (some row)
        (.refused (.database .columnDecode))
  | differs (w) (row : ExistingEvent) (stored : Value)
      (hread : fromJsonb sd row.payload = some stored) (hm : ¬ w.Matches row.signalKind stored) :
      Move (.found w) (.selectEvent w.tenant w.agent w.insert.sequence) (some row)
        (.refused (.sequenceConflict w.envelope.agentId w.envelope.sequence))
  | vanished (w) : Move (.found w) (.selectEvent w.tenant w.agent w.insert.sequence) none
      (.refused (.database .rowNotFound))
  | commitDuplicate (w) (cursor : ℤ) (c) (hc : cursorFromRow cursor = .ok c) :
      Move (.duplicate w cursor) .commit () (.ended ⟨c, false⟩)
  | prepare (w) (cursor : ℤ) :
      Move (.placed w cursor) (.insertProjection w.tenant .default) () (.prepared w cursor)
  | observe (w) (cursor : ℤ) (p : SignalProjection) :
      Move (.prepared w cursor) (.selectProjectionForUpdate w.tenant) (some p)
        (.observed w cursor p)
  | noProjection (w) (cursor : ℤ) :
      Move (.prepared w cursor) (.selectProjectionForUpdate w.tenant) none
        (.refused (.database .rowNotFound))
  | update (w) (cursor : ℤ) (p : SignalProjection) :
      Move (.observed w cursor p) (.updateProjection w.tenant cursor (p.observe w.envelope)) ()
        (.updated w cursor)
  | touch (w) (cursor : ℤ) :
      Move (.updated w cursor) (.touchAgent w.tenant w.agent) () (.updated w cursor)
  | notify (w) (cursor : ℤ) (c : UInt64) :
      Move (.updated w cursor) (.notify w.tenant c) () (.updated w cursor)
  | commit (w) (cursor : ℤ) (c) (hc : cursorFromRow cursor = .ok c) :
      Move (.updated w cursor) .commit () (.ended ⟨c, true⟩)
  | loadBegin (q) : Move (.loadOpening q) .begin () (.loadOpening q)
  | loadContext (q) : Move (.loadOpening q) (.setTenantContext q.tenant) () (.loadAdmitting q)
  | loadAdmitted (q r) : Move (.loadAdmitting q) (.requireEnabledTenant q.tenant) r (.loadAdmitting q)
  | loadRows (q rows) :
      Move (.loadAdmitting q) (.loadEnvelopesBounded q.tenant q.after q.limit q.maxBytes) rows
        (.loaded q rows)
  | commitLoad (q rows) : Move (.loaded q rows) .commit () (.loaded q rows)
  | other (st r) (hst : st.Quiet) : Move .other st r .other

/-- How a call may end in a stage. -/
def Ends : Stage sd → Except PgStoreError Reply → Prop
  | .ended outcome, .ok res => res = .appended outcome
  | .refused error, .error e => e = error
  | .duplicate _ cursor, .error e | .placed _ cursor, .error e => cursorFromRow cursor = .error e
  | .other, .ok res => res.Quiet
  | .loaded q rows, .ok res => ∃ records,
      res = .loaded records ∧ signalRecordsFromRows sd q.tenant rows = .ok records
  | .other, .error _ | .loadAdmitting _, .error _ | .loaded _ _, .error _ => True
  | _, _ => False

theorem confirmExisting_follows (w : Append sd) :
    (Reply.appended <$> confirmExisting sd w.tenant w.envelope w.payload.value).Follows Move Ends
      (.found w) := by
  simp only [confirmExisting, Prog.map_eq, Prog.send_bind, Prog.query_bind, Prog.follows_query]
  rintro (_ | row)
  · exact ⟨_, .vanished w, rfl⟩
  cases hread : fromJsonb sd row.payload with
  | none =>
    simp only [payloadFromColumn, Fallible.orError, hread]
    exact ⟨_, .unreadable w row hread, rfl⟩
  | some stored =>
    simp only [payloadFromColumn, Fallible.orError, hread, Prog.liftM_eq, Prog.ofExcept_ok,
      Prog.ok_bind]
    by_cases h : row.signalKind ≠ signalKindName w.envelope ∨
        Json.eqBy Numbers.Number.same stored w.payload.value = false
    · simp only [if_pos h]
      refine ⟨_, .differs w row stored hread ?_, rfl⟩
      rintro ⟨hkind, hpayload⟩
      exact h.elim (fun hk => hk hkind) (by simp [hpayload])
    · simp only [if_neg h]
      simp only [ne_eq, not_or, not_not, Bool.not_eq_false] at h
      refine ⟨_, .same w row ⟨stored, hread, h⟩, ?_⟩
      cases hc : cursorFromRow row.cursor with
      | error e => exact hc
      | ok c => exact fun _ => ⟨_, .commitDuplicate w _ c hc, rfl⟩

theorem recordInserted_follows (w : Append sd) (cursor : ℤ) :
    (Reply.appended <$> recordInserted w.tenant w.envelope cursor).Follows Move Ends
      (.placed w cursor) := by
  unfold recordInserted
  cases hc : cursorFromRow cursor with
  | error e => exact hc
  | ok c =>
    obtain ⟨hz, hlt⟩ := cursorFromRow_ok hc
    simp only [Prog.liftM_eq, Prog.ofExcept_ok, Prog.ok_bind, toPgI64_ok hz hlt, Prog.map_eq,
      Prog.send_bind]
    refine fun _ => ⟨_, .prepare w cursor, ?_⟩
    rintro (_ | p)
    · exact ⟨_, .noProjection w cursor, rfl⟩
    · exact ⟨_, .observe w cursor p, fun _ => ⟨_, .update w cursor p, fun _ =>
        ⟨_, .touch w cursor, fun _ => ⟨_, .notify w cursor _, fun _ =>
          ⟨_, .commit w cursor c hc, rfl⟩⟩⟩⟩⟩

theorem append_follows (w : Append sd) :
    (Call.program sd (.append w.envelope)).Follows Move Ends (.opening w) := by
  simp only [Call.program, appendEnvelope, w.scope, tenantScope, w.canonical, beginFor,
    Prog.liftM_eq, Prog.ofExcept_ok, Prog.ok_bind]
  refine fun _ => ⟨_, .begin w, fun _ => ⟨_, .context w, ?_⟩⟩
  rintro (_ | _ | _)
  · exact ⟨_, .tenantMissing w, rfl⟩
  · exact ⟨_, .tenantDisabled w, rfl⟩
  refine ⟨_, .admitted w, fun _ => ⟨_, .lock w, ?_⟩⟩
  rintro (_ | _ | _)
  · exact ⟨_, .agentMissing w, rfl⟩
  · exact ⟨_, .agentDisabled w, rfl⟩
  refine ⟨_, .agentEnabled w, ?_⟩
  rintro (_ | cursor)
  · exact ⟨_, .taken w, confirmExisting_follows w⟩
  · exact ⟨_, .inserted w cursor, recordInserted_follows w cursor⟩

theorem load_follows {scope : SignalScope} {after : SignalCursor} {rowLimit maxJsonBytes : ℕ}
    {t : TenantId} {z : ℤ} (ht : tenantScope scope = .ok t)
    (hz : toPgI64 "cursor" after.value = .ok z) :
    (Call.program sd (.load scope after rowLimit maxJsonBytes)).Follows Move Ends
      (.loadOpening ⟨t, z, boundedLoadLimit rowLimit, boundedReplayJsonBytes maxJsonBytes⟩ :
        Stage sd) := by
  simp only [Call.program, loadEnvelopesAfterBounded, ht, hz, beginFor, Prog.liftM_eq,
    Prog.ofExcept_ok, Prog.ok_bind]
  refine fun _ => ⟨_, .loadBegin _, fun _ => ⟨_, .loadContext ⟨t, z, _, _⟩, ?_⟩⟩
  rintro (_ | _ | _)
  · exact ⟨_, .loadAdmitted ⟨t, z, _, _⟩ _, trivial⟩
  · exact ⟨_, .loadAdmitted ⟨t, z, _, _⟩ _, trivial⟩
  refine ⟨_, .loadAdmitted ⟨t, z, _, _⟩ _, fun rows => ⟨_, .loadRows ⟨t, z, _, _⟩ rows, ?_⟩⟩
  change (Prog.bind (Prog.bind (.ofExcept (signalRecordsFromRows sd t rows)) _) _).Follows _ _ _
  cases hrec : signalRecordsFromRows sd t rows with
  | error e => trivial
  | ok records => exact fun _ => ⟨_, .commitLoad _ rows, records, rfl, hrec⟩

/-- A call of quiet statements stays clear of events. -/
theorem quiet_follows {α : Type} {p : StoreM α} {f : α → Reply} (hp : (f <$> p).All Stmt.Quiet)
    (hf : ∀ a, (f a).Quiet) : (f <$> p).Follows Move Ends (.other : Stage sd) := by
  induction p with
  | ok a => exact hf a
  | err e => trivial
  | query st k ih => exact fun r => ⟨_, .other st r hp.1, ih r (hp.2 r)⟩

theorem plain_follows {c : Call} (hc : c.Plain) :
    (Call.program sd c).Follows Move Ends (.other : Stage sd) := by
  have hquiet := (program_issues sd c).mono fun _ h => h.quiet hc
  cases c with
  | append | load => exact hc.elim
  | _ => exact quiet_follows hquiet fun _ => trivial

/-- The stage a call begins in. -/
def Begins (c : Call) : Stage sd → Prop
  | .opening w => c = .append w.envelope
  | .loadOpening q => ∃ after rowLimit maxJsonBytes,
      c = .load (.tenant q.tenant) after rowLimit maxJsonBytes ∧
        toPgI64 "cursor" after.value = .ok q.after
  | .refused error => ∀ envelope, c = .append envelope →
      (envelope.scope = .solo ∧ error = .soloScope) ∨
        canonicalSignalPayload sd envelope.payload = .error error
  | .other => c.Plain
  | _ => False

/-- Every call moves through stages. -/
theorem program_follows (c : Call) :
    ∃ g : Stage sd, (Call.program sd c).Follows Move Ends g ∧ Begins c g := by
  cases c with
  | append envelope =>
    -- An envelope that fails its own checks never reaches the database.
    cases hs : envelope.scope with
    | solo =>
      refine ⟨.refused .soloScope, ?_, ?_⟩
      · simp only [Call.program, appendEnvelope, hs]
        rfl
      · rintro _ ⟨rfl⟩
        exact Or.inl ⟨hs, rfl⟩
    | tenant t =>
      cases hp : canonicalSignalPayload sd envelope.payload with
      | error e =>
        refine ⟨.refused e, ?_, ?_⟩
        · simp only [Call.program, appendEnvelope, hs, hp]
          rfl
        · rintro _ ⟨rfl⟩
          exact Or.inr hp
      | ok payload => exact ⟨_, append_follows ⟨envelope, t, payload, hs, hp⟩, rfl⟩
  | load scope after rowLimit maxJsonBytes =>
    cases scope with
    | solo => exact ⟨.refused .soloScope, rfl, nofun⟩
    | tenant t =>
      cases hz : toPgI64 "cursor" after.value with
      | error e =>
        refine ⟨.refused e, ?_, nofun⟩
        simp only [Call.program, loadEnvelopesAfterBounded, tenantScope, hz]
        rfl
      | ok z => exact ⟨_, load_follows rfl hz, after, rowLimit, maxJsonBytes, rfl, hz⟩
  | _ => exact ⟨.other, plain_follows trivial, trivial⟩

end SkidMonitor
