import SkidMonitor.Agent.Exporter
import SkidMonitor.Server.Alone

/-! `CloudOtlpIngest::append`, and which answers of the store are reported as an outage. -/
namespace SkidMonitor

open ReadCommitted

structure IngestContext where
  tenantId : TenantId
  agentId : AgentId
  sequence : UInt64
  deriving DecidableEq, Repr

/-- The envelope of a request, with the identifier and the time it is given. -/
def IngestContext.envelope (context : IngestContext) (eventId : EventId)
    (receivedAtUnixNano : UInt64) (payload : Signal) : SignalEnvelope :=
  ⟨eventId, .tenant context.tenantId, context.agentId, context.sequence, receivedAtUnixNano, payload⟩

def sequenceFromMetadata (value : Str) : Except Status UInt64 :=
  if value.isEmpty || !value.all Char.isDigit then
    .error ⟨.invalidArgument, "x-skid-sequence must be an unsigned decimal integer"⟩
  else
    match Numeral.readU64 value with
    | some sequence => .ok sequence
    | none => .error ⟨.invalidArgument, "x-skid-sequence is outside the supported u64 range"⟩

/-- The server reads the sequence the agent has written. -/
@[simp] theorem sequenceFromMetadata_print (n : UInt64) :
    sequenceFromMetadata (Numeral.print n.toNat) = .ok n := by
  have hne : (Numeral.print n.toNat).isEmpty = false := by
    simpa using Numeral.print_ne_nil n.toNat
  simp only [sequenceFromMetadata, hne, Numeral.print_isDigit, Bool.not_true, Bool.or_self,
    Bool.false_eq_true, if_false, Numeral.readU64_print]

def storeStatus : PgStoreError → Status
  | .tenantDisabled _ | .agentNotEnrolled _ | .agentDisabled _ =>
    ⟨.permissionDenied, "tenant and agent must be enrolled and enabled"⟩
  | .integerOutOfRange "sequence" =>
    ⟨.invalidArgument, "x-skid-sequence exceeds the supported range"⟩
  | .invalidSignalPayload | .signalPayloadNotRoundTripSafe | .signalPayloadTooLarge _ _ =>
    ⟨.invalidArgument, "signal payload must be JSON round-trip safe and no larger than 16 MiB"⟩
  | .sequenceConflict _ _ =>
    ⟨.alreadyExists, "x-skid-sequence was already used for another signal"⟩
  | .database _ => ⟨.unavailable, "signal store is unavailable"⟩
  | _ => ⟨.internal, "signal could not be committed"⟩

/-- The answer to a request once the store has answered. -/
def ingestResult : Except PgStoreError Reply → Except Status Unit
  | .ok _ => .ok ()
  | .error e => .error (storeStatus e)

variable {sd : Serde} {s t : StoreState} {i : ℕ} {labels : List StoreLabel}
  {envelope : SignalEnvelope} {res : Except PgStoreError Reply}

def answerCode (res : Except PgStoreError Reply) : Code :=
  match ingestResult res with
  | .ok _ => .ok
  | .error status => status.code

/-- Every error of the store but those of the database has a code of its own. -/
theorem storeStatus_code (e : PgStoreError) :
    (∃ e', e = .database e') ∧ (storeStatus e).code = .unavailable ∨ (∀ e', e ≠ .database e') ∧
      (storeStatus e).code ∈ [Code.permissionDenied, .invalidArgument, .alreadyExists, .internal] := by
  cases e with
  | integerOutOfRange field =>
    refine Or.inr ⟨nofun, ?_⟩
    unfold storeStatus
    split <;> simp_all
  | database e' => exact Or.inl ⟨⟨e', rfl⟩, rfl⟩
  | _ => exact Or.inr ⟨nofun, by simp [storeStatus]⟩

/-- Of the codes the ingress answers with, only `Unavailable` is tried again. -/
theorem retryDecision_storeStatus (e : PgStoreError) (hasAuth refreshedAuth : Bool) :
    retryDecision (storeStatus e).code hasAuth refreshedAuth = .retry ↔
      (storeStatus e).code = .unavailable := by
  rcases storeStatus_code e with ⟨_, hcode⟩ | ⟨_, hcode⟩
  · simp [hcode, retryDecision]
  · simp only [List.mem_cons, List.not_mem_nil, or_false] at hcode
    rcases hcode with hcode | hcode | hcode | hcode <;> simp [hcode, retryDecision]

section Outage

/-- No other event of the tenant has the identifier of the envelope. -/
def FreshId (envelope : SignalEnvelope) (db : Db) : Prop := ∀ r ∈ db.events,
  envelope.scope = .tenant r.tenantId → r.eventId = envelope.eventId.uuid →
    r.agentId = envelope.agentId.text ∧ r.sequence = envelope.sequence.toNat

/-- The tenant and the agent of the envelope are as enabled as before. -/
def Unswitched (envelope : SignalEnvelope) (db db' : Db) : Prop := ∀ t,
  envelope.scope = .tenant t → db'.tenantEnabled t = db.tenantEnabled t ∧
    db'.agentEnabled t envelope.agentId.text = db.agentEnabled t envelope.agentId.text

variable (sd) in
/-- The event stored under the sequence of the envelope cannot be read back. -/
def Unread (envelope : SignalEnvelope) (db : Db) : Prop := ∃ v : Append sd,
  v.envelope = envelope ∧ v.Unreadable db

variable (sd) in
/-- A rejection that looks like an outage: no row for the tenant, a payload the column
refuses, or one that has to be compared with a payload that cannot be read back. -/
def Misreported (envelope : SignalEnvelope) (db : Db) : Prop := ∃ v : Append sd,
  v.envelope = envelope ∧ (db.tenantEnabled v.tenant = none ∨
    Enabled envelope db ∧ (¬ v.Storable ∨ v.Unreadable db))

theorem unread_iff {v : Append sd} {db : Db} : Unread sd v.envelope db ↔ v.Unreadable db := by
  constructor
  · rintro ⟨v', hv', h⟩
    cases Append.eq_of_envelope hv'
    exact h
  · exact fun h => ⟨v, rfl, h⟩

theorem misreported_iff {v : Append sd} {db : Db} : Misreported sd v.envelope db ↔
    db.tenantEnabled v.tenant = none ∨ (db.tenantEnabled v.tenant = some true ∧
      db.agentEnabled v.tenant v.agent = some true) ∧ (¬ v.Storable ∨ v.Unreadable db) := by
  rw [← enabled_iff]
  constructor
  · rintro ⟨v', hv', h⟩
    cases Append.eq_of_envelope hv'
    exact h
  · exact fun h => ⟨v, rfl, h⟩

/-- An event that cannot be read back stays so. -/
theorem Append.Unreadable.grows {v : Append sd} {db db' : Db} (h : v.Unreadable db)
    (hgrows : db.Grows db') : v.Unreadable db' := by
  obtain ⟨row, hrow, hread⟩ := h
  exact ⟨row, hgrows.event? hrow, hread⟩

theorem FreshId.not_clashes {db : Db} {v : Append sd} (h : FreshId v.envelope db)
    (hnone : v.event? db = none) : ¬ v.Clashes db := by
  rintro ⟨r, hr, ht, hid⟩
  obtain ⟨ha, hseq⟩ := h r hr (ht ▸ v.scope) hid
  have hkey := List.find?_eq_none.mp hnone r hr
  simp [ht, ha, hseq, Append.agent] at hkey

theorem readable_of_stored {v : Append sd} {db : Db} {row : EventRow} {stored : Value}
    (hrow : v.event? db = some row) (h : fromJsonb sd row.payload = some stored) :
    ¬ v.Unreadable db := by
  rintro ⟨row', hrow', hnone⟩
  cases hrow.symm.trans hrow'
  cases h.symm.trans hnone

theorem answerCode_unavailable :
    answerCode res = .unavailable ↔ ∃ e, res = .error (.database e) := by
  cases res with
  | ok reply => simp [answerCode, ingestResult]
  | error e =>
    change (storeStatus e).code = .unavailable ↔ _
    rcases storeStatus_code e with ⟨⟨e', rfl⟩, hcode⟩ | ⟨hne, hcode⟩
    · exact ⟨fun _ => ⟨e', rfl⟩, fun _ => hcode⟩
    · constructor
      · intro h
        rw [h] at hcode
        simp at hcode
      · rintro ⟨e', he⟩
        cases he
        exact (hne e' rfl).elim

variable (sd) in
/-- What an ingest request may find of the tables that were there before it. -/
structure Steady (envelope : SignalEnvelope) (db db' : Db) : Prop where
  switches : Unswitched envelope db db'
  fresh : FreshId envelope db'
  read : Unread sd envelope db' → Unread sd envelope db

theorem Steady.refl {db : Db} (h : FreshId envelope db) : Steady sd envelope db db :=
  ⟨fun _ _ => ⟨rfl, rfl⟩, h, id⟩

/-- Where the tables stay as they are for a request, the outages reported are the
misreported rejections. -/
theorem unavailable_of_explained {P : Db → Prop} {db : Db}
    (hP : ∀ db', P db' → Steady sd envelope db db' ∧ db.Grows db')
    (hres : Explained sd P envelope res) :
    answerCode res = .unavailable ↔ Misreported sd envelope db := by
  rw [answerCode_unavailable]
  have htenant : ∀ (v : Append sd) {o}, v.envelope = envelope →
      Seen P (fun db => db.tenantEnabled v.tenant = o) → db.tenantEnabled v.tenant = o := by
    rintro v o rfl ⟨db', hdb', ho⟩
    exact ((hP db' hdb').1.switches v.tenant v.scope).1.symm.trans ho
  have hagent : ∀ (v : Append sd) {o}, v.envelope = envelope →
      Seen P (fun db => db.agentEnabled v.tenant v.agent = o) →
        db.agentEnabled v.tenant v.agent = o := by
    rintro v o rfl ⟨db', hdb', ho⟩
    exact ((hP db' hdb').1.switches v.tenant v.scope).2.symm.trans ho
  -- A request that can be stored and has read the event of its sequence, or found none.
  have hsound : ∀ {v : Append sd} {db'}, v.envelope = envelope → On P v → v.Storable → P db' →
      ¬ v.Unreadable db' → ¬ Misreported sd envelope db := by
    rintro v db' rfl hon hs hdb' hnot
    have ht := htenant v rfl hon.tenant
    have hread : ¬ v.Unreadable db := fun h => hnot (h.grows (hP db' hdb').2)
    simp [misreported_iff, ht, hs, hread]
  cases hres with
  | solo h =>
    refine ⟨by simp, fun ⟨v, hv, _⟩ => ?_⟩
    rw [← hv, v.scope] at h
    cases h
  | @payload e h =>
    have herr := canonicalSignalPayload_error h
    refine ⟨?_, fun ⟨v, hv, _⟩ => ?_⟩
    · rintro ⟨e', he⟩
      cases he
      exact herr.elim
    · rw [← hv] at h
      cases h.symm.trans v.canonical
  | tenantMissing v hv h | tenantDisabled v hv h =>
    have ht := htenant v hv h
    subst hv
    simp [misreported_iff, ht]
  | agentMissing v hv h h' | agentDisabled v hv h h' =>
    have ht := htenant v hv h
    have ha := hagent v hv h'
    subst hv
    simp [misreported_iff, ht, ha]
  | raised v hv hon h e =>
    have ht := htenant v hv hon.tenant
    have ha := hagent v hv hon.agent
    subst hv
    rcases h with h | ⟨db', hdb', hnone, hclash⟩
    · simp [misreported_iff, ht, ha, h]
    · exact ((hP db' hdb').1.fresh.not_clashes hnone hclash).elim
  | unreadable v hv hon hs h =>
    have ht := htenant v hv hon.tenant
    have ha := hagent v hv hon.agent
    subst hv
    obtain ⟨db', hdb', hunread⟩ := h
    have hbefore := unread_iff.mp ((hP db' hdb').1.read (unread_iff.mpr hunread))
    simp [misreported_iff, ht, ha, hbefore]
  | conflict v hv hon hs h =>
    obtain ⟨db', hdb', row, stored, hrow, hstored, _⟩ := h
    simp [hsound hv hon hs hdb' (readable_of_stored hrow hstored)]
  | duplicate v hv hon hs h =>
    obtain ⟨db', hdb', row, hrow, _, stored, hstored, _⟩ := h
    simp [hsound hv hon hs hdb' (readable_of_stored hrow hstored)]
  | inserted v hv hon hs h =>
    obtain ⟨db', hdb', hnone⟩ := h
    have hread : ¬ v.Unreadable db' := by simp [Append.Unreadable, hnone]
    simp [hsound hv hon hs hdb' hread]

/-- An append is not reported so if it sees its tenant all along, has no NUL character and
finds no event that cannot be read back. -/
theorem not_unavailable_of_explained {P : Db → Prop}
    (hP : ∀ db, P db → (∀ v : Append sd, v.envelope = envelope →
      v.Storable ∧ db.tenantEnabled v.tenant ≠ none ∧ ¬ v.Unreadable db) ∧ FreshId envelope db)
    (hres : Explained sd P envelope res) : answerCode res ≠ .unavailable := by
  rw [Ne, answerCode_unavailable]
  rintro ⟨e, rfl⟩
  cases hres with
  | payload h => exact canonicalSignalPayload_error h
  | tenantMissing v hv h =>
    obtain ⟨db, hdb, hnone⟩ := h
    exact ((hP db hdb).1 v hv).2.1 hnone
  | unreadable v hv _ _ h =>
    obtain ⟨db, hdb, hunread⟩ := h
    exact ((hP db hdb).1 v hv).2.2 hunread
  | raised v hv hon h =>
    rcases h with h | ⟨db, hdb, hnone, hclash⟩
    · obtain ⟨db, hdb, _⟩ := hon.tenant
      exact h ((hP db hdb).1 v hv).1
    · subst hv
      exact (hP db hdb).2.not_clashes hnone hclash

theorem retryDecision_answerCode (res : Except PgStoreError Reply) (hasAuth refreshedAuth : Bool) :
    retryDecision (answerCode res) hasAuth refreshedAuth = .retry ↔
      answerCode res = .unavailable := by
  cases res with
  | ok reply => simp [answerCode, ingestResult, retryDecision]
  | error e => exact retryDecision_storeStatus e hasAuth refreshedAuth

/-- Where the database answers every statement, an ingest request is reported as an
outage, and so tried again, exactly if its rejection is misreported: its tenant has no
row, or tenant and agent are enabled and its payload has a NUL character or meets an event
that cannot be read back. This is said of every run in which, while the request has a
statement to send, its switches stay as they are and no such event comes up; a request
whose tenant has a row, whose payload has no NUL character and which meets no such event
is never reported so, whatever else runs; and a request that runs alone is answered. -/
theorem unavailable_iff_misreported (hsd : sd.Tagged) (hs : Reachable sd s)
    (context : IngestContext) (eventId : EventId) (receivedAtUnixNano : UInt64) (payload : Signal)
    (henvelope : context.envelope eventId receivedAtUnixNano payload = envelope)
    (hi : i ∉ s.past.calls.map Prod.fst) :
    (∀ labels t res, Runs.run (pg sd).step s labels = some t → Appends i envelope labels →
      Runs.Along (pg sd).step (fun u => u.Waits i → Steady sd envelope s.db u.db) s labels →
      (i, .append envelope, res) ∈ t.log →
      (answerCode res = .unavailable ↔ Misreported sd envelope s.db) ∧
      ∀ hasAuth refreshedAuth, (retryDecision (answerCode res) hasAuth refreshedAuth = .retry ↔
        Misreported sd envelope s.db)) ∧
    (∀ labels t res, Runs.run (pg sd).step s labels = some t → Appends i envelope labels →
      Runs.Along (pg sd).step (fun u => u.Waits i → u.db.tenantEnabled context.tenantId ≠ none ∧
        FreshId envelope u.db ∧ ¬ Unread sd envelope u.db) s labels →
      (∀ v : Append sd, v.envelope = envelope → v.Storable) → (i, .append envelope, res) ∈ t.log →
      answerCode res ≠ .unavailable) ∧
    (FreshId envelope s.db → (∀ j, s.sessions j = none) → s.past.last < 2 ^ 63 - 1 →
      ∃ labels t res, Runs.run (pg sd).step s (.start i (.append envelope) :: labels) = some t ∧
        t.log = s.log ++ [(i, .append envelope, res)] ∧
        (answerCode res = .unavailable ↔ Misreported sd envelope s.db)) := by
  have hiff : ∀ labels t res, Runs.run (pg sd).step s labels = some t → Appends i envelope labels →
      Runs.Along (pg sd).step (fun u => u.Waits i → Steady sd envelope s.db u.db) s labels →
      (i, .append envelope, res) ∈ t.log →
      (answerCode res = .unavailable ↔ Misreported sd envelope s.db) := by
    intro labels t res hr happend halong hlog
    have hfollow := append_following
      (P := fun db => Steady sd envelope s.db db ∧ s.db.Grows db) hsd hs hi hr
      (Runs.along_mono halong fun _ _ hu h hwaits => ⟨h hwaits, grows_run hu⟩) happend
    exact unavailable_of_explained (fun _ h => h) (append_explained hsd hfollow hlog)
  refine ⟨?_, ?_, ?_⟩
  · intro labels t res hr happend halong hlog
    have h := hiff labels t res hr happend halong hlog
    exact ⟨h, fun hasAuth refreshedAuth => (retryDecision_answerCode res _ _).trans h⟩
  · intro labels t res hr happend halong hstore hlog
    have hfollow := append_following (P := fun db => db.tenantEnabled context.tenantId ≠ none ∧
      FreshId envelope db ∧ ¬ Unread sd envelope db) hsd hs hi hr halong happend
    refine not_unavailable_of_explained (fun db h => ⟨fun v hv => ?_, h.2.1⟩)
      (append_explained hsd hfollow hlog)
    have htenant : v.tenant = context.tenantId := by
      have hscope := v.scope
      rw [hv, ← henvelope] at hscope
      exact (SignalScope.tenant.inj hscope).symm
    exact ⟨hstore v hv, htenant ▸ h.1, fun hunread => h.2.2 ⟨v, hv, hunread⟩⟩
  · intro hfresh hquiet hmax
    obtain ⟨labels, t, res, hr, hown, hlog⟩ := append_alone sd envelope 0 hquiet hi hmax
    have hsame := unchanged_alone hs (fun l hl => (hown l hl).session) (Or.inl rfl)
    refine ⟨labels, t, res, hr, hlog, hiff _ t res hr (appends_of_own hown) ?_ (by simp [hlog])⟩
    exact Runs.along_mono hsame fun _ u _ hdb hwaits => (hdb hwaits).symm ▸ Steady.refl hfresh

end Outage

section Sample

open Sample

def sampleContext : IngestContext := ⟨tenant, agent, 3⟩

/-- A request that can be stored is not reported as an outage. -/
theorem unavailable_iff_misreported_sample :
    ∃ labels t res,
      Runs.run (pg serde).step store (.start 0 (.append (logs tenant 3)) :: labels) = some t ∧
      t.log = [(0, .append (logs tenant 3), res)] ∧ answerCode res ≠ .unavailable := by
  have hfresh : FreshId (logs tenant 3) store.db := fun r hr => by simp [store] at hr
  have hi : 0 ∉ store.past.calls.map Prod.fst := by decide
  obtain ⟨labels, t, res, hr, hlog, hiff⟩ := (unavailable_iff_misreported serde_tagged
    ⟨store, [], store_initial, rfl⟩ sampleContext ⟨3⟩ 1 (.logs []) rfl hi).2.2 hfresh
    (fun _ => rfl) (by decide)
  refine ⟨labels, t, res, hr, hlog, fun h => ?_⟩
  have hmis : Misreported serde logsAppend.envelope store.db := hiff.mp h
  rw [misreported_iff] at hmis
  exact absurd hmis (by decide)

/-- A tenant without a row, a payload with a NUL character and the retry of an accepted
gauge of the largest double are reported as outages, and the agent tries them again. -/
theorem rejections_reported_as_outage :
    let missing := { sampleContext with tenantId := ⟨7⟩ }.envelope ⟨3⟩ 1 (.logs [])
    let refused := sampleContext.envelope ⟨3⟩ 1 nulLogs.1
    let largest := sampleContext.envelope ⟨3⟩ 1 largestGauge.1
    let run (i : ℕ) (envelope : SignalEnvelope) (n : ℕ) : List StoreLabel :=
      .start i (.append envelope) :: List.replicate n (.exec i ⟨10, i + 1⟩) ++ [.finish i]
    (0, .append missing, .error (.database .rowNotFound)) ∈ (reached (run 0 missing 3)).log ∧
      (0, .append refused, .error (.database .invalidText)) ∈ (reached (run 0 refused 6)).log ∧
      (reached (run 0 largest 12 ++ run 1 largest 7)).log =
        [(0, .append largest, .ok (.appended ⟨⟨1⟩, true⟩)),
          (1, .append largest, .error (.database .columnDecode))] ∧
      ∀ e, answerCode (.error (.database e)) = .unavailable ∧
        retryDecision (answerCode (.error (.database e))) true false = .retry := by
  refine ⟨by decide, by decide +kernel, by decide +kernel, fun e => ⟨rfl, rfl⟩⟩

end Sample

end SkidMonitor
