import SkidMonitor.Server.Alone
import SkidMonitor.Server.RoundTrip

/-! Appending an accepted sequence again. The stored payload is compared with the new one
after its way through the payload column, where a large double loses its exponent: it may
come back as an integer, as another double or not at all. -/
namespace SkidMonitor

open ReadCommitted
open Numbers (Number)

variable {sd : Serde} {s t : StoreState} {i k : ℕ} {w v : Append sd}
  {accepted envelope : SignalEnvelope} {cursor : SignalCursor} {labels : List StoreLabel}
  {res : Except PgStoreError Reply}

section Payloads

/-- Both appends carry the same kind of signal with equal JSON. -/
def SamePayload (w v : Append sd) : Prop := v.Matches (signalKindName w.envelope) w.payload.value

/-- The number comes back from the payload column, if at all, as the number it was. -/
def Serde.keeps (sd : Serde) (n : Number) : Bool := (sd.stored n).all n.same

/-- The payload comes back from its column. -/
def Append.Readable (w : Append sd) : Prop :=
  (fromJsonb sd (toJsonb w.payload.value)).isSome = true

instance (w : Append sd) : Decidable w.Readable := inferInstanceAs (Decidable (_ = true))

/-- The accepted payload comes back with another number, and the later one is equal to it
or to what it comes back as. -/
def Confused (w v : Append sd) : Prop :=
  w.payload.value.allNumbers sd.keeps = false ∧
    (SamePayload w v ∨ v.Confirms (signalKindName w.envelope) (toJsonb w.payload.value))

theorem eqBy_same_trans {a b c : Value} (h : Json.eqBy Number.same a b = true)
    (h' : Json.eqBy Number.same b c = true) : Json.eqBy Number.same a c = true :=
  Json.eqBy_trans (r := Number.same) (fun _ _ _ => Number.same_trans) h h'

theorem eqBy_same_symm {a b : Value} (h : Json.eqBy Number.same a b = true) :
    Json.eqBy Number.same b a = true :=
  Json.eqBy_symm (r := Number.same) (fun _ _ => Number.same_symm) h

theorem confirms_iff {kind : String} {column : Json Numbers.Numeric} {stored : Value}
    (h : fromJsonb sd column = some stored) : v.Confirms kind column ↔ v.Matches kind stored := by
  simp [Append.Confirms, h]

/-- The comparison with the stored payload is right unless a number confuses it. -/
theorem not_confused_iff {stored : Value}
    (hstored : fromJsonb sd (toJsonb w.payload.value) = some stored) : ¬ Confused w v ↔
      (v.Matches (signalKindName w.envelope) stored ↔ SamePayload w v) := by
  have hback : Json.eqBy Number.same w.payload.value stored = w.payload.value.allNumbers sd.keeps :=
    Json.eqBy_traverse Number.same ((fromJsonb_toJsonb _).symm.trans hstored)
  rw [Confused, confirms_iff hstored]
  cases hkept : w.payload.value.allNumbers sd.keeps with
  | true =>
    -- Where every number is kept the two payloads are equal.
    rw [hkept] at hback
    have hiff : v.Matches (signalKindName w.envelope) stored ↔ SamePayload w v :=
      and_congr_right fun _ => ⟨eqBy_same_trans hback, eqBy_same_trans (eqBy_same_symm hback)⟩
    simp [hiff]
  | false =>
    -- Otherwise they differ, so the later payload is equal to one of them at most.
    have hnot : ¬ (SamePayload w v ∧ v.Matches (signalKindName w.envelope) stored) := by
      rintro ⟨⟨_, hw⟩, _, ht⟩
      rw [eqBy_same_trans hw (eqBy_same_symm ht), hkept] at hback
      cases hback
    simp only [true_and]
    tauto

end Payloads

section Answers

/-- The envelope uses the sequence of another one. -/
structure Reuses (accepted envelope : SignalEnvelope) : Prop where
  scope : envelope.scope = accepted.scope
  agentId : envelope.agentId = accepted.agentId
  sequence : envelope.sequence = accepted.sequence

variable (sd accepted envelope)

def SameSignal : Prop :=
  ∃ w v : Append sd, w.envelope = accepted ∧ v.envelope = envelope ∧ SamePayload w v

/-- The payload can be stored, the accepted one can be read back, and no number confuses
the comparison. -/
def Retryable : Prop := ∃ w v : Append sd, w.envelope = accepted ∧ v.envelope = envelope ∧
  v.Storable ∧ w.Readable ∧ ¬ Confused w v

/-- The answer due to an envelope that uses an accepted sequence again. -/
def Idempotent (cursor : SignalCursor) (res : Except PgStoreError Reply) : Prop :=
  (SameSignal sd accepted envelope → res = .ok (.appended ⟨cursor, false⟩)) ∧
    (¬ SameSignal sd accepted envelope →
      res = .error (.sequenceConflict envelope.agentId envelope.sequence))

variable {sd accepted envelope}

theorem sameSignal_iff : SameSignal sd w.envelope v.envelope ↔ SamePayload w v := by
  constructor
  · rintro ⟨w', v', hw, hv, h⟩
    rwa [Append.eq_of_envelope hw, Append.eq_of_envelope hv] at h
  · exact fun h => ⟨w, v, rfl, rfl, h⟩

theorem retryable_iff : Retryable sd w.envelope v.envelope ↔
    v.Storable ∧ w.Readable ∧ ¬ Confused w v := by
  constructor
  · rintro ⟨w', v', hw, hv, h⟩
    rwa [Append.eq_of_envelope hw, Append.eq_of_envelope hv] at h
  · exact fun h => ⟨w, v, rfl, rfl, h⟩

/-- If the accepted payload comes back, all hangs on the comparison with what it comes back as. -/
theorem retryable_iff_matches {stored : Value}
    (hstored : fromJsonb sd (toJsonb w.payload.value) = some stored) :
    Retryable sd w.envelope v.envelope ↔ v.Storable ∧
      (v.Matches (signalKindName w.envelope) stored ↔ SamePayload w v) := by
  rw [retryable_iff, not_confused_iff hstored, Append.Readable, hstored]
  simp

/-- An error of the database is no answer that is due. -/
theorem not_idempotent_database {e : DbError} :
    ¬ Idempotent sd accepted envelope cursor (.error (.database e)) := by
  intro h
  by_cases hsame : SameSignal sd accepted envelope
  · cases h.1 hsame
  · cases h.2 hsame

theorem Reuses.event? (h : Reuses w.envelope v.envelope) (db : Db) : v.event? db = w.event? db := by
  have htenant : v.tenant = w.tenant :=
    SignalScope.tenant.inj (v.scope.symm.trans (h.scope.trans w.scope))
  simp only [Append.event?, Append.agent, h.agentId, h.sequence, htenant]

/-- What tables that hold the accepted event and have its agent enabled lead to. -/
theorem idempotent_iff {P : Db → Prop} {row : EventRow} (hreuse : Reuses w.envelope envelope)
    (hP : ∀ db, P db → Enabled envelope db ∧ w.event? db = some row)
    (hrow : row = w.row row.cursor) (hcursor : row.cursor = cursor.value.toNat)
    (hres : Explained sd P envelope res) :
    Idempotent sd w.envelope envelope cursor res ↔ Retryable sd w.envelope envelope := by
  have hevent : ∀ v : Append sd, v.envelope = envelope → ∀ db, P db → v.event? db = some row := by
    rintro v rfl db hdb
    exact (hreuse.event? db).trans (hP db hdb).2
  have hon : ∀ v : Append sd, v.envelope = envelope → ∀ db, P db →
      db.tenantEnabled v.tenant = some true ∧ db.agentEnabled v.tenant v.agent = some true := by
    rintro v rfl db hdb
    exact enabled_iff.mp (hP db hdb).1
  have hkind : row.signalKind = signalKindName w.envelope := congrArg EventRow.signalKind hrow
  have hpayload : row.payload = toJsonb w.payload.value := congrArg EventRow.payload hrow
  cases hres with
  | solo h =>
    rw [hreuse.scope, w.scope] at h
    cases h
  | payload h =>
    -- A payload without a canonical form is not appended at all.
    have hnone : ∀ v : Append sd, v.envelope ≠ envelope := by
      rintro v rfl
      cases h.symm.trans v.canonical
    have herr := canonicalSignalPayload_error h
    constructor
    · intro hi
      have := hi.2 fun ⟨_, v, _, hv, _⟩ => hnone v hv
      cases this
      exact herr.elim
    · exact fun ⟨_, v, _, hv, _⟩ => (hnone v hv).elim
  | tenantMissing v hv h | tenantDisabled v hv h =>
    obtain ⟨db, hdb, hoff⟩ := h
    cases hoff.symm.trans (hon v hv db hdb).1
  | agentMissing v hv _ h | agentDisabled v hv _ h =>
    obtain ⟨db, hdb, hoff⟩ := h
    cases hoff.symm.trans (hon v hv db hdb).2
  | inserted v hv _ _ h =>
    obtain ⟨db, hdb, hnone⟩ := h
    cases hnone.symm.trans (hevent v hv db hdb)
  | raised v hv _ h e =>
    subst hv
    rw [retryable_iff]
    rcases h with h | ⟨db, hdb, hnone, _⟩
    · exact ⟨fun hi => (not_idempotent_database hi).elim, fun hr => (h hr.1).elim⟩
    · cases hnone.symm.trans (hevent v rfl db hdb)
  | conflict v hv _ hs h =>
    subst hv
    obtain ⟨db, hdb, row', stored, hrow', hstored, hne⟩ := h
    cases (hevent v rfl db hdb).symm.trans hrow'
    rw [hkind] at hne
    rw [hpayload] at hstored
    rw [retryable_iff_matches hstored, Idempotent, sameSignal_iff]
    simp [hs, hne]
  | unreadable v hv _ _ h =>
    subst hv
    obtain ⟨db, hdb, row', hrow', hnone⟩ := h
    cases (hevent v rfl db hdb).symm.trans hrow'
    rw [hpayload] at hnone
    refine ⟨fun hi => (not_idempotent_database hi).elim, fun hr => ?_⟩
    have hread := (retryable_iff.mp hr).2.1
    rw [Append.Readable, hnone] at hread
    cases hread
  | @duplicate v hv _ hs c h =>
    subst hv
    obtain ⟨db, hdb, row', hrow', hc, stored, hstored, heq⟩ := h
    cases (hevent v rfl db hdb).symm.trans hrow'
    rw [hkind] at heq
    rw [hpayload] at hstored
    have hcur : c = cursor := by
      obtain ⟨c⟩ := c
      obtain ⟨d⟩ := cursor
      have : c.toNat = d.toNat := by exact_mod_cast hc.symm.trans hcursor
      rw [UInt64.toNat_inj.mp this]
    rw [retryable_iff_matches hstored, Idempotent, sameSignal_iff]
    simp [hs, heq, hcur]

end Answers

section Run

variable {row : EventRow}

/-- The tables as a later append with an accepted sequence sees them. -/
def Holding (w : Append sd) (row : EventRow) (envelope : SignalEnvelope) (db : Db) : Prop :=
  Enabled envelope db ∧ w.event? db = some row

theorem holding_along (hrow : w.event? s.db = some row)
    (henabled : Runs.Along (pg sd).step (fun u => u.Waits i → Enabled envelope u.db) s labels) :
    Runs.Along (pg sd).step (fun u => u.Waits i → Holding w row envelope u.db) s labels :=
  Runs.along_mono henabled fun _ _ hu h hwaits => ⟨h hwaits, (grows_run hu).event? hrow⟩

/-- Such an append writes nothing. -/
theorem db_of_reused (hsd : sd.Tagged) (hs : Reachable sd s) (hreuse : Reuses w.envelope envelope)
    (hrow : w.event? s.db = some row) (hi : i ∉ s.past.calls.map Prod.fst)
    (henabled : Runs.Along (pg sd).step (fun u => u.Waits i → Enabled envelope u.db) s labels)
    (happend : Appends i envelope labels) :
    ∀ pre l post u u', labels = pre ++ l :: post → Runs.run (pg sd).step s pre = some u →
      (pg sd).step u l = some u' → l.session = i → u'.db = u.db := by
  rintro pre l post u u' rfl hu hstep rfl
  have hfollow := append_following (P := Holding w row envelope) hsd hs hi hu
    (Runs.along_append (holding_along hrow henabled)) happend.left
  refine db_of_taken hsd hfollow ?_ hstep
  rintro v rfl db ⟨_, hdb⟩ hnone
  cases hnone.symm.trans ((hreuse.event? db).trans hdb)

/-- An append with an accepted sequence that finds tenant and agent enabled as long as it
has a statement to send writes nothing. Its answer is the one due exactly if its payload
can be stored, the accepted one can be read back and no number confuses the two; alone, it
does answer. -/
theorem reused_sequence_answer (hsd : sd.Tagged) (hs : Reachable sd s)
    (haccepted : (k, .append accepted, .ok (.appended ⟨cursor, true⟩)) ∈ s.log)
    (hreuse : Reuses accepted envelope) (hi : i ∉ s.past.calls.map Prod.fst) :
    (∀ labels t, Runs.run (pg sd).step s labels = some t →
      Runs.Along (pg sd).step (fun u => u.Waits i → Enabled envelope u.db) s labels →
      Appends i envelope labels →
      (∀ pre l post u u', labels = pre ++ l :: post → Runs.run (pg sd).step s pre = some u →
        (pg sd).step u l = some u' → l.session = i → u'.db = u.db) ∧
      ∀ res, (i, .append envelope, res) ∈ t.log →
        (Idempotent sd accepted envelope cursor res ↔ Retryable sd accepted envelope)) ∧
    (Enabled envelope s.db → (∀ j, s.sessions j = none) → s.past.last < 2 ^ 63 - 1 →
      ∃ labels t res, Runs.run (pg sd).step s (.start i (.append envelope) :: labels) = some t ∧
        t.log = s.log ++ [(i, .append envelope, res)] ∧ t.db = s.db ∧
        (Idempotent sd accepted envelope cursor res ↔ Retryable sd accepted envelope)) := by
  obtain ⟨_, ⟨⟩, w, row, rfl, hrow, hcursor, hins⟩ := (reachable_invariant hs).logged _ _ _ haccepted
  have hanswer : ∀ labels t, Runs.run (pg sd).step s labels = some t →
      Runs.Along (pg sd).step (fun u => u.Waits i → Enabled envelope u.db) s labels →
      Appends i envelope labels → ∀ res, (i, .append envelope, res) ∈ t.log →
        (Idempotent sd w.envelope envelope cursor res ↔ Retryable sd w.envelope envelope) := by
    intro labels t hr henabled happend res hres
    have hfollow := append_following (P := Holding w row envelope) hsd hs hi hr
      (holding_along hrow henabled) happend
    exact idempotent_iff hreuse (fun _ h => h) hins hcursor (append_explained hsd hfollow hres)
  constructor
  · intro labels t hr henabled happend
    exact ⟨db_of_reused hsd hs hreuse hrow hi henabled happend,
      hanswer labels t hr henabled happend⟩
  · intro henabled hquiet hmax
    obtain ⟨labels, t, res, hr, hown, hlog⟩ := append_alone sd envelope 0 hquiet hi hmax
    have halong := Runs.along_mono (unchanged_alone hs (fun l hl => (hown l hl).session)
      (Or.inl rfl)) fun _ u _ hdb hwaits => (hdb hwaits).symm ▸ henabled
    have happend := appends_of_own hown
    refine ⟨labels, t, res, hr, hlog, ?_, hanswer _ t hr halong happend res (by simp [hlog])⟩
    by_contra hne
    -- A change of the tables would have been made by a step of this append.
    obtain ⟨pre, l, post, u, u', hsplit, hu, hl, _, hsame, hdiff⟩ :=
      Runs.run_change (P := fun u => u.db = s.db) hr rfl hne
    have hmem : l ∈ .start i (.append envelope) :: labels := by
      rw [hsplit]
      exact List.mem_append_right pre List.mem_cons_self
    have hstep := db_of_reused hsd hs hreuse hrow hi halong happend pre l post u u' hsplit hu hl
      (hown l hmem).session
    exact hdiff (hstep.trans hsame)

end Run

section Sample

open Sample

theorem reused_sequence_answer_sample :
    let s := reached (Sample.append 0 (logs tenant 3) 1)
    let again := { logs tenant 3 with eventId := ⟨9⟩, receivedAtUnixNano := 2 }
    ∃ labels t, Runs.run (pg serde).step s (.start 1 (.append again) :: labels) = some t ∧
      t.log = s.log ++ [(1, .append again, .ok (.appended ⟨⟨1⟩, false⟩))] ∧ t.db = s.db := by
  intro s again
  let w : Append serde := logsAppend
  let v : Append serde := { logsAppend with envelope := again }
  have haccepted : (0, .append w.envelope, .ok (.appended ⟨⟨1⟩, true⟩)) ∈ s.log := by decide
  have hi : 1 ∉ s.past.calls.map Prod.fst := by decide
  have hreuse : Reuses w.envelope v.envelope := ⟨rfl, rfl, rfl⟩
  have hsame : SamePayload w v := ⟨rfl, rfl⟩
  have hretry : Retryable serde w.envelope v.envelope :=
    retryable_iff.mpr ⟨by decide, by decide, fun h => absurd h.1 (by decide)⟩
  obtain ⟨labels, t, res, hr, hlog, hdb, hiff⟩ := (reused_sequence_answer serde_tagged
    (reachable_reached (by decide)) haccepted hreuse hi).2
    ⟨tenant, rfl, by decide, by decide⟩ (quiet_reached (by decide) (by decide)) (by decide)
  rw [(hiff.mpr hretry).1 (sameSignal_iff.mpr hsame)] at hlog
  exact ⟨labels, t, hr, hlog, hdb⟩

/-- A gauge of `1e16`, appended again, is taken for another payload. -/
theorem wide_retry_conflicts :
    let again := { signal wideGauge 3 with eventId := ⟨9⟩, receivedAtUnixNano := 2 }
    let accepting := Sample.append 0 (signal wideGauge 3) 1
    let retrying := .start 1 (.append again) :: List.replicate 7 (.exec 1 ⟨10, 2⟩) ++ [.finish 1]
    again.payload = (signal wideGauge 3).payload ∧
      (0, .append (signal wideGauge 3), .ok (.appended ⟨⟨1⟩, true⟩)) ∈ (reached accepting).log ∧
      (1, .append again, .error (.sequenceConflict agent 3)) ∈
        (reached (accepting ++ retrying)).log := by
  decide +kernel

end Sample

end SkidMonitor
