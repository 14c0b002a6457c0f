import SkidMonitor.Server.Stages

/-! What holds of the tables between commits, what holds of a transaction in each
stage, and why the commit of another transaction does not break it. -/
namespace SkidMonitor

open ReadCommitted List

variable (sd : Serde)

/-- The row was inserted by an append call with this envelope. -/
def Sourced (past : Past Call) (row : EventRow) (envelope : SignalEnvelope) : Prop :=
  (∃ i, (i, Call.append envelope) ∈ past.calls) ∧
    ∃ w : Append sd, w.envelope = envelope ∧ row = w.row row.cursor

/-- The projection rows of a tenant with these events. -/
def summary (t : TenantId) (rows : List EventRow) (envelopes : List SignalEnvelope) :
    List ProjectionRow :=
  match rows.getLast? with
  | none => []
  | some row => [⟨t, row.cursor, envelopes.foldl SignalProjection.observe .default⟩]

/-- Cursors lie below the identity counter and grow with the commits of a tenant,
sequences are taken once, and projections are folds over the events. -/
structure Consistent (db : Db) (past : Past Call) : Prop where
  started : 0 ≤ past.last
  bounded : ∀ row ∈ db.events, 0 < row.cursor ∧ row.cursor ≤ past.last ∧ row.cursor < 2 ^ 63
  sorted : ∀ t, (db.eventsOf t).Pairwise fun r r' => r.cursor < r'.cursor
  keys : ∀ t, (db.eventsOf t).Pairwise fun r r' =>
    ¬ (r.agentId = r'.agentId ∧ r.sequence = r'.sequence)
  projected : ∀ t, ∃ envelopes, List.Forall₂ (Sourced sd past) (db.eventsOf t) envelopes ∧
    db.projectionsOf t = summary t (db.eventsOf t) envelopes

variable {sd}

def Append.event? (w : Append sd) (db : Db) : Option EventRow :=
  db.event? w.tenant w.agent w.envelope.sequence.toNat

/-- The projection an append starts from. -/
def current (db : Db) (t : TenantId) : SignalProjection :=
  ((db.projectionsOf t).head?.map (·.projection)).getD .default

structure Entered (w : Append sd) (x : StoreTxn) (past : Past Call) : Prop where
  call : x.call = .append w.envelope
  made : ∃ i, (i, x.call) ∈ past.calls

structure Locked (w : Append sd) (x : StoreTxn) (past : Past Call) : Prop
    extends Entered w x past where
  context : x.conn.tenantId = some w.tenant
  held : ⟨.advisory (tenantLockKey w.tenant), true⟩ ∈ x.held

structure Checked (w : Append sd) (x : StoreTxn) (db : Db) (past : Past Call) : Prop
    extends Locked w x past where
  shared : ⟨.agentRow w.tenant w.agent, false⟩ ∈ x.held
  enabled : db.agentEnabled w.tenant w.agent = some true

/-- The event has its cursor, and no other event of the tenant can commit before it. -/
structure Placed (w : Append sd) (cursor : ℤ) (x : StoreTxn) (db : Db) (past : Past Call) : Prop
    extends Checked w x db past where
  positive : 0 < cursor
  drawn : cursor ≤ past.last
  small : cursor < 2 ^ 63
  above : ∀ row ∈ db.eventsOf w.tenant, row.cursor < cursor
  free : w.event? db = none

/-- The writes of an append up to its update of the projection. -/
def pending (w : Append sd) (cursor : ℤ) (db : Db) : List Write :=
  .insertEvent (w.row cursor) ::
    if db.projectionsOf w.tenant = [] then [.insertProjection ⟨w.tenant, 0, .default⟩] else []

def Touches (w : Append sd) (ws : List Write) : Prop :=
  ∀ wr ∈ ws, ∃ now, wr = .touchAgent w.tenant w.agent now

/-- The events of a tenant past a cursor. -/
def Db.eventsAfter (db : Db) (t : TenantId) (after : ℤ) : List EventRow :=
  (db.eventsOf t).filter fun r => after < r.cursor

variable (sd)

/-- An append was accepted as this event. -/
def Accepted (envelope : SignalEnvelope) (outcome : AppendOutcome) (db : Db) : Prop :=
  ∃ (w : Append sd) (row : EventRow), w.envelope = envelope ∧ w.event? db = some row ∧
    row.cursor = outcome.cursor.value.toNat ∧
    if outcome.inserted then row = w.row row.cursor
    else w.Confirms row.signalKind row.payload

/-- What a load returned: a first part of the events past its cursor. -/
def Loaded (scope : SignalScope) (after : SignalCursor) (records : List SignalRecord) (db : Db) :
    Prop :=
  ∃ t z rows, scope = .tenant t ∧ toPgI64 "cursor" after.value = .ok z ∧
    rows <+: db.eventsAfter t z ∧
    signalRecordsFromRows sd t (rows.map EventRow.loaded) = .ok records

/-- What an answer says about the tables. -/
def Logged : Call → Except PgStoreError Reply → Db → Prop
  | .append envelope, .ok reply, db => ∃ outcome, reply = .appended outcome ∧
      Accepted sd envelope outcome db
  | .load scope after _ _, .ok reply, db => ∃ records, reply = .loaded records ∧
      Loaded sd scope after records db
  | _, _, _ => True

variable {sd}

/-- Writes of a transaction that holds the locks they need. -/
def Guarded (held : List Lock) (wr : Write) : Prop :=
  (wr.Quiet ∨ ⟨.advisory (tenantLockKey wr.tenant), true⟩ ∈ held) ∧
    ∀ t a, wr.Switches t a → ⟨.agentRow t a, true⟩ ∈ held

/-- What holds of a transaction in a stage. -/
def Local : Stage sd → StoreTxn → Db → Past Call → Prop
  | .opening w, x, _, past => x.writes = [] ∧ Entered w x past
  | .admitting w, x, _, past | .admitted w, x, _, past =>
      x.writes = [] ∧ Entered w x past ∧ x.conn.tenantId = some w.tenant
  | .locked w, x, _, past => x.writes = [] ∧ Locked w x past
  | .checked w, x, db, past => x.writes = [] ∧ Checked w x db past
  | .found w, x, db, past => x.writes = [] ∧ Checked w x db past ∧ (w.event? db).isSome
  | .duplicate w cursor, x, db, past => x.writes = [] ∧ Checked w x db past ∧
      ∃ row, w.event? db = some row ∧ row.cursor = cursor ∧
        w.Confirms row.signalKind row.payload
  | .placed w cursor, x, db, past => Placed w cursor x db past ∧
      x.writes = [.insertEvent (w.row cursor)]
  | .prepared w cursor, x, db, past => Placed w cursor x db past ∧ x.writes = pending w cursor db
  | .observed w cursor p, x, db, past => Placed w cursor x db past ∧
      x.writes = pending w cursor db ∧ p = current db w.tenant
  | .updated w cursor, x, db, past => Placed w cursor x db past ∧
      ∃ touches, Touches w touches ∧ x.writes = pending w cursor db ++
        .updateProjection w.tenant cursor ((current db w.tenant).observe w.envelope) :: touches
  | .loadOpening q, x, _, _ => x.writes = [] ∧ Begins x.call (.loadOpening q : Stage sd)
  | .loadAdmitting q, x, _, _ => x.writes = [] ∧ Begins x.call (.loadOpening q : Stage sd) ∧
      x.conn.tenantId = some q.tenant
  | .loaded q rows, x, db, _ => x.writes = [] ∧ Begins x.call (.loadOpening q : Stage sd) ∧
      ∃ events, events <+: db.eventsAfter q.tenant q.after ∧ rows = events.map EventRow.loaded
  | .refused _, x, _, _ => ∀ wr ∈ x.writes, Guarded x.held wr
  | .other, x, _, _ => x.call.Plain ∧ ∀ wr ∈ x.writes, wr.Quiet ∧ Guarded x.held wr
  | .ended outcome, x, db, _ => x.writes = [] ∧ Logged sd x.call (.ok (.appended outcome)) db

variable {w : Append sd} {x y : StoreTxn} {db : Db} {past : Past Call} {cursor : ℤ}

theorem mem_pending {wr : Write} (h : wr ∈ pending w cursor db) :
    wr = .insertEvent (w.row cursor) ∨ wr = .insertProjection ⟨w.tenant, 0, .default⟩ := by
  unfold pending at h
  split at h
  · simpa using h
  · exact Or.inl (by simpa using h)

theorem pending_guarded (h : Locked w x past) : ∀ wr ∈ pending w cursor db, Guarded x.held wr := by
  intro wr hwr
  rcases mem_pending hwr with rfl | rfl
  · exact ⟨Or.inr h.held, fun _ _ hs => hs.elim⟩
  · exact ⟨Or.inr h.held, fun _ _ hs => hs.elim⟩

/-- Whatever its stage, a transaction holds the locks its writes need. -/
theorem guarded_of_local {g : Stage sd} (h : Local g x db past) :
    ∀ wr ∈ x.writes, Guarded x.held wr := by
  have hnil : x.writes = [] → ∀ wr ∈ x.writes, Guarded x.held wr := by
    intro he wr hwr
    simp [he] at hwr
  cases g with
  | opening | admitting | admitted | locked | checked | found | duplicate | loadOpening
  | loadAdmitting | loaded | ended => exact hnil h.1
  | refused => exact h
  | placed w cursor =>
    rw [h.2]
    intro wr hwr
    rw [mem_singleton.mp hwr]
    exact ⟨Or.inr h.1.held, fun _ _ hs => hs.elim⟩
  | prepared w cursor =>
    rw [h.2]
    exact pending_guarded h.1.toLocked
  | observed w cursor p =>
    rw [h.2.1]
    exact pending_guarded h.1.toLocked
  | updated w cursor =>
    obtain ⟨hp, touches, htouch, hw⟩ := h
    rw [hw]
    intro wr hwr
    rcases mem_append.mp hwr with hwr | hwr
    · exact pending_guarded hp.toLocked wr hwr
    · rcases mem_cons.mp hwr with rfl | hwr
      · exact ⟨Or.inr hp.held, fun _ _ hs => hs.elim⟩
      · obtain ⟨now, rfl⟩ := htouch wr hwr
        exact ⟨Or.inl trivial, fun _ _ hs => hs.elim⟩
  | other => exact fun wr hwr => (h.2 wr hwr).2

section View

variable {ws : List Write} {t : TenantId} {a : Str}

theorem events_view : db.events <+: ((pg sd).view db ws).events := by
  induction ws generalizing db with
  | nil => exact prefix_rfl
  | cons wr ws ih => exact Db.events_apply.trans ih

theorem quiet_view (h : ∀ wr ∈ ws, wr.Quiet) : ((pg sd).view db ws).events = db.events ∧
    ((pg sd).view db ws).projections = db.projections := by
  refine ⟨Service.view_eq _ Db.events fun wr hwr db => ?_,
    Service.view_eq _ Db.projections fun wr hwr db => ?_⟩ <;>
  · have := h wr hwr
    cases wr <;> first | rfl | exact this.elim

theorem eventsOf_view (h : ∀ wr ∈ ws, wr.Quiet ∨ wr.tenant ≠ t) :
    ((pg sd).view db ws).eventsOf t = db.eventsOf t :=
  Service.view_eq _ (Db.eventsOf · t) fun wr hwr _ => Db.eventsOf_apply (h wr hwr)

theorem projectionsOf_view (h : ∀ wr ∈ ws, wr.Quiet ∨ wr.tenant ≠ t) :
    ((pg sd).view db ws).projectionsOf t = db.projectionsOf t :=
  Service.view_eq _ (Db.projectionsOf · t) fun wr hwr _ => Db.projectionsOf_apply (h wr hwr)

theorem agentEnabled_view (h : ∀ wr ∈ ws, ¬ wr.Switches t a) :
    ((pg sd).view db ws).agentEnabled t a = db.agentEnabled t a :=
  Service.view_eq _ (Db.agentEnabled · t a) fun wr hwr _ => Db.agentEnabled_apply (h wr hwr)

end View

/-- The tables have grown: events were added behind the old ones. -/
def Db.Grows (db db' : Db) : Prop := db.events <+: db'.events

theorem Db.Grows.eventsAfter {db db' : Db} (h : db.Grows db') (t : TenantId) (z : ℤ) :
    db.eventsAfter t z <+: db'.eventsAfter t z :=
  (h.filter _).filter _

theorem Db.Grows.event? {db db' : Db} (h : db.Grows db') {t : TenantId} {a : Str}
    {sequence : ℕ} {row : EventRow} (he : db.event? t a sequence = some row) :
    db'.event? t a sequence = some row := by
  obtain ⟨new, hnew⟩ := h
  unfold Db.event? at he ⊢
  rw [← hnew, find?_append, he, Option.some_or]

theorem Logged.grows {c : Call} {res : Except PgStoreError Reply} {db db' : Db}
    (h : db.Grows db') (hl : Logged sd c res db) : Logged sd c res db' := by
  cases c with
  | append envelope =>
    cases res with
    | error e => trivial
    | ok reply =>
      obtain ⟨outcome, hr, w, row, hw, he, hrest⟩ := hl
      exact ⟨outcome, hr, w, row, hw, h.event? he, hrest⟩
  | load scope after rowLimit maxJsonBytes =>
    cases res with
    | error e => trivial
    | ok reply =>
      obtain ⟨records, hr, t, z, rows, hs, hz, hpre, hrows⟩ := hl
      exact ⟨records, hr, t, z, rows, hs, hz, hpre.trans (h.eventsAfter t z), hrows⟩
  | _ => trivial

section Frame

variable (hx : ∀ wr ∈ x.writes, Guarded x.held wr)
  (hfree : ∀ a ∈ x.held, ∀ b ∈ y.held, Lock.conflicts a b = false)
include hx hfree

/-- While a transaction holds the lock of a tenant, no other one commits its events. -/
theorem quiet_of_advisory {t : TenantId} (hy : ⟨.advisory (tenantLockKey t), true⟩ ∈ y.held) :
    ∀ wr ∈ x.writes, wr.Quiet ∨ wr.tenant ≠ t := by
  intro wr hwr
  refine (hx wr hwr).1.imp id fun hlock => ?_
  rintro rfl
  simpa [Lock.conflicts] using hfree _ hlock _ hy

/-- While a transaction shares the row of an agent, no other one commits a switch of it. -/
theorem not_switches_of_shared {t : TenantId} {a : Str}
    (hy : ⟨.agentRow t a, false⟩ ∈ y.held) : ∀ wr ∈ x.writes, ¬ wr.Switches t a := by
  intro wr hwr hs
  simpa [Lock.conflicts] using hfree _ ((hx wr hwr).2 t a hs) _ hy

theorem Checked.frame (h : Checked w y db past) :
    Checked w y ((pg sd).view db x.writes) past :=
  { h with enabled := (agentEnabled_view (not_switches_of_shared hx hfree h.shared)).trans h.enabled }

theorem Placed.frame (h : Placed w cursor y db past) :
    Placed w cursor y ((pg sd).view db x.writes) past := by
  have hevents : ((pg sd).view db x.writes).eventsOf w.tenant = db.eventsOf w.tenant :=
    eventsOf_view (quiet_of_advisory hx hfree h.held)
  have hfree' : w.event? ((pg sd).view db x.writes) = w.event? db := by
    simp only [Append.event?, Db.event?_eq_find?, hevents]
  exact { h with
    toChecked := h.toChecked.frame hx hfree
    above := hevents ▸ h.above
    free := hfree'.trans h.free }

/-- What holds of a transaction still holds after the commit of another one. -/
theorem local_frame {g : Stage sd} (h : Local g y db past) :
    Local g y ((pg sd).view db x.writes) past := by
  have hgrows : db.Grows ((pg sd).view db x.writes) := events_view
  have hproj : ∀ {w : Append sd} {cursor}, Placed w cursor y db past →
      ((pg sd).view db x.writes).projectionsOf w.tenant = db.projectionsOf w.tenant :=
    fun hp => projectionsOf_view (quiet_of_advisory hx hfree hp.held)
  cases g with
  | opening | admitting | admitted | locked | loadOpening | loadAdmitting | refused | other => exact h
  | checked w => exact ⟨h.1, h.2.frame hx hfree⟩
  | found w =>
    obtain ⟨hw, hc, hsome⟩ := h
    obtain ⟨row, hrow⟩ := Option.isSome_iff_exists.mp hsome
    exact ⟨hw, hc.frame hx hfree, Option.isSome_iff_exists.mpr ⟨row, hgrows.event? hrow⟩⟩
  | duplicate w cursor =>
    obtain ⟨hw, hc, row, hrow, hrest⟩ := h
    exact ⟨hw, hc.frame hx hfree, row, hgrows.event? hrow, hrest⟩
  | placed w cursor => exact ⟨h.1.frame hx hfree, h.2⟩
  | prepared w cursor =>
    obtain ⟨hp, hw⟩ := h
    exact ⟨hp.frame hx hfree, by rw [pending, hproj hp]; exact hw⟩
  | observed w cursor p =>
    obtain ⟨hp, hw, hcur⟩ := h
    refine ⟨hp.frame hx hfree, ?_, ?_⟩
    · rw [pending, hproj hp]
      exact hw
    · rw [current, hproj hp]
      exact hcur
  | updated w cursor =>
    obtain ⟨hp, touches, htouch, hw⟩ := h
    refine ⟨hp.frame hx hfree, touches, htouch, ?_⟩
    rw [pending, current, hproj hp]
    exact hw
  | loaded q rows =>
    obtain ⟨hw, hb, events, hpre, hrows⟩ := h
    exact ⟨hw, hb, events, hpre.trans (hgrows.eventsAfter _ _), hrows⟩
  | ended outcome => exact ⟨h.1, h.2.grows hgrows⟩

end Frame

/-- Consistency is about events and projections only. -/
theorem Consistent.congr {db' : Db} (h : Consistent sd db past) (hevents : db'.events = db.events)
    (hproj : db'.projections = db.projections) : Consistent sd db' past := by
  have he : ∀ t, db'.eventsOf t = db.eventsOf t := fun t => by simp only [Db.eventsOf, hevents]
  have hp : ∀ t, db'.projectionsOf t = db.projectionsOf t := fun t => by
    simp only [Db.projectionsOf, hproj]
  refine ⟨h.started, hevents ▸ h.bounded, fun t => he t ▸ h.sorted t, fun t => he t ▸ h.keys t,
    fun t => ?_⟩
  rw [he, hp]
  exact h.projected t

section Later

variable {past' : Past Call} (hle : past ≤ past')
include hle

theorem Entered.later (h : Entered w x past) : Entered w x past' :=
  ⟨h.call, h.made.imp fun _ hi => hle.2 hi⟩

theorem Checked.later (h : Checked w x db past) : Checked w x db past' :=
  { h with toEntered := h.toEntered.later hle }

theorem Placed.later (h : Placed w cursor x db past) : Placed w cursor x db past' :=
  { h with toChecked := h.toChecked.later hle, drawn := h.drawn.trans hle.1 }

theorem local_later {g : Stage sd} (h : Local g x db past) : Local g x db past' := by
  cases g with
  | opening w => exact ⟨h.1, h.2.later hle⟩
  | admitting | admitted => exact ⟨h.1, h.2.1.later hle, h.2.2⟩
  | locked w => exact ⟨h.1, { h.2 with toEntered := h.2.toEntered.later hle }⟩
  | checked w => exact ⟨h.1, h.2.later hle⟩
  | found | duplicate => exact ⟨h.1, h.2.1.later hle, h.2.2⟩
  | placed | prepared | observed | updated => exact ⟨h.1.later hle, h.2⟩
  | loadOpening | loadAdmitting | loaded | refused | other | ended => exact h

theorem Consistent.later (h : Consistent sd db past) : Consistent sd db past' :=
  { h with
    started := h.started.trans hle.1
    bounded := fun row hr => ⟨(h.bounded row hr).1, (h.bounded row hr).2.1.trans hle.1,
      (h.bounded row hr).2.2⟩
    projected := fun t => by
      obtain ⟨envelopes, hsrc, hproj⟩ := h.projected t
      refine ⟨envelopes, hsrc.imp ?_, hproj⟩
      exact fun _ _ hs => ⟨hs.1.imp fun _ hi => hle.2 hi, hs.2⟩ }

end Later

end SkidMonitor
