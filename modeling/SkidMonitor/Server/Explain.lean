import SkidMonitor.Server.History

/-! Why an append answers what it answers. While a call runs, the tables it reads change;
each answer is explained by what the tables were when the call looked. -/
namespace SkidMonitor

open ReadCommitted List

variable {sd : Serde}

namespace Append

/-- The payload column takes the value: it has no NUL character. -/
def Storable (w : Append sd) : Prop :=
  w.payload.value.allTexts (fun s => !hasNul s.toList) = true

instance (w : Append sd) : Decidable w.Storable := inferInstanceAs (Decidable (_ = true))

/-- The event under the sequence of the append is stored, and cannot be read back. -/
def Unreadable (w : Append sd) (db : Db) : Prop :=
  ∃ row ∈ w.event? db, fromJsonb sd row.payload = none

instance (w : Append sd) (db : Db) : Decidable (w.Unreadable db) :=
  inferInstanceAs (Decidable (∃ row ∈ w.event? db, _))

/-- Another event of the tenant has the identifier. -/
def Clashes (w : Append sd) (db : Db) : Prop :=
  ∃ r ∈ db.events, r.tenantId = w.tenant ∧ r.eventId = w.envelope.eventId.uuid

theorem agent_no_nul (w : Append sd) : hasNul w.agent = false := by
  have h := w.envelope.agentId.printable
  simp only [hasNul, any_eq_false, contains_eq_mem, decide_eq_false_iff_not] at h ⊢
  exact fun hmem => h _ hmem (by decide)

theorem byteLen_bounds (hsd : sd.Tagged) (w : Append sd) :
    0 < w.payload.byteLen ∧ w.payload.byteLen ≤ maxStoredSignalJsonBytes := by
  obtain ⟨encoded, _, hser, _, _, hval, hlen⟩ := canonicalSignalPayload_ok.mp w.canonical
  obtain ⟨_, _, hle⟩ := serializeSignalBounded_ok hser
  refine ⟨?_, hlen ▸ hle⟩
  rw [hlen, length_pos_iff]
  rintro rfl
  rw [hsd.empty] at hval
  cases hval

/-- A storable payload passes every check of its row. -/
theorem row_of_storable (hsd : sd.Tagged) (w : Append sd) (hw : w.Storable) {cursor : ℤ}
    (hpos : 0 < cursor) : w.insert.row cursor = .ok (w.row cursor) := by
  obtain ⟨hbytes, hmax⟩ := w.byteLen_bounds hsd
  obtain ⟨members, hobj⟩ := hsd.object (json_of_canonical w.canonical)
  have hkind : ["metrics", "traces", "logs"].contains (signalKindName w.envelope) = true := by
    unfold signalKindName
    split <;> decide
  have hseq := w.envelope.sequence.toNat_lt
  have hrec := w.envelope.receivedAtUnixNano.toNat_lt
  refine row_ok.mpr ⟨hw, w.agent_no_nul, _, _, Numeral.read_print _, Numeral.read_print _, rfl, ?_⟩
  intro c hc
  simp only [EventRow.checks, row, hobj, toJsonb, Json.map, mem_cons, not_mem_nil,
    or_false] at hc
  unfold maxStoredSignalJsonBytes at hmax
  rcases hc with rfl | rfl | rfl | rfl | rfl | rfl | rfl
  · exact decide_eq_true hpos
  · exact hkind
  · exact decide_eq_true (by omega)
  · exact decide_eq_true hbytes
  · rfl
  · exact decide_eq_true (by omega)
  · exact decide_eq_true (by omega)

theorem storable_of_row {w : Append sd} {cursor : ℤ} {r : EventRow}
    (h : w.insert.row cursor = .ok r) : w.Storable := (row_ok.mp h).1

end Append

variable (P : Db → Prop) (envelope : SignalEnvelope)

/-- At some moment of the call the tables were so. -/
def Seen (Q : Db → Prop) : Prop := ∃ db, P db ∧ Q db

/-- The call found its tenant and its agent enabled. -/
structure On (w : Append sd) : Prop where
  tenant : Seen P fun db => db.tenantEnabled w.tenant = some true
  agent : Seen P fun db => db.agentEnabled w.tenant w.agent = some true

variable (sd)

/-- The answers an append may give, with their reasons. -/
inductive Explained : Except PgStoreError Reply → Prop
  | solo (h : envelope.scope = .solo) : Explained (.error .soloScope)
  | payload {e} (h : canonicalSignalPayload sd envelope.payload = .error e) : Explained (.error e)
  | tenantMissing (w : Append sd) (hw : w.envelope = envelope)
      (h : Seen P fun db => db.tenantEnabled w.tenant = none) :
      Explained (.error (.database .rowNotFound))
  | tenantDisabled (w : Append sd) (hw : w.envelope = envelope)
      (h : Seen P fun db => db.tenantEnabled w.tenant = some false) :
      Explained (.error (.tenantDisabled w.tenant))
  | agentMissing (w : Append sd) (hw : w.envelope = envelope)
      (ht : Seen P fun db => db.tenantEnabled w.tenant = some true)
      (h : Seen P fun db => db.agentEnabled w.tenant w.agent = none) :
      Explained (.error (.agentNotEnrolled w.envelope.agentId))
  | agentDisabled (w : Append sd) (hw : w.envelope = envelope)
      (ht : Seen P fun db => db.tenantEnabled w.tenant = some true)
      (h : Seen P fun db => db.agentEnabled w.tenant w.agent = some false) :
      Explained (.error (.agentDisabled w.envelope.agentId))
  | raised (w : Append sd) (hw : w.envelope = envelope) (hon : On P w)
      (h : ¬ w.Storable ∨ Seen P fun db => w.event? db = none ∧ w.Clashes db) (e : DbError) :
      Explained (.error (.database e))
  | conflict (w : Append sd) (hw : w.envelope = envelope) (hon : On P w) (hs : w.Storable)
      (h : Seen P fun db => ∃ row stored, w.event? db = some row ∧
        fromJsonb sd row.payload = some stored ∧ ¬ w.Matches row.signalKind stored) :
      Explained (.error (.sequenceConflict w.envelope.agentId w.envelope.sequence))
  | unreadable (w : Append sd) (hw : w.envelope = envelope) (hon : On P w) (hs : w.Storable)
      (h : Seen P w.Unreadable) : Explained (.error (.database .columnDecode))
  | duplicate (w : Append sd) (hw : w.envelope = envelope) (hon : On P w) (hs : w.Storable)
      {c : SignalCursor} (h : Seen P fun db => ∃ row, w.event? db = some row ∧
        row.cursor = c.value.toNat ∧ w.Confirms row.signalKind row.payload) :
      Explained (.ok (.appended ⟨c, false⟩))
  | inserted (w : Append sd) (hw : w.envelope = envelope) (hon : On P w) (hs : w.Storable)
      (h : Seen P fun db => w.event? db = none) {c : SignalCursor} :
      Explained (.ok (.appended ⟨c, true⟩))

/-- What a call has seen when it is in a stage. -/
def Why : Stage sd → Prop
  | .opening w | .admitting w => w.envelope = envelope
  | .admitted w | .locked w =>
      w.envelope = envelope ∧ Seen P fun db => db.tenantEnabled w.tenant = some true
  | .checked w => w.envelope = envelope ∧ On P w
  | .found w => w.envelope = envelope ∧ On P w ∧ w.Storable
  | .duplicate w cursor => w.envelope = envelope ∧ On P w ∧ w.Storable ∧
      Seen P fun db => ∃ row, w.event? db = some row ∧ row.cursor = cursor ∧
        w.Confirms row.signalKind row.payload
  | .placed w _ | .prepared w _ | .observed w _ _ | .updated w _ =>
      w.envelope = envelope ∧ On P w ∧ w.Storable ∧ Seen P fun db => w.event? db = none
  | .refused e => Explained sd P envelope (.error e)
  | .ended outcome => Explained sd P envelope (.ok (.appended outcome))
  | .loadOpening _ | .loadAdmitting _ | .loaded _ _ | .other => False

variable {sd P envelope} {w : Append sd} {g g' : Stage sd} {st : Stmt} {r : st.Resp} {x : StoreTxn}
  {db : Db} {past : Past Call} {rd : Reading} {ws : List Write}

theorem tenant_answer {t : TenantId} {r : Option Bool} (h : x.conn.tenantId = some t)
    (he : (Stmt.requireEnabledTenant t).eval x.conn db rd = .ok (r, ws)) :
    db.tenantEnabled t = r := by
  have hr := congrArg Prod.fst (Except.ok.inj he)
  rw [h] at hr
  exact (congrArg (Option.map _) Db.tenant?_slice).symm.trans hr

theorem agent_answer {r : Option Bool} (h : Locked w x past)
    (he : (Stmt.selectAgentEnabled w.tenant w.agent).eval x.conn db rd = .ok (r, ws)) :
    db.agentEnabled w.tenant w.agent = r := by
  have hr := congrArg Prod.fst (Except.ok.inj he)
  rw [visible_context h] at hr
  exact (congrArg (Option.map _) Db.agent?_slice).symm.trans hr

/-- A statement that goes through tells the call what the next stage says it has seen. -/
theorem why_advance (hP : P db) (h : Local g x db past) (hwhy : Why sd P envelope g)
    (hn : st.commits = false) (hm : Move g st r g')
    (he : st.eval x.conn ((pg sd).view db x.writes) rd = .ok (r, ws)) :
    Why sd P envelope g' := by
  cases hm with
  | begin | context => exact hwhy
  | admitted w =>
    rw [h.1] at he
    exact ⟨hwhy, db, hP, tenant_answer h.2.2 he⟩
  | tenantDisabled w =>
    rw [h.1] at he
    exact .tenantDisabled w hwhy ⟨db, hP, tenant_answer h.2.2 he⟩
  | tenantMissing w =>
    rw [h.1] at he
    exact .tenantMissing w hwhy ⟨db, hP, tenant_answer h.2.2 he⟩
  | lock w => exact hwhy
  | agentEnabled w =>
    rw [h.1] at he
    exact ⟨hwhy.1, hwhy.2, db, hP, agent_answer h.2 he⟩
  | agentDisabled w =>
    rw [h.1] at he
    exact .agentDisabled w hwhy.1 hwhy.2 ⟨db, hP, agent_answer h.2 he⟩
  | agentMissing w =>
    rw [h.1] at he
    exact .agentMissing w hwhy.1 hwhy.2 ⟨db, hP, agent_answer h.2 he⟩
  | taken w =>
    obtain ⟨row, hrow, _⟩ := eval_insertEvent he
    exact ⟨hwhy.1, hwhy.2, Append.storable_of_row hrow⟩
  | inserted w cursor =>
    rw [h.1] at he
    obtain ⟨row, hrow, _, ⟨hr, _⟩ | ⟨_, _, hnone⟩⟩ := eval_insertEvent he
    · cases hr
    · obtain ⟨rfl, _⟩ := insert_row hrow
      exact ⟨hwhy.1, hwhy.2, Append.storable_of_row hrow, db, hP, hnone⟩
  | same w row hmatch =>
    rw [h.1] at he
    obtain ⟨event, hevent, rfl⟩ :=
      Option.map_eq_some_iff.mp (selected_event h.2.1.toLocked he).1.symm
    exact ⟨hwhy.1, hwhy.2.1, hwhy.2.2, db, hP, event, hevent, rfl, hmatch⟩
  | unreadable w row hread =>
    rw [h.1] at he
    obtain ⟨event, hevent, rfl⟩ :=
      Option.map_eq_some_iff.mp (selected_event h.2.1.toLocked he).1.symm
    exact .unreadable w hwhy.1 hwhy.2.1 hwhy.2.2 ⟨db, hP, event, hevent, hread⟩
  | differs w row stored hread hmatch =>
    rw [h.1] at he
    obtain ⟨event, hevent, rfl⟩ :=
      Option.map_eq_some_iff.mp (selected_event h.2.1.toLocked he).1.symm
    exact .conflict w hwhy.1 hwhy.2.1 hwhy.2.2 ⟨db, hP, event, stored, hevent, hread, hmatch⟩
  | vanished w =>
    rw [h.1] at he
    have hnone : w.event? db = none :=
      Option.map_eq_none_iff.mp (selected_event h.2.1.toLocked he).1.symm
    exact absurd h.2.2 (by simp [hnone])
  | prepare | observe => exact hwhy
  | noProjection w cursor =>
    have hr := congrArg Prod.fst (Except.ok.inj he)
    rw [visible_context h.1.toLocked, Db.projection?_slice, h.2, projection?_pending] at hr
    cases hr
  | update | touch | notify => exact hwhy
  | commitDuplicate | commit | commitLoad => cases hn
  | loadBegin | loadContext | loadAdmitted | loadRows | other => exact hwhy.elim

theorem why_commit (hwhy : Why sd P envelope g) (hn : st.commits = true) (hm : Move g st r g') :
    Why sd P envelope g' := by
  cases hm with
  | commitDuplicate w cursor c hc =>
    obtain ⟨hw, hon, hs, hseen⟩ := hwhy
    rw [(cursorFromRow_ok hc).1] at hseen
    exact .duplicate w hw hon hs hseen
  | commit w cursor c hc => exact .inserted w hwhy.1 hwhy.2.1 hwhy.2.2.1 hwhy.2.2.2
  | commitLoad | other => exact hwhy.elim
  | _ => cases hn

variable (sd P envelope) in
/-- When a statement of the append may raise an error. -/
def Raises : Prop := ∃ w : Append sd, w.envelope = envelope ∧ On P w ∧
  (¬ w.Storable ∨ Seen P fun db => w.event? db = none ∧ w.Clashes db)

theorem insert_refused (hsd : sd.Tagged) (hpre : Consistent sd db past) (h : Locked w x past)
    {e : DbError} (hfresh : past.last < rd.fresh)
    (he : (Stmt.insertEvent w.insert).eval x.conn db rd = .error e) :
    ¬ w.Storable ∨ w.event? db = none ∧ w.Clashes db := by
  rcases eval_insertEvent_error he with hrow | hconn | ⟨row, hrow, hnone, hclash⟩
  · left
    intro hs
    have hpos : 0 < rd.fresh := by
      have := hpre.started
      omega
    exact hrow _ (w.row_of_storable hsd hs hpos)
  · exact (hconn h.context).elim
  · obtain ⟨rfl, _⟩ := insert_row hrow
    exact Or.inr ⟨hnone, hclash⟩

/-- Only the insertion of the event can be refused. -/
theorem raises_refuse (hsd : sd.Tagged) (hpre : Consistent sd db past) (hP : P db)
    (h : Local g x db past) (hwhy : Why sd P envelope g) (hm : Move g st r g') {e : DbError}
    (hd : st.draws = true → past.last < rd.fresh)
    (he : st.eval x.conn ((pg sd).view db x.writes) rd = .error e) : Raises sd P envelope := by
  have hselect : ∀ {w : Append sd} {db : Db},
      (Stmt.selectEvent w.tenant w.agent w.insert.sequence).eval x.conn db rd ≠ .error e := by
    intro w db
    have hn : requireNumeral w.insert.sequence = .ok w.envelope.sequence.toNat :=
      requireNumeral_ok.mpr (Numeral.read_print _)
    simp [Stmt.eval, hn]
  cases hm with
  | taken w | inserted w =>
    rw [h.1] at he
    exact ⟨w, hwhy.1, hwhy.2, (insert_refused hsd hpre h.2.toLocked (hd rfl) he).imp id
      fun hclash => ⟨db, hP, hclash⟩⟩
  | same | unreadable | differs | vanished => exact (hselect he).elim
  | prepare w cursor =>
    have ht : requireTenant x.conn w.tenant = .ok () := by
      rw [requireTenant, if_pos h.1.context]
    simp only [Stmt.eval, ht, bind, Except.bind] at he
    split at he <;> cases he
  | loadBegin | loadContext | loadAdmitted | loadRows | commitLoad | other => exact hwhy.elim
  | _ => cases he

/-- The append of an envelope, followed with its reasons. -/
def explaining (hsd : sd.Tagged) (P : Db → Prop) (envelope : SignalEnvelope) :
    Outline (pg sd) (Stage sd) where
  Move := Move
  Fin := Ends
  Pre db past := Consistent sd db past ∧ P db
  Local g x db past := Local g x db past ∧ Why sd P envelope g
  Raised _ := Raises sd P envelope
  answers := answers
  advance hpre h hn hm hd he :=
    ⟨local_advance hpre.1 h.1 hn hm hd he, why_advance hpre.2 h.1 h.2 hn hm he⟩
  commit _ h hn hm := ⟨local_commit h.1 hn hm, why_commit h.2 hn hm⟩
  refuse hpre h hm hd he :=
    raises_refuse hsd hpre.1 hpre.2 h.1 h.2 hm (fun hdraw => (hd hdraw).1) he
  later h hle := ⟨local_later hle h.1, h.2⟩

theorem why_start {i : ℕ} (hc : (i, .append envelope) ∈ past.calls) :
    ∃ g : Stage sd, (Call.program sd (.append envelope)).Follows Move Ends g ∧
      Local g ((pg sd).blank (.append envelope)) db past ∧ Why sd P envelope g := by
  obtain ⟨g, hf, hb⟩ := @program_follows sd (.append envelope)
  refine ⟨g, hf, ?_⟩
  cases g with
  | opening w =>
    cases hb
    exact ⟨⟨rfl, rfl, i, hc⟩, rfl⟩
  | refused e =>
    refine ⟨by simp [Local, Service.blank], ?_⟩
    rcases hb envelope rfl with ⟨hs, rfl⟩ | hp
    · exact .solo hs
    · exact .payload hp
  | loadOpening q =>
    obtain ⟨_, _, _, hcall, _⟩ := hb
    cases hcall
  | _ => exact hb.elim

theorem explained_of_answer (hsd : sd.Tagged) {res : Except PgStoreError Reply} {c : Call}
    (hpre : Consistent sd db past) (h : (explaining hsd P envelope).Answer res c db past) :
    Explained sd P envelope res := by
  rcases h with ⟨e, ⟨w, hw, hon, hr⟩, rfl⟩ | ⟨g, x, hend, ⟨hl, hwhy⟩, _⟩
  · exact .raised w hw hon hr e
  -- A cursor of the tables is always read back.
  have hcursor : ∀ {z e}, 0 < z → z < 2 ^ 63 → cursorFromRow z ≠ .error e := by
    intro z e hpos hlt he
    obtain ⟨c, hc⟩ := cursorFromRow_bounds (Int.le_of_lt hpos) hlt
    cases hc.symm.trans he
  change Ends g res at hend
  cases res with
  | ok reply =>
    cases g with
    | ended outcome =>
      cases hend
      exact hwhy
    | loaded | other => exact hwhy.elim
    | _ => exact hend.elim
  | error e =>
    cases g with
    | refused e' =>
      cases hend
      exact hwhy
    | duplicate w cursor =>
      obtain ⟨_, _, row, hrow, rfl, _⟩ := hl
      obtain ⟨hpos, _, hlt⟩ := hpre.bounded row (mem_of_find?_eq_some hrow)
      exact (hcursor hpos hlt hend).elim
    | placed w cursor => exact (hcursor hl.1.positive hl.1.small hend).elim
    | loadAdmitting | loaded | other => exact hwhy.elim
    | _ => exact hend.elim

section Run

variable {s t : StoreState} {i : ℕ} {labels : List StoreLabel}

/-- Session `i` makes no call but the append of the envelope, and loses no statement. -/
structure Appends (i : ℕ) (envelope : SignalEnvelope) (labels : List StoreLabel) : Prop where
  call : ∀ c, .start i c ∈ labels → c = .append envelope
  sound : ∀ l ∈ labels, l.session = i → l.faulty = false

theorem Appends.left {labels rest : List StoreLabel} (h : Appends i envelope (labels ++ rest)) :
    Appends i envelope labels where
  call c hc := h.call c (mem_append_left rest hc)
  sound l hl := h.sound l (mem_append_left rest hl)

/-- One append along a run, whatever runs beside it. -/
theorem append_following (hsd : sd.Tagged) (hs : Reachable sd s)
    (hi : i ∉ s.past.calls.map Prod.fst) (hr : Runs.run (pg sd).step s labels = some t)
    (hP : Runs.Along (pg sd).step (fun u => u.Waits i → P u.db) s labels)
    (happend : Appends i envelope labels) :
    (explaining hsd P envelope).Following (Reachable sd) i t := by
  obtain ⟨hnone, hquiet⟩ := (reachable_invariant hs).known.fresh hi
  refine Outline.following_run (I := Reachable sd) ?_ (fun _ _ _ => Runs.reachable_step) hs ?_
    happend.sound ?_ hr ⟨by simp [hnone], fun c res h => (hquiet c res h).elim⟩
  · intro u l v g x hu hstep hne hx hl
    exact ⟨Protocol.local_other hstep (reachable_invariant hu) (Ne.symm hne) hx hl.1, hl.2⟩
  · exact Runs.along_mono hP fun pre u hu hPu =>
      fun hwaits => ⟨reachable_consistent (Runs.reachable_run hs hu), hPu hwaits⟩
  · intro c hc db past hmem
    obtain rfl := happend.call c hc
    exact why_start hmem

/-- The answer of an append has its reason in the tables of the states it ran through. -/
theorem append_explained (hsd : sd.Tagged)
    (hfollow : (explaining hsd P envelope).Following (Reachable sd) i t) {c : Call}
    {res : Except PgStoreError Reply} (hlog : (i, c, res) ∈ t.log) :
    Explained sd P envelope res := by
  obtain ⟨u, hu, hans⟩ := hfollow.answered c res hlog
  exact explained_of_answer hsd (reachable_consistent hu) hans

/-- A step of an append that never sees its sequence free leaves the tables alone. -/
theorem db_of_taken (hsd : sd.Tagged) {l : StoreLabel} {u : StoreState}
    (hfollow : (explaining hsd P envelope).Following (Reachable sd) l.session t)
    (htaken : ∀ w : Append sd, w.envelope = envelope → ∀ db, P db → w.event? db ≠ none)
    (h : (pg sd).step t l = some u) : u.db = t.db := by
  rcases Service.step_db (Service.step_cases h) with he | ⟨x, st, k, hx, hp, hn, he⟩
  · exact he
  rw [he]
  rcases hfollow.tracked x hx with ⟨e, _, herr, _⟩ | ⟨g, hf, hl, hwhy⟩
  · rw [hp] at herr
    cases herr
  · rw [hp] at hf
    obtain ⟨r⟩ := answers st
    obtain ⟨g', hm, _⟩ := hf r
    cases hm with
    | commitDuplicate w cursor c hc =>
      rw [show x.writes = [] from hl.1]
      rfl
    | commit w cursor c hc =>
      obtain ⟨hw, _, _, db, hP, hnone⟩ := hwhy
      exact (htaken w hw db hP hnone).elim
    | commitLoad | other => exact hwhy.elim
    | _ => cases hn

end Run

end SkidMonitor
