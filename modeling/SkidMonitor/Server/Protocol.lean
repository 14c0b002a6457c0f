import SkidMonitor.Server.Invariant

/-! The calls of the store keep the tables consistent, whatever runs beside them. -/
namespace SkidMonitor

open Fallible List
open ReadCommitted

variable {sd : Serde} {w : Append sd} {x : StoreTxn} {db : Db} {past : Past Call} {cursor : ℤ}
  {rd : Reading} {st : Stmt} {ws : List Write}

/-- The row of an append is the one it describes. -/
theorem insert_row {row : EventRow} (h : w.insert.row cursor = .ok row) :
    row = w.row cursor ∧ 0 < cursor := by
  obtain ⟨_, _, n, m, hn, hm, rfl, hchecks⟩ := row_ok.mp h
  cases (Numeral.read_print _).symm.trans hn
  cases (Numeral.read_print _).symm.trans hm
  refine ⟨rfl, ?_⟩
  simpa [EventRow.checks] using hchecks ("signal_events_cursor_positive", _) mem_cons_self

section Pending

theorem events_pending : ((pg sd).view db (pending w cursor db)).events =
    db.events ++ [w.row cursor] := by
  unfold pending
  split <;> rfl

theorem projectionsOf_pending :
    ((pg sd).view db (pending w cursor db)).projectionsOf w.tenant =
      if db.projectionsOf w.tenant = [] then [⟨w.tenant, 0, .default⟩]
      else db.projectionsOf w.tenant := by
  unfold pending
  split
  · rename_i h
    change (db.projections ++ [_]).filter _ = _
    rw [filter_append, show db.projections.filter _ = [] from h]
    simp
  · rfl

/-- Once a projection row is sure to be there, it holds the projection to start from. -/
theorem projection?_pending :
    (((pg sd).view db (pending w cursor db)).projection? w.tenant).map (·.projection) =
      some (current db w.tenant) := by
  rw [Db.projection?_eq_head?, projectionsOf_pending, current]
  cases db.projectionsOf w.tenant <;> rfl

end Pending

section Extend

theorem Entered.extend (h : Entered w x past) : Entered w ((pg sd).extend x db rd st ws) past :=
  ⟨h.call, h.made⟩

theorem Locked.extend (h : Locked w x past) (hst : st.configure rd x.conn = x.conn) :
    Locked w ((pg sd).extend x db rd st ws) past :=
  { h.toEntered.extend with
    context := (congrArg Conn.tenantId hst).trans h.context
    held := mem_append_left _ h.held }

theorem Checked.extend (h : Checked w x db past) (hst : st.configure rd x.conn = x.conn) :
    Checked w ((pg sd).extend x db rd st ws) db past :=
  { h.toLocked.extend hst with
    shared := mem_append_left _ h.shared
    enabled := h.enabled }

theorem Placed.extend (h : Placed w cursor x db past) (hst : st.configure rd x.conn = x.conn) :
    Placed w cursor ((pg sd).extend x db rd st ws) db past :=
  { h with toChecked := h.toChecked.extend hst }

end Extend

section Advance

theorem visible_context (h : Locked w x past) : db.visible x.conn.tenantId = db.slice w.tenant := by
  rw [h.context]
  rfl

/-- The check of the agent locks the row it has found enabled. -/
theorem checked_of_enabled (h : Locked w x past) (hx : x.writes = [])
    (he : (Stmt.selectAgentEnabled w.tenant w.agent).eval x.conn db rd = .ok (some true, ws)) :
    Checked w ((pg sd).extend x db rd (.selectAgentEnabled w.tenant w.agent) ws) db past := by
  have hr := congrArg Prod.fst (Except.ok.inj he)
  rw [visible_context h, Db.agent?_slice] at hr
  obtain ⟨row, hrow, _⟩ := Option.map_eq_some_iff.mp hr
  have hlock : (pg sd).locks (.selectAgentEnabled w.tenant w.agent) x.conn
      ((pg sd).view db x.writes) rd = [⟨.agentRow w.tenant w.agent, false⟩] := by
    rw [hx]
    change (if ((db.visible x.conn.tenantId).agent? w.tenant w.agent).isSome then _ else _) = _
    rw [visible_context h, Db.agent?_slice, hrow]
    rfl
  exact { h.extend rfl with
    shared := mem_append_right _ (hlock ▸ mem_cons_self)
    enabled := hr }

theorem selected_event {r : Option ExistingEvent} (h : Locked w x past)
    (he : (Stmt.selectEvent w.tenant w.agent w.insert.sequence).eval x.conn db rd = .ok (r, ws)) :
    r = (w.event? db).map (fun row => ⟨row.cursor, row.signalKind, row.payload⟩) ∧
      ws = [] := by
  obtain ⟨n, hn, he⟩ := bind_ok he
  cases (Numeral.read_print _).symm.trans (requireNumeral_ok.mp hn)
  rw [visible_context h, Db.event?_slice] at he
  cases he
  exact ⟨rfl, rfl⟩

/-- The event of an append is placed above the events of its tenant. -/
theorem placed_of_inserted (hpre : Consistent sd db past) (h : Checked w x db past)
    (hd : past.last < rd.fresh ∧ rd.fresh ≤ 2 ^ 63 - 1)
    (hfree : w.event? db = none) (hpos : 0 < rd.fresh) :
    Placed w rd.fresh ((pg sd).extend x db rd (.insertEvent w.insert) ws) db
      { past with last := rd.fresh } := by
  have hle : past ≤ { past with last := rd.fresh } := ⟨hd.1.le, List.Subset.refl _⟩
  exact { (h.extend rfl).later hle with
    positive := hpos
    drawn := Int.le_refl _
    small := by omega
    above := fun row hrow => by
      have := (hpre.bounded row (mem_of_mem_filter hrow)).2.1
      omega
    free := hfree }

theorem prepared_writes {t : TenantId} {p : SignalProjection}
    (he : (Stmt.insertProjection t p).eval x.conn db rd = .ok ((), ws)) :
    ws = if db.projectionsOf t = [] then [.insertProjection ⟨t, 0, p⟩] else [] := by
  obtain ⟨_, _, he⟩ := bind_ok he
  rw [Db.projection?_eq_head?] at he
  by_cases h : db.projectionsOf t = []
  · rw [h] at he ⊢
    cases he
    rfl
  · obtain ⟨row, rows, hrows⟩ := exists_cons_of_ne_nil h
    rw [if_neg h]
    rw [hrows] at he
    cases he
    rfl

theorem eventsAfter_slice (db : Db) (t : TenantId) (after : ℤ) :
    ((db.slice t).events.filter fun r => r.tenantId = t ∧ after < r.cursor) =
      db.eventsAfter t after := by
  unfold Db.eventsAfter Db.eventsOf
  simp only [Db.slice, filter_filter]
  apply filter_congr
  intro r _
  by_cases hr : r.tenantId = t <;> simp [hr]

theorem local_advance {g g' : Stage sd} {r : st.Resp} (hpre : Consistent sd db past)
    (h : Local g x db past) (hn : st.commits = false) (hm : Move g st r g')
    (hd : st.draws = true → past.last < rd.fresh ∧ rd.fresh ≤ 2 ^ 63 - 1)
    (he : st.eval x.conn ((pg sd).view db x.writes) rd = .ok (r, ws)) :
    Local g' ((pg sd).extend x db rd st ws) db ((pg sd).after st rd past) := by
  have hkeep : ws = [] → x.writes = [] → ((pg sd).extend x db rd st ws).writes = [] := by
    rintro rfl hx
    simp [Service.extend, hx]
  have hrefuse : ws = [] → x.writes = [] → ∀ wr ∈ ((pg sd).extend x db rd st ws).writes,
      Guarded ((pg sd).extend x db rd st ws).held wr := by
    intro hws hx wr hwr
    simp [hkeep hws hx] at hwr
  cases hm with
  | begin w =>
    cases he
    exact ⟨hkeep rfl h.1, h.2.extend⟩
  | context w =>
    cases he
    exact ⟨hkeep rfl h.1, h.2.extend, rfl⟩
  | admitted w =>
    have hws : ws = [] := (congrArg Prod.snd (Except.ok.inj he)).symm
    exact ⟨hkeep hws h.1, h.2.1.extend, h.2.2⟩
  | tenantDisabled | tenantMissing => exact hrefuse (congrArg Prod.snd (Except.ok.inj he)).symm h.1
  | lock w =>
    cases he
    exact ⟨hkeep rfl h.1, { h.2.1.extend with
      context := h.2.2
      held := mem_append_right _ mem_cons_self }⟩
  | agentEnabled w =>
    have hws : ws = [] := (congrArg Prod.snd (Except.ok.inj he)).symm
    rw [h.1] at he
    exact ⟨hkeep hws h.1, checked_of_enabled h.2 h.1 he⟩
  | agentDisabled | agentMissing => exact hrefuse (congrArg Prod.snd (Except.ok.inj he)).symm h.1
  | taken w =>
    rw [h.1] at he
    obtain ⟨row, hrow, _, ⟨_, hws, hsome⟩ | ⟨hr, _⟩⟩ := eval_insertEvent he
    · obtain ⟨rfl, _⟩ := insert_row hrow
      exact ⟨hkeep hws h.1, (h.2.extend rfl).later ⟨(hd rfl).1.le, List.Subset.refl _⟩, hsome⟩
    · cases hr
  | inserted w cursor =>
    rw [h.1] at he
    obtain ⟨row, hrow, _, ⟨hr, _⟩ | ⟨hr, hws, hnone⟩⟩ := eval_insertEvent he
    · cases hr
    · cases hr
      obtain ⟨rfl, hpos⟩ := insert_row hrow
      refine ⟨placed_of_inserted hpre h.2 (hd rfl) hnone hpos, ?_⟩
      simp [Service.extend, h.1, hws]
  | same w row hm =>
    rw [h.1] at he
    obtain ⟨hr, hws⟩ := selected_event h.2.1.toLocked he
    obtain ⟨event, hevent, hcols⟩ := Option.map_eq_some_iff.mp hr.symm
    subst hcols
    exact ⟨hkeep hws h.1, h.2.1.extend rfl, event, hevent, rfl, hm⟩
  | unreadable | differs | vanished => exact hrefuse (selected_event h.2.1.toLocked he).2 h.1
  | commitDuplicate w cursor c hc => cases hn
  | prepare w cursor =>
    refine ⟨h.1.extend rfl, ?_⟩
    have hws := prepared_writes he
    rw [h.2] at hws
    change x.writes ++ ws = _
    rw [h.2, hws]
    rfl
  | observe w cursor p =>
    have hr := congrArg Prod.fst (Except.ok.inj he)
    rw [visible_context h.1.toLocked, Db.projection?_slice, h.2, projection?_pending] at hr
    have hws : [] = ws := congrArg Prod.snd (Except.ok.inj he)
    refine ⟨h.1.extend rfl, ?_, (Option.some.inj hr).symm⟩
    simp [Service.extend, h.2, ← hws]
  | noProjection w cursor =>
    have hws : [] = ws := congrArg Prod.snd (Except.ok.inj he)
    have hwrites : ((pg sd).extend x db rd (.selectProjectionForUpdate w.tenant) ws).writes =
        pending w cursor db := by simp [Service.extend, h.2, ← hws]
    intro wr hwr
    rw [hwrites] at hwr
    exact pending_guarded (h.1.toLocked.extend rfl) wr hwr
  | update w cursor p =>
    obtain ⟨hp, hw, rfl⟩ := h
    have hsome : ((((pg sd).view db x.writes).visible x.conn.tenantId).projection?
        w.tenant).isSome = true := by
      rw [visible_context hp.toLocked, Db.projection?_slice, hw, ← Option.isSome_map,
        projection?_pending]
      rfl
    have hws : _ = ws := (if_pos hsome).symm.trans (congrArg Prod.snd (Except.ok.inj he))
    exact ⟨hp.extend rfl, [], by simp [Touches], by simp [Service.extend, hw, ← hws]⟩
  | touch w cursor =>
    obtain ⟨hp, touches, htouch, hw⟩ := h
    refine ⟨hp.extend rfl, touches ++ ws, ?_, by simp [Service.extend, hw]⟩
    intro wr hwr
    rcases mem_append.mp hwr with hwr | hwr
    · exact htouch wr hwr
    · have hwrites := eval_writes he wr hwr
      cases wr with
      | touchAgent t a now =>
        obtain ⟨rfl, rfl⟩ := hwrites
        exact ⟨now, rfl⟩
      | _ => exact hwrites.elim
  | notify w cursor c =>
    obtain ⟨hp, touches, htouch, hw⟩ := h
    cases he
    exact ⟨hp.extend rfl, touches, htouch, by simp [Service.extend, hw]⟩
  | commit w cursor c hc => cases hn
  | loadBegin q =>
    cases he
    exact ⟨hkeep rfl h.1, h.2⟩
  | loadContext q =>
    cases he
    exact ⟨hkeep rfl h.1, h.2, rfl⟩
  | loadAdmitted q r =>
    cases he
    exact ⟨hkeep rfl h.1, h.2⟩
  | loadRows q rows =>
    obtain ⟨hx, hbegins, hcontext⟩ := h
    have hws : ws = [] := (congrArg Prod.snd (Except.ok.inj he)).symm
    have hrows := congrArg Prod.fst (Except.ok.inj he)
    rw [hx, hcontext] at hrows
    refine ⟨hkeep hws hx, hbegins, _, ?_, hrows.symm⟩
    have hsorted : (db.eventsAfter q.tenant q.after).Pairwise fun r r' => r.cursor < r'.cursor :=
      (hpre.sorted q.tenant).filter _
    rw [← eventsAfter_slice] at hsorted ⊢
    exact loadBounded_prefix hsorted
  | commitLoad q rows => cases hn
  | other st r hst =>
    refine ⟨h.1, fun wr hwr => ?_⟩
    rcases mem_append.mp hwr with hwr | hwr
    · obtain ⟨hquiet, hguard, hlocks⟩ := h.2 wr hwr
      exact ⟨hquiet, Or.inl hquiet, fun t a hs => mem_append_left _ (hlocks t a hs)⟩
    · have hquiet := (eval_writes he wr hwr).quiet hst
      exact ⟨hquiet, Or.inl hquiet, fun t a hs =>
        mem_append_right _ (eval_switches he hwr hs)⟩

end Advance

section Commit

theorem Touches.quiet {touches : List Write} (h : Touches w touches) :
    ∀ wr ∈ touches, wr.Quiet := by
  intro wr hwr
  obtain ⟨now, rfl⟩ := h wr hwr
  trivial

section Recorded

variable {p : SignalProjection} {touches : List Write} (htouch : Touches w touches)
include htouch

theorem recorded_tenant : ∀ wr ∈ pending w cursor db ++
    .updateProjection w.tenant cursor p :: touches, wr.tenant = w.tenant := by
  intro wr hwr
  rcases mem_append.mp hwr with hwr | hwr
  · rcases mem_pending hwr with rfl | rfl <;> rfl
  · rcases mem_cons.mp hwr with rfl | hwr
    · rfl
    · obtain ⟨now, rfl⟩ := htouch wr hwr
      rfl

/-- The tables once an append has committed: one more event, -/
theorem events_recorded : ((pg sd).view db (pending w cursor db ++
    .updateProjection w.tenant cursor p :: touches)).events = db.events ++ [w.row cursor] := by
  rw [Service.view_append, Service.view_cons, (quiet_view htouch.quiet).1]
  exact events_pending

/-- and the projection that has taken it in. -/
theorem projectionsOf_recorded (hpos : 0 < cursor)
    (hproj : db.projectionsOf w.tenant = [] ∨ ∃ row, db.projectionsOf w.tenant = [row] ∧
      row.tenantId = w.tenant ∧ row.lastCursor < cursor) :
    ((pg sd).view db (pending w cursor db ++
      .updateProjection w.tenant cursor p :: touches)).projectionsOf w.tenant =
        [⟨w.tenant, cursor, p⟩] := by
  obtain ⟨row, hrow, ht, hlt⟩ : ∃ row, ((pg sd).view db (pending w cursor db)).projectionsOf
      w.tenant = [row] ∧ row.tenantId = w.tenant ∧ row.lastCursor < cursor := by
    rw [projectionsOf_pending]
    rcases hproj with h | ⟨row, h, hrow⟩
    · exact ⟨_, if_pos h, rfl, hpos⟩
    · exact ⟨row, by simp [h], hrow⟩
  rw [Service.view_append, Service.view_cons, Db.projectionsOf, (quiet_view htouch.quiet).2]
  change (Table.modify _ _ _).filter _ = _
  rw [Table.filter_modify (by intro; rfl), show List.filter _ _ = _ from hrow]
  simp [Table.modify, ht, max_eq_right hlt.le]

end Recorded

/-- The projection an append starts from is the fold of the events before it. -/
theorem current_eq {t : TenantId} {envelopes : List SignalEnvelope}
    (hsrc : List.Forall₂ (Sourced sd past) (db.eventsOf t) envelopes)
    (hproj : db.projectionsOf t = summary t (db.eventsOf t) envelopes) :
    current db t = envelopes.foldl SignalProjection.observe .default := by
  rw [current, hproj, summary]
  cases hlast : (db.eventsOf t).getLast? with
  | none =>
    rw [getLast?_eq_none_iff] at hlast
    rw [hlast] at hsrc
    cases hsrc
    rfl
  | some row => rfl

theorem summary_row {t : TenantId} {rows : List EventRow} {envelopes : List SignalEnvelope}
    (h : ∀ row ∈ rows, row.cursor < cursor) : summary t rows envelopes = [] ∨
      ∃ row, summary t rows envelopes = [row] ∧ row.tenantId = t ∧ row.lastCursor < cursor := by
  unfold summary
  cases hlast : rows.getLast? with
  | none => exact Or.inl rfl
  | some row => exact Or.inr ⟨_, rfl, rfl, h row (mem_of_getLast? hlast)⟩

theorem summary_append (t : TenantId) (rows : List EventRow) (row : EventRow)
    (envelopes : List SignalEnvelope) (envelope : SignalEnvelope) :
    summary t (rows ++ [row]) (envelopes ++ [envelope]) =
      [⟨t, row.cursor, (envelopes.foldl SignalProjection.observe .default).observe envelope⟩] := by
  simp [summary]

/-- An append that commits leaves the tables consistent. -/
theorem consistent_recorded {touches : List Write} (hpre : Consistent sd db past)
    (h : Placed w cursor x db past) (htouch : Touches w touches) :
    Consistent sd ((pg sd).view db (pending w cursor db ++ .updateProjection w.tenant cursor
      ((current db w.tenant).observe w.envelope) :: touches)) past := by
  set new := (pg sd).view db (pending w cursor db ++ .updateProjection w.tenant cursor
    ((current db w.tenant).observe w.envelope) :: touches) with hnew
  have hevents : new.events = db.events ++ [w.row cursor] := events_recorded htouch
  have hown : new.eventsOf w.tenant = db.eventsOf w.tenant ++ [w.row cursor] := by
    simp [Db.eventsOf, hevents, Append.row]
  have hother : ∀ t, t ≠ w.tenant → new.eventsOf t = db.eventsOf t := by
    intro t ht
    simp [Db.eventsOf, hevents, Append.row, Ne.symm ht]
  -- What is asked of the events of each tenant is asked of the new event only once.
  have hpair : ∀ R : EventRow → EventRow → Prop, (∀ t, (db.eventsOf t).Pairwise R) →
      (∀ row ∈ db.eventsOf w.tenant, R row (w.row cursor)) → ∀ t, (new.eventsOf t).Pairwise R := by
    intro R hR hrow t
    by_cases ht : t = w.tenant
    · rw [ht, hown, pairwise_append]
      exact ⟨hR _, pairwise_singleton _ _, fun row hr r' hr' =>
        mem_singleton.mp hr' ▸ hrow row hr⟩
    · rw [hother t ht]
      exact hR t
  refine ⟨hpre.started, ?_, hpair _ hpre.sorted h.above, hpair _ hpre.keys ?_, ?_⟩
  · intro row hrow
    rw [hevents, mem_append, mem_singleton] at hrow
    rcases hrow with hrow | rfl
    · exact hpre.bounded row hrow
    · exact ⟨h.positive, h.drawn, h.small⟩
  · intro row hrow hkey
    have hfree := find?_eq_none.mp h.free row (mem_of_mem_filter hrow)
    have ht : row.tenantId = w.tenant := by simpa using of_mem_filter hrow
    exact hfree (decide_eq_true ⟨ht, hkey⟩)
  · intro t
    obtain ⟨envelopes, hsrc, hproj⟩ := hpre.projected t
    by_cases ht : t = w.tenant
    · subst ht
      refine ⟨envelopes ++ [w.envelope], ?_, ?_⟩
      · rw [hown]
        exact rel_append hsrc (.cons ⟨h.call ▸ h.made, w, rfl, rfl⟩ .nil)
      · rw [hown, summary_append, ← current_eq hsrc hproj, hnew]
        exact projectionsOf_recorded htouch h.positive (hproj ▸ summary_row h.above)
    · refine ⟨envelopes, (hother t ht).symm ▸ hsrc, ?_⟩
      rw [hother t ht, ← hproj]
      exact projectionsOf_view fun wr hwr => Or.inr (recorded_tenant htouch wr hwr ▸ Ne.symm ht)

theorem consistent_commit {g g' : Stage sd} {r : st.Resp} (hpre : Consistent sd db past)
    (h : Local g x db past) (hn : st.commits = true) (hm : Move g st r g') :
    Consistent sd ((pg sd).view db x.writes) past := by
  have hnone : x.writes = [] → Consistent sd ((pg sd).view db x.writes) past := by
    intro hx
    rw [hx]
    exact hpre
  cases hm with
  | commitDuplicate | commitLoad => exact hnone h.1
  | commit w cursor c hc =>
    obtain ⟨hp, touches, htouch, hw⟩ := h
    rw [hw]
    exact consistent_recorded hpre hp htouch
  | other st r hst =>
    obtain ⟨hevents, hproj⟩ := @quiet_view sd db x.writes fun wr hwr => (h.2 wr hwr).1
    exact hpre.congr hevents hproj
  | _ => cases hn

/-- A commit adds no event, or the one of an append in its last stage. -/
theorem events_commit {g g' : Stage sd} {r : st.Resp} (h : Local g x db past)
    (hn : st.commits = true) (hm : Move g st r g') :
    ((pg sd).view db x.writes).events = db.events ∨ ∃ (w : Append sd) (cursor : ℤ),
      Placed w cursor x db past ∧
        ((pg sd).view db x.writes).events = db.events ++ [w.row cursor] := by
  cases hm with
  | commitDuplicate | commitLoad => exact Or.inl (by rw [h.1]; rfl)
  | commit w cursor c hc =>
    obtain ⟨hp, touches, htouch, hw⟩ := h
    exact Or.inr ⟨w, cursor, hp, hw ▸ events_recorded htouch⟩
  | other st r hst => exact Or.inl (quiet_view fun wr hwr => (h.2 wr hwr).1).1
  | _ => cases hn

/-- A call that has committed can tell what it did. -/
theorem local_commit {g g' : Stage sd} {r : st.Resp} (h : Local g x db past)
    (hn : st.commits = true) (hm : Move g st r g') :
    Local g' ((pg sd).blank x.call) ((pg sd).view db x.writes) past := by
  cases hm with
  | commitDuplicate w cursor c hc =>
    obtain ⟨hx, hcheck, row, hrow, rfl, hmatch⟩ := h
    refine ⟨rfl, ?_⟩
    rw [hx]
    change Logged sd x.call _ db
    rw [hcheck.call]
    exact ⟨_, rfl, w, row, rfl, hrow, (cursorFromRow_ok hc).1, hmatch⟩
  | commitLoad q rows =>
    obtain ⟨hx, hrest⟩ := h
    rw [hx]
    exact ⟨rfl, hrest⟩
  | commit w cursor c hc =>
    obtain ⟨hp, touches, htouch, hw⟩ := h
    refine ⟨rfl, ?_⟩
    change Logged sd x.call _ _
    rw [hp.call, hw]
    refine ⟨_, rfl, w, w.row cursor, rfl, ?_, (cursorFromRow_ok hc).1, rfl⟩
    have hfree : w.event? db = none := hp.free
    unfold Append.event? Db.event? at hfree ⊢
    rw [events_recorded htouch, find?_append, hfree]
    simp [Append.row]
  | other st r hst => exact ⟨h.1, by simp [Service.blank]⟩
  | _ => cases hn

end Commit

/-- A call starts in the stage it begins in. -/
theorem local_start {i : ℕ} {c : Call} (hc : (i, c) ∈ past.calls) :
    ∃ g : Stage sd, (Call.program sd c).Follows Move Ends g ∧ Local g ((pg sd).blank c) db past := by
  obtain ⟨g, hf, hb⟩ := @program_follows sd c
  refine ⟨g, hf, ?_⟩
  cases g with
  | opening w => exact ⟨rfl, hb, i, hc⟩
  | loadOpening q => exact ⟨rfl, hb⟩
  | refused error => simp [Local, Service.blank]
  | other => exact ⟨hb, by simp [Service.blank]⟩
  | _ => exact hb.elim

/-- The last stage of a call vouches for its answer. -/
theorem logged_finish {g : Stage sd} {res : Except PgStoreError Reply} (h : Local g x db past)
    (hend : Ends g res) : Logged sd x.call res db := by
  cases res with
  | error e => cases x.call <;> trivial
  | ok reply =>
    cases g with
    | ended outcome =>
      obtain rfl := hend
      exact h.2
    | other =>
      have hplain := h.1
      cases hcall : x.call with
      | append | load =>
        rw [hcall] at hplain
        exact hplain.elim
      | _ => trivial
    | loaded q rows =>
      obtain ⟨_, ⟨after, rowLimit, maxJsonBytes, hcall, hz⟩, events, hpre, rfl⟩ := h
      obtain ⟨records, rfl, hrec⟩ := hend
      rw [hcall]
      exact ⟨records, rfl, q.tenant, q.after, events, rfl, hz, hpre, hrec⟩
    | _ => exact hend.elim

theorem answers (st : Stmt) : Nonempty st.Resp := by
  cases st with
  | requireEnabledTenant | selectAgentEnabled | insertEvent | selectEvent
  | selectProjectionForUpdate | selectProjection | setAgentEnabled | consumeStreamTicket =>
    exact ⟨none⟩
  | loadEnvelopesBounded | listAgents => exact ⟨[]⟩
  | agentCardinality => exact ⟨((0 : ℤ), false)⟩
  | upsertAgent => exact ⟨(⟨[], none, false, 0, none⟩ : AgentColumns)⟩
  | upsertTenant => exact ⟨(⟨[], [], false, 0⟩ : TenantColumns)⟩
  | cleanupStreamTickets | createStreamTicket => exact ⟨(0 : ℕ)⟩
  | _ => exact ⟨()⟩

/-- A refused call has only its error left to return. -/
theorem refused_prog {p : StoreM Reply} {e : PgStoreError}
    (h : p.Follows Move Ends (.refused e : Stage sd)) : p = .err e := by
  cases p with
  | ok a => exact h.elim
  | err e' => exact congrArg _ h
  | query st k =>
    obtain ⟨r⟩ := answers st
    obtain ⟨_, hm, _⟩ := h r
    cases hm

/-- The calls of the store as one protocol. -/
def protocol (sd : Serde) : Protocol (pg sd) (Stage sd) where
  Move := Move
  Fin := Ends
  Pre := Consistent sd
  Local := Local
  Raised _ := True
  answers := answers
  advance := local_advance
  commit _ := local_commit
  refuse _ _ _ _ _ := trivial
  later h hle := local_later hle h
  Logged := Logged sd
  symm := conflicts_symm sd
  outage := trivial
  start _ := local_start
  pre_later h hle := h.later hle
  pre_commit := consistent_commit
  frame _ hx _ _ hy hfree := local_frame (guarded_of_local hx) hfree hy
  finish := logged_finish
  raised c e db _ := by cases c <;> trivial
  stable wr h := h.grows Db.events_apply

theorem consistent_initial {s : StoreState} (h : Initial s) : Consistent sd s.db s.past := by
  have he : ∀ t, s.db.eventsOf t = [] := fun t => by simp [Db.eventsOf, h.events]
  have hp : ∀ t, s.db.projectionsOf t = [] := fun t => by
    simp [Db.projectionsOf, h.projections]
  exact {
    started := h.last
    bounded := by simp [h.events]
    sorted := by simp [he]
    keys := by simp [he]
    projected := fun t => ⟨[], by rw [he]; exact .nil, by rw [he, hp]; rfl⟩ }

theorem reachable_invariant {s : StoreState} (h : Reachable sd s) : (protocol sd).Invariant s :=
  Runs.reachable_invariant (fun _ h => Protocol.invariant_idle h.idle (consistent_initial h))
    (fun _ _ _ hs h => Protocol.invariant_step h hs) h

end SkidMonitor
