import SkidMonitor.Server.History

/-! Switching an agent off and on beside its appends. -/
namespace SkidMonitor

open ReadCommitted

variable {sd : Serde} {s t : StoreState} {l : StoreLabel} {labels : List StoreLabel}
  {T : TenantId} {a : Str}

/-- What a call sets the `enabled` flag of an agent to. -/
def Call.switches? (c : Call) (t : TenantId) (a : Str) : Option Bool :=
  match c with
  | .enroll t' agentId _ _ => if t' = t ∧ agentId.text = a then some true else none
  | .setEnabled t' agentId enabled _ => if t' = t ∧ agentId.text = a then some enabled else none
  | _ => none

theorem reachable_issued (h : Reachable sd s) :
    ∀ i x, s.sessions i = some x → (pg sd).Issued Call.Issues x :=
  Runs.reachable_invariant (fun s hs i x hx => by simp [hs.idle.sessions] at hx)
    (fun _ _ _ hs h => Service.issued_step (program_issues sd) (Service.step_cases h) hs) h

/-- A write that switches an agent does what its call says. -/
theorem switch_of_issues {c : Call} {st : Stmt} {wr : Write} (hst : c.Issues st)
    (hw : st.Writes wr) (hs : wr.Switches T a) : ∃ e, c.switches? T a = some e ∧
      ∀ db : Db, (db.apply wr).agentEnabled T a = db.agentEnabled T a ∨
        (db.apply wr).agentEnabled T a = some e := by
  cases wr with
  | upsertAgent row =>
    cases st with
    | upsertAgent t' a' displayName =>
      obtain ⟨agentId, _, _, rfl, rfl⟩ := hst
      obtain ⟨rfl, rfl⟩ := hs
      obtain ⟨ht, ha, hrow⟩ := hw
      exact ⟨true, by simp [Call.switches?, ht, ha],
        fun db => Or.inr (Db.agentEnabled_upsertAgent hrow)⟩
    | _ => exact hw.elim
  | setAgentEnabled t' a' enabled =>
    cases st with
    | setAgentEnabled t'' a'' enabled' =>
      obtain ⟨agentId, _, rfl, rfl⟩ := hst
      obtain ⟨rfl, rfl⟩ := hs
      obtain ⟨rfl, rfl, rfl⟩ := hw
      refine ⟨enabled, by simp [Call.switches?], fun db => ?_⟩
      rw [Db.agentEnabled_setAgentEnabled]
      cases db.agentEnabled t' agentId.text with
      | none => exact Or.inl rfl
      | some _ => exact Or.inr rfl
    | _ => exact hw.elim
  | _ => exact hs.elim

/-- A commit leaves an agent as it is, or as its call says. -/
theorem agentEnabled_commit {db : Db} {c : Call} {ws : List Write}
    (h : ∀ wr ∈ ws, ∃ st, c.Issues st ∧ st.Writes wr) :
    ((pg sd).view db ws).agentEnabled T a = db.agentEnabled T a ∨
      ∃ e, c.switches? T a = some e ∧ ((pg sd).view db ws).agentEnabled T a = some e := by
  induction ws generalizing db with
  | nil => exact Or.inl rfl
  | cons wr ws ih =>
    obtain ⟨st, hst, hw⟩ := h wr List.mem_cons_self
    rcases @ih (db.apply wr) fun v hv => h v (List.mem_cons_of_mem wr hv) with he | hset
    · by_cases hs : wr.Switches T a
      · obtain ⟨e, hcall, happly⟩ := switch_of_issues hst hw hs
        exact (happly db).imp he.trans fun h' => ⟨e, hcall, he.trans h'⟩
      · exact Or.inl (he.trans (Db.agentEnabled_apply hs))
    · exact Or.inr hset

/-- The tables change only by writes that the committing call may make. -/
theorem writes_step (hs : Reachable sd s) (h : (pg sd).step s l = some t) :
    t.db = s.db ∨ ∃ x, s.sessions l.session = some x ∧ t.db = (pg sd).view s.db x.writes ∧
      ∀ wr ∈ x.writes, ∃ st, x.call.Issues st ∧ st.Writes wr := by
  rcases Service.step_db (Service.step_cases h) with he | ⟨x, _, _, hx, _, _, he⟩
  · exact Or.inl he
  · refine Or.inr ⟨x, hx, he, fun wr hwr => ?_⟩
    obtain ⟨st, _, _, _, _, _, hst, heval, hmem⟩ := (reachable_issued hs _ x hx).writes wr hwr
    exact ⟨st, hst, eval_writes heval wr hmem⟩

/-- An agent is switched only by a call that says so, as it commits. -/
theorem agentEnabled_step (hs : Reachable sd s) (h : (pg sd).step s l = some t)
    (hne : t.db.agentEnabled T a ≠ s.db.agentEnabled T a) : ∃ x e,
      s.sessions l.session = some x ∧ x.call.switches? T a = some e ∧
      t.db = (pg sd).view s.db x.writes ∧ t.db.agentEnabled T a = some e := by
  rcases writes_step hs h with he | ⟨x, hx, he, hw⟩
  · exact (hne (by rw [he])).elim
  · rw [he] at hne ⊢
    obtain ⟨e, hcall, hset⟩ := (agentEnabled_commit hw).resolve_left hne
    exact ⟨x, e, hx, hcall, rfl, hset⟩

/-- A disabled agent gets no event. -/
theorem not_mem_events_step {row : EventRow} (hs : Reachable sd s)
    (h : (pg sd).step s l = some t) (hoff : s.db.agentEnabled row.tenantId row.agentId = some false)
    (hrow : row ∉ s.db.events) : row ∉ t.db.events := by
  rcases events_step hs h with he | ⟨x, w, cursor, _, hplaced, he⟩
  · exact he ▸ hrow
  · rw [he, List.mem_append, List.mem_singleton, not_or]
    refine ⟨hrow, ?_⟩
    rintro rfl
    have henabled : s.db.agentEnabled w.tenant w.agent = some true := hplaced.enabled
    cases henabled.symm.trans hoff

/-- An append that makes its agent check while the agent is disabled is rejected. -/
theorem check_disabled {i : ℕ} {rd : Reading} {envelope : SignalEnvelope}
    {k : Option Bool → StoreM Reply} {x} (hs : Reachable sd s)
    (hoff : s.db.agentEnabled T a = some false) (hx : s.sessions i = some x)
    (hcall : x.call = .append envelope) (hprog : x.prog = .query (.selectAgentEnabled T a) k)
    (h : (pg sd).step s (.exec i rd) = some t) :
    ∃ y, t.sessions i = some y ∧ y.prog = .err (.agentDisabled envelope.agentId) := by
  rcases (reachable_invariant hs).tracked i x hx with ⟨e, _, he, _⟩ | ⟨g, hf, hl⟩
  · rw [hprog] at he
    cases he
  rw [hprog] at hf
  -- Whatever the answer is, it was asked for in the stage before the check.
  obtain ⟨w, hlocked, hwrites, hT, ha, hk⟩ : ∃ w : Append sd, Locked w x.toTxn s.past ∧
      x.writes = [] ∧ T = w.tenant ∧ a = w.agent ∧
        k (some false) = .err (.agentDisabled w.envelope.agentId) := by
    obtain ⟨g', hm, hf'⟩ := hf (some false)
    cases hm with
    | agentDisabled w => exact ⟨w, hl.2, hl.1, rfl, rfl, refused_prog hf'⟩
    | other => exact absurd hl.1 (by rw [hcall]; exact id)
  have henvelope : w.envelope = envelope := by
    have := hlocked.call.symm.trans hcall
    cases this
    rfl
  have heval : (Stmt.selectAgentEnabled T a).eval x.conn ((pg sd).view s.db x.writes) rd =
      .ok (some false, []) := by
    simp only [Stmt.eval]
    rw [hwrites, visible_context hlocked, hT, Db.agent?_slice]
    exact congrArg (fun r => Except.ok (r, [])) (hT ▸ hoff)
  rw [Service.step_exec_ok h hx hprog rfl heval]
  exact ⟨_, State.set_self _ _ _, henvelope ▸ hk⟩

/-- A commit that switches an agent is alone with its row. -/
theorem not_shared_after_switch {i : ℕ} {y} (hs : Reachable sd s) (h : (pg sd).step s l = some t)
    (hne : t.db.agentEnabled T a ≠ s.db.agentEnabled T a) (hy : t.sessions i = some y) :
    ⟨.agentRow T a, false⟩ ∉ y.held := by
  have hstep := Service.step_cases h
  have hinv := reachable_invariant hs
  by_cases hi : i = l.session
  · subst hi
    simp [Service.held_of_step_db hstep (fun he => hne (by rw [he])) hy]
  · rw [Service.step_other hstep hi] at hy
    rcases Service.step_db hstep with he | ⟨x, _, _, hx, hp, _, he⟩
    · exact (hne (by rw [he])).elim
    · -- Some write switches the agent, and the committing transaction has its row locked.
      obtain ⟨wr, hwr, hswitch⟩ : ∃ wr ∈ x.writes, wr.Switches T a := by
        by_contra hnone
        exact hne (he ▸ agentEnabled_view fun wr hwr hs => hnone ⟨wr, hwr, hs⟩)
      obtain ⟨g, _, _, _, hl⟩ := Protocol.committing (hinv.tracked _ x hx) hp
      have hlock := (guarded_of_local hl wr hwr).2 T a hswitch
      intro hshare
      simpa [pg, Lock.conflicts] using
        hinv.exclusive _ i x y (Ne.symm hi) hx hy _ hlock _ hshare

/-- Between the commit that disables an agent and one that enables it again, no event of
the agent commits. An append that had passed its agent check, and so shares the row of
the agent, has ended before; one that makes the check in between is rejected. -/
theorem disable_fences_appends (hs : Reachable sd s) (h : (pg sd).step s l = some t)
    (hon : s.db.agentEnabled T a = some true) (hoff : t.db.agentEnabled T a = some false) :
    (∃ x, s.sessions l.session = some x ∧ x.call.switches? T a = some false) ∧
    (∀ i y, t.sessions i = some y → ⟨.agentRow T a, false⟩ ∉ y.held) ∧
    (∀ labels u row, Runs.run (pg sd).step t labels = some u → row ∈ u.db.events →
      row ∉ t.db.events → row.tenantId = T → row.agentId = a →
      ∃ pre m post v v' x, labels = pre ++ m :: post ∧ Runs.run (pg sd).step t pre = some v ∧
        (pg sd).step v m = some v' ∧ Runs.run (pg sd).step v' post = some u ∧
        v.sessions m.session = some x ∧ x.call.switches? T a = some true ∧
        v'.db.agentEnabled T a = some true ∧ row ∉ v'.db.events) ∧
    (∀ labels u v i rd x k envelope, Runs.run (pg sd).step t labels = some u →
      u.db.agentEnabled T a = some false → u.sessions i = some x → x.call = .append envelope →
      x.prog = .query (.selectAgentEnabled T a) k → (pg sd).step u (.exec i rd) = some v →
      ∃ y, v.sessions i = some y ∧ y.prog = .err (.agentDisabled envelope.agentId)) := by
  have hreach : Reachable sd t := Runs.reachable_step hs h
  have hne : t.db.agentEnabled T a ≠ s.db.agentEnabled T a := by simp [hon, hoff]
  obtain ⟨x, e, hx, hcall, hdb, he⟩ := agentEnabled_step hs h hne
  obtain rfl : e = false := Option.some.inj (he.symm.trans hoff)
  refine ⟨⟨x, hx, hcall⟩, ?_, ?_, ?_⟩
  · exact fun i y hy => not_shared_after_switch hs h hne hy
  · rintro labels u row hr hrow hnew rfl rfl
    obtain ⟨pre, m, post, v, v', rfl, hpre, hm, hpost, ⟨hvoff, hvrow⟩, hchange⟩ :=
      Runs.run_change (P := fun z => z.db.agentEnabled row.tenantId row.agentId = some false ∧
        row ∉ z.db.events) hr ⟨hoff, hnew⟩ fun hu => hu.2 hrow
    have hvreach := Runs.reachable_run hreach hpre
    have hrow' : row ∉ v'.db.events := not_mem_events_step hvreach hm hvoff hvrow
    have hne : v'.db.agentEnabled row.tenantId row.agentId ≠ some false :=
      fun hv => hchange ⟨hv, hrow'⟩
    obtain ⟨y, e, hy, hycall, _, hye⟩ := agentEnabled_step hvreach hm (hvoff.symm ▸ hne)
    obtain rfl : e = true := by
      cases e with
      | true => rfl
      | false => exact (hne hye).elim
    exact ⟨pre, m, post, v, v', y, rfl, hpre, hm, hpost, hy, hycall, hye, hrow'⟩
  · intro labels u v i rd x k envelope hr hu hx hcall hprog hv
    exact check_disabled (Runs.reachable_run hreach hr) hu hx hcall hprog hv

section Sample

open Sample

/-- The labels of a switch of the sample agent, up to its commit. -/
def switching (i : ℕ) (enabled : Bool) : List StoreLabel :=
  .start i (.setEnabled tenant agent enabled ['u']) :: List.replicate 5 (.exec i ⟨10, 0⟩)

/-- An append is past its locks when the agent is disabled, and then makes its check. -/
theorem disable_fences_appends_sample :
    let before := .start 0 (.append (logs tenant 3)) :: List.replicate 4 (.exec 0 ⟨10, 1⟩) ++
      switching 1 false
    let disabled := before ++ [.exec 1 ⟨10, 0⟩]
    (reached before).db.agentEnabled tenant ['a'] = some true ∧
    (reached disabled).db.agentEnabled tenant ['a'] = some false ∧
    ∃ y, (reached (disabled ++ [.exec 0 ⟨10, 1⟩])).sessions 0 = some y ∧
      y.prog = .err (.agentDisabled agent) := by
  intro before disabled
  have hon : (reached before).db.agentEnabled tenant ['a'] = some true := by decide
  have hoff : (reached disabled).db.agentEnabled tenant ['a'] = some false := by decide
  have hfenced := (disable_fences_appends (reachable_reached (by decide))
    (step_reached (by decide)) hon hoff).2.2.2
  obtain ⟨x, k, hx, hcall, hprog⟩ : ∃ x k, (reached disabled).sessions 0 = some x ∧
      x.call = .append (logs tenant 3) ∧ x.prog = .query (.selectAgentEnabled tenant ['a']) k :=
    ⟨_, _, rfl, rfl, rfl⟩
  exact ⟨hon, hoff, hfenced [] _ _ 0 ⟨10, 1⟩ x k _ rfl hoff hx hcall hprog (step_reached (by decide))⟩

/-- An append that starts before the disable and makes its check once the agent is
enabled again is accepted. -/
theorem append_accepted_across_disable :
    let before := [.start 0 (.append (logs tenant 3)), .exec 0 ⟨10, 0⟩] ++ switching 1 false ++
      [.exec 1 ⟨10, 0⟩]
    let after := switching 2 true ++ .exec 2 ⟨10, 0⟩ ::
      List.replicate 11 (.exec 0 ⟨10, 1⟩) ++ [.finish 0]
    (reached before).db.agentEnabled tenant ['a'] = some false ∧
      (reached before).db.events.length = 0 ∧
      (0, .append (logs tenant 3), .ok (.appended ⟨⟨1⟩, true⟩)) ∈ (reached (before ++ after)).log := by
  decide

end Sample

end SkidMonitor
