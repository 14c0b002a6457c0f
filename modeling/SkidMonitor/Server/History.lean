import SkidMonitor.Server.Protocol

/-! What holds of events and projections along every run of the store. -/
namespace SkidMonitor

open ReadCommitted List

variable {sd : Serde} {s t : StoreState} {l : StoreLabel} {labels : List StoreLabel}

theorem reachable_consistent (h : Reachable sd s) : Consistent sd s.db s.past :=
  (reachable_invariant h).pre

/-- Each event is the row of an append that was called. -/
theorem reachable_sourced (h : Reachable sd s) {row : EventRow} (hrow : row ∈ s.db.events) :
    ∃ w : Append sd, row = w.row row.cursor ∧ ∃ i, (i, .append w.envelope) ∈ s.past.calls := by
  obtain ⟨envelopes, hsrc, _⟩ := (reachable_consistent h).projected row.tenantId
  obtain ⟨_, _, hcall, w, rfl, hw⟩ := Table.exists_right hsrc (Db.mem_eventsOf.mpr ⟨hrow, rfl⟩)
  exact ⟨w, hw, hcall⟩

theorem grows_step (h : (pg sd).step s l = some t) : s.db.Grows t.db := by
  rcases Service.step_db (Service.step_cases h) with he | ⟨x, _, _, _, _, _, he⟩
  · exact he ▸ prefix_rfl
  · exact he ▸ events_view

/-- A committed event stays where it is. -/
theorem grows_run (hr : Runs.run (pg sd).step s labels = some t) : s.db.Grows t.db :=
  Runs.run_rel (I := fun _ => True) (R := fun s t => s.db.Grows t.db)
    (fun _ => prefix_rfl) (fun _ _ _ => List.IsPrefix.trans) (fun _ _ _ _ _ => trivial)
    (fun _ _ _ _ h => grows_step h) trivial hr

theorem events_step (hs : Reachable sd s) (h : (pg sd).step s l = some t) :
    t.db.events = s.db.events ∨ ∃ x, ∃ (w : Append sd) (cursor : ℤ),
      s.sessions l.session = some x ∧ Placed w cursor x.toTxn s.db s.past ∧
        t.db.events = s.db.events ++ [w.row cursor] := by
  rcases Service.step_db (Service.step_cases h) with he | ⟨x, _, _, hx, hp, hn, he⟩
  · exact Or.inl (congrArg Db.events he)
  · obtain ⟨g, _, g', hm, hl⟩ := Protocol.committing ((reachable_invariant hs).tracked _ x hx) hp
    rw [he]
    exact (events_commit hl hn hm).imp id fun ⟨w, cursor, hplaced, hevents⟩ =>
      ⟨x, w, cursor, hx, hplaced, hevents⟩

/-- Once an event is visible, only events with larger cursors are added to its tenant. -/
theorem cursors_commit_in_order (hs : Reachable sd s)
    (hr : Runs.run (pg sd).step s labels = some t) :
    ∃ new, t.db.events = s.db.events ++ new ∧ ∀ row ∈ s.db.events, ∀ row' ∈ new,
      row'.tenantId = row.tenantId → row.cursor < row'.cursor := by
  obtain ⟨new, hnew⟩ := grows_run hr
  refine ⟨new, hnew.symm, fun row hrow row' hrow' ht => ?_⟩
  have hsorted := (reachable_consistent (Runs.reachable_run hs hr)).sorted row.tenantId
  rw [Db.eventsOf, ← hnew, filter_append, pairwise_append] at hsorted
  exact hsorted.2.2 row (mem_filter.mpr ⟨hrow, decide_eq_true rfl⟩) row'
    (mem_filter.mpr ⟨hrow', decide_eq_true ht⟩)

section Sample

open Sample

/-- The second append is by a tenant with the same lock key. -/
theorem cursors_commit_in_order_sample :
    let first := Sample.append 0 (logs tenant 3) 1
    let rest := Sample.append 1 (logs neighbour 3) 2 ++ Sample.append 2 (logs tenant 4) 5
    (reached first).db.events.map (·.cursor) = [1] ∧
      (reached (first ++ rest)).db.events.map (·.cursor) = [1, 2, 5] ∧
      ∃ new, (reached (first ++ rest)).db.events = (reached first).db.events ++ new ∧
        ∀ row ∈ (reached first).db.events, ∀ row' ∈ new,
          row'.tenantId = row.tenantId → row.cursor < row'.cursor :=
  ⟨by decide, by decide, cursors_commit_in_order (reachable_reached (by decide))
    (run_reached_append (by decide))⟩

end Sample

/-- Every tenant with events has one projection row, the fold of `observe` over its
events in cursor order; a tenant without events has none. -/
theorem projection_is_fold (hs : Reachable sd s) (t : TenantId) :
    (s.db.eventsOf t).Pairwise (fun r r' => r.cursor < r'.cursor) ∧
      (s.db.eventsOf t = [] → s.db.projectionsOf t = []) ∧
      (s.db.eventsOf t ≠ [] → ∃ envelopes last,
        List.Forall₂ (Sourced sd s.past) (s.db.eventsOf t) envelopes ∧
        IsGreatest {cursor | ∃ row ∈ s.db.eventsOf t, row.cursor = cursor} last ∧
        s.db.projectionsOf t =
          [⟨t, last, envelopes.foldl SignalProjection.observe .default⟩]) := by
  have hcons := reachable_consistent hs
  obtain ⟨envelopes, hsrc, hproj⟩ := hcons.projected t
  refine ⟨hcons.sorted t, ?_, ?_⟩
  · intro hnil
    rw [hproj, hnil]
    rfl
  · intro hne
    obtain ⟨rows, row, hrows⟩ := (eq_nil_or_concat' _).resolve_left hne
    refine ⟨envelopes, row.cursor, hsrc, ⟨⟨row, by simp [hrows], rfl⟩, ?_⟩, ?_⟩
    · rintro _ ⟨r, hr, rfl⟩
      have hsorted := hcons.sorted t
      rw [hrows] at hsorted hr
      rcases mem_append.mp hr with hr | hr
      · exact ((pairwise_append.mp hsorted).2.2 r hr row mem_cons_self).le
      · exact (congrArg EventRow.cursor (mem_singleton.mp hr)).le
    · rw [hproj, hrows, summary, getLast?_concat]

theorem projection_is_fold_sample :
    let s := Sample.reached (Sample.append 0 (Sample.logs Sample.tenant 3) 1 ++
      Sample.append 1 (Sample.signal narrowGauge 4) 2)
    (s.db.eventsOf Sample.tenant).length = 2 ∧ ∃ (envelopes : List SignalEnvelope) (last : ℤ),
      List.Forall₂ (Sourced Sample.serde s.past) (s.db.eventsOf Sample.tenant) envelopes ∧
      s.db.projectionsOf Sample.tenant =
        [⟨Sample.tenant, last, envelopes.foldl SignalProjection.observe .default⟩] := by
  intro s
  have hlen : (s.db.eventsOf Sample.tenant).length = 2 := by decide +kernel
  have hne : s.db.eventsOf Sample.tenant ≠ [] := ne_nil_of_length_eq_add_one hlen
  obtain ⟨envelopes, last, hsrc, _, hproj⟩ :=
    (projection_is_fold (Sample.reachable_reached (by decide +kernel)) Sample.tenant).2.2 hne
  exact ⟨hlen, envelopes, last, hsrc, hproj⟩

end SkidMonitor
