import SkidMonitor.Client.Alignment
import SkidMonitor.Client.AlertLog

/-! The table of the edges mirrors the decorations, as far as the worker has written it, and a
restart rebuilds them from it. -/
namespace SkidMonitor.Client

open List

/-- How a decoration and its row can move: not at all, the row to what the decoration is persisted
as, or away with it. -/
inductive Moved (r r' : Option EdgeSignalDecoration) (e e' : Option EdgeRow) : Prop where
  | same : r' = r → e' = e → Moved r r' e e'
  | written (d : EdgeSignalDecoration) : r' = some d → e' = some d.toPersisted.toRow →
      Moved r r' e e'
  | gone : r' = none → e' = none → Moved r r' e e'

namespace Moved

variable {r r' r'' : Option EdgeSignalDecoration} {e e' e'' : Option EdgeRow}

theorem trans (h : Moved r r' e e') (h' : Moved r' r'' e' e'') : Moved r r'' e e'' := by
  cases h' with
  | same hr he =>
    subst hr he
    exact h
  | written d hr he => exact .written d hr he
  | gone hr he => exact .gone hr he

/-- A row that is what its decoration is persisted as stays so. -/
theorem mirrors (h : Moved r r' e e') (hd : ∀ d, r = some d → e = some d.toPersisted.toRow) :
    ∀ d, r' = some d → e' = some d.toPersisted.toRow := by
  intro d hr
  cases h with
  | same hr' he =>
    subst hr' he
    exact hd d hr
  | written d' hr' he =>
    rw [hr'] at hr
    cases hr
    exact he
  | gone hr' =>
    rw [hr'] at hr
    cases hr

/-- Without a decoration there is no row, if it was so before. -/
theorem absent (h : Moved r r' e e') (hnone : r = none → e = none) : r' = none → e' = none := by
  intro hr
  cases h with
  | same hr' he =>
    subst hr' he
    exact hnone hr
  | written d hr' =>
    rw [hr'] at hr
    cases hr
  | gone _ he => exact he

end Moved

/-- Every decoration is kept under its own key. -/
def EdgeSignalDecorations.Keyed (e : EdgeSignalDecorations) : Prop :=
  ∀ key d, e.rows.lookup key = some d → d.key = key

namespace DashboardState

variable (clock : ℕ → Reading) (display : Display) {db db' : StateDb} {s t u : NativeState}
  {key : Str} {a : Action}

/-- Decorations and rows move together, key by key. -/
structure Tracks (db : StateDb) (s : NativeState) (db' : StateDb) (t : NativeState) : Prop where
  storage : t.storage.isSome
  keyed : t.edgeDecorations.Keyed
  moved : ∀ key, Moved (s.edgeDecorations.rows.lookup key) (t.edgeDecorations.rows.lookup key)
    ((settled db s).edgeState.lookup key) ((settled db' t).edgeState.lookup key)

theorem Tracks.trans {db'' : StateDb} (hst : Tracks db s db' t) (htu : Tracks db' t db'' u) :
    Tracks db s db'' u :=
  ⟨htu.storage, htu.keyed, fun key => (hst.moved key).trans (htu.moved key)⟩

/-- Where a dashboard with a storage starts from. -/
structure Tracked (s : NativeState) : Prop where
  storage : s.storage.isSome
  keyed : s.edgeDecorations.Keyed

theorem Tracks.tracked (h : Tracks db s db' t) : Tracked t := ⟨h.storage, h.keyed⟩

theorem tracks_same (h : Tracked s) (hrows : t.edgeDecorations = s.edgeDecorations)
    (hsome : t.storage.isSome) (htable : (settled db' t).edgeState = (settled db s).edgeState) :
    Tracks db s db' t := by
  refine ⟨hsome, ?_, fun key => .same ?_ ?_⟩
  · rw [hrows]
    exact h.keyed
  · rw [hrows]
  · rw [htable]

theorem Quiet.tracks (hquiet : Quiet s t) (h : Tracked s) : Tracks db s db t := by
  refine tracks_same h hquiet.edgeDecorations ?_ ?_
  · rw [hquiet.storage]
    exact h.storage
  · rw [settled, hquiet.storage, settled]

/-- A decoration is entered, and its row is sent. -/
theorem tracks_put (key : Str) (h : Tracked s) (hstorage : t.storage = s.storage)
    {d : EdgeSignalDecoration}
    (hrows : t.edgeDecorations.rows = s.edgeDecorations.rows.insert key d) (hkey : d.key = key) :
    Tracks db s db (t.send (.upsertEdge d.toPersisted)) := by
  have hsome : t.storage.isSome := hstorage ▸ h.storage
  have htable : (settled db (t.send (.upsertEdge d.toPersisted))).edgeState =
      (settled db s).edgeState.insert key d.toPersisted.toRow := by
    rw [settled_send hstorage h.storage, ← hkey]
    rfl
  refine ⟨by simpa [send] using hsome, ?_, fun j => ?_⟩
  · intro j found hfound
    change t.edgeDecorations.rows.lookup j = some found at hfound
    rw [hrows] at hfound
    obtain ⟨rfl, rfl⟩ | hold := SortedMap.lookup_insert_some hfound
    · exact hkey
    · exact h.keyed j found hold
  · change Moved _ (t.edgeDecorations.rows.lookup j) _ _
    rw [hrows, htable]
    by_cases hj : j = key
    · subst hj
      exact .written d SortedMap.lookup_insert_self SortedMap.lookup_insert_self
    · exact .same (SortedMap.lookup_insert_of_ne hj) (SortedMap.lookup_insert_of_ne hj)

theorem tracks_storeNode (h : Tracked s) {entry : NodeSummary}
    (hkey : key = edgeKey entry.endpoint entry.node) (lastSignal : Str) :
    Tracks db s db (storeNode clock s key entry lastSignal) := by
  subst hkey
  refine tracks_put (edgeKey entry.endpoint entry.node) h ?_ ?_ ?_
  · rfl
  · rfl
  · cases hd : s.edgeDecorations.rows.lookup (edgeKey entry.endpoint entry.node) with
    | none => rfl
    | some d => exact h.keyed _ d hd

theorem tracks_putSeverity (h : Tracked s) {d : EdgeSignalDecoration}
    (hkey : s.edgeDecorations.rows.lookup key = some d) (severity : Option AlertSeverity) :
    Tracks db s db (putSeverity clock s key d severity) := by
  refine tracks_put key h ?_ ?_ ?_
  · rfl
  · rfl
  · exact h.keyed key d hkey

theorem tracks_forgetNode (h : Tracked s) (key : Str) : Tracks db s db (forgetNode s key) := by
  have hsome : (forgetNode s key).storage.isSome := by
    simpa [forgetNode, send] using h.storage
  have htable : (settled db (forgetNode s key)).edgeState = (settled db s).edgeState.erase key := by
    rw [forgetNode, settled_send _ h.storage]
    · rfl
    · rfl
  refine ⟨hsome, ?_, fun j => ?_⟩
  · intro j d hd
    exact h.keyed j d (SortedMap.lookup_erase_some hd).2
  · change Moved _ ((s.edgeDecorations.rows.erase key).lookup j) _ _
    rw [htable]
    by_cases hj : j = key
    · subst hj
      exact .gone SortedMap.lookup_erase_self SortedMap.lookup_erase_self
    · exact .same (SortedMap.lookup_erase_of_ne hj) (SortedMap.lookup_erase_of_ne hj)

/-- Alerts leave the edges alone. -/
theorem tracks_applyAlert (h : Tracked s) (outcome : AlertStore × Option AlertChange) :
    Tracks db s db (applyAlert clock s outcome) := by
  have hstorage := applyAlert_storage clock s outcome
  refine tracks_same h (applyAlert_edgeDecorations ..) ?_ ?_
  · rw [hstorage]
    split
    · exact h.storage
    · simpa using h.storage
  · rcases outcome with ⟨alerts, _ | change⟩
    · rw [settled, hstorage, settled]
    · have hsent : settled db (applyAlert clock s (alerts, some change)) =
          settled db (s.send (.recordAlert (.ofChange (clock s.ticks) change))) := by
        rw [settled, hstorage]
        rfl
      rw [hsent, settled_send rfl h.storage]
      rfl

/-- Whatever a change does to a decoration, it tells the storage. -/
theorem tracks_change (hchange : Change clock a s t)
    (haligned : Aligned s.nodes s.edgeDecorations.rows) (h : Tracked s) : Tracks db s db t := by
  cases hchange with
  | quiet hquiet => exact hquiet.tracks h
  | counted | enabled | dropped _ => exact tracks_same h rfl h.storage rfl
  | alert _ _ => exact tracks_applyAlert clock h _
  | stored hkey =>
    refine tracks_storeNode clock h (hkey fun key node hnode => ?_) _
    obtain ⟨_, _, hagrees⟩ := haligned.of_node hnode
    exact hagrees.nodeKey
  | severity hkey => exact tracks_putSeverity clock h hkey _
  | forgotten => exact tracks_forgetNode h _

theorem tracks_act (haligned : Aligned s.nodes s.edgeDecorations.rows) (h : Tracked s)
    (a : Action) : Tracks db s db (act clock display s a) := by
  refine (change_invariant clock display (s := s)
    (I := fun t => Aligned t.nodes t.edgeDecorations.rows ∧ Tracks db s db t) ?_
    ⟨haligned, tracks_same h rfl h.storage rfl⟩).2
  rintro t u hchange ⟨haligned, htracks⟩
  exact ⟨aligned_change clock hchange haligned,
    htracks.trans (tracks_change clock hchange haligned htracks.tracked)⟩

/-- A node that is removed has no decoration and no row. -/
theorem removeAgent_gone (h : Tracked s) {node : NodeSummary}
    (hnode : s.nodes.lookup key = some node) :
    (settled db (act clock display s (.removeAgent key))).edgeState.lookup key = none := by
  have hremoved : settled db (act clock display s (.removeAgent key)) =
      settled db (forgetNode s key) := by
    rw [act, removeAgent, hnode]
    rfl
  rw [hremoved, forgetNode, settled_send _ h.storage]
  · exact SortedMap.lookup_erase_self
  · rfl

end DashboardState

section RoundTrip

variable {n : ℕ}

theorem asI64_of_lt (h : n < 2 ^ 63) : asI64 n = n := by
  unfold asI64
  rw [Int.bmod_def]
  norm_num
  omega

theorem asI64_lt (n : ℕ) : asI64 n < 2 ^ 63 := by
  unfold asI64
  rw [Int.bmod_def]
  norm_num
  omega

theorem toNat_asI64 (h : n < 2 ^ 63) : (asI64 n).toNat = n := by
  rw [asI64_of_lt h, Int.toNat_natCast]

/-- A count that is not negative is stored as it was read. -/
theorem asI64_toNat (h : 0 ≤ asI64 n) : asI64 (asI64 n).toNat = asI64 n := by
  have hlt := asI64_lt n
  rw [asI64_of_lt (by omega)]
  omega

theorem severity_roundTrip (severity : Option AlertSeverity) :
    (severity.map severityName).bind severityFromName = severity := by
  rcases severity with _ | _ | _ <;> decide

/-- No count of the row is negative. -/
def EdgeRow.Counted (row : EdgeRow) : Prop :=
  0 ≤ row.metricPoints ∧ 0 ≤ row.spans ∧ 0 ≤ row.logRecords

/-- A row without negative counts is persisted again as it was read. -/
theorem row_roundTrip {d : EdgeSignalDecoration} (h : EdgeRow.Counted d.toPersisted.toRow)
    (now : Reading) :
    (EdgeSignalDecoration.fromPersisted now
      (EdgeRow.toState d.toPersisted.toRow)).toPersisted.toRow = d.toPersisted.toRow := by
  obtain ⟨hpoints, hspans, hrecords⟩ := h
  simp only [PersistedEdgeState.toRow, EdgeRow.toState, EdgeColumns.withSeverity,
    EdgeSignalDecoration.toPersisted, EdgeSignalDecoration.fromPersisted, severity_roundTrip]
    at hpoints hspans hrecords ⊢
  rw [asI64_toNat hpoints, asI64_toNat hspans, asI64_toNat hrecords]

/-- A decoration that was rebuilt: a count from 2 ^ 63 on does not come back. -/
structure SameEdge (d d' : EdgeSignalDecoration) : Prop where
  severity : d'.severity = d.severity
  lastSeen : d'.lastSeenUnixMs = d.lastSeenUnixMs
  metricPoints : d.metricPoints < 2 ^ 63 → d'.metricPoints = d.metricPoints
  spans : d.spans < 2 ^ 63 → d'.spans = d.spans
  logRecords : d.logRecords < 2 ^ 63 → d'.logRecords = d.logRecords

theorem fromRow_lastSeen (now : Reading) (row : EdgeRow) :
    (EdgeSignalDecoration.fromPersisted now (EdgeRow.toState row)).lastSeenUnixMs =
      row.lastSeenUnixMs := rfl

theorem toRow_lastSeen (d : EdgeSignalDecoration) :
    d.toPersisted.toRow.lastSeenUnixMs = d.lastSeenUnixMs := rfl

theorem sameEdge_restored (d : EdgeSignalDecoration) (now : Reading) :
    SameEdge d (.fromPersisted now (EdgeRow.toState d.toPersisted.toRow)) where
  severity := severity_roundTrip d.severity
  lastSeen := (fromRow_lastSeen now _).trans (toRow_lastSeen d)
  metricPoints := toNat_asI64
  spans := toNat_asI64
  logRecords := toNat_asI64

end RoundTrip

theorem restore_isSome {states : List PersistedEdgeState} {e : EdgeSignalDecorations}
    {now : ℕ → Reading} {key : Str}
    (h : (e.rows.lookup key).isSome ∨ ∃ state ∈ states, state.key = key) :
    ((e.restore now states).1.rows.lookup key).isSome := by
  induction states generalizing e now with
  | nil =>
    obtain h | ⟨_, hmem, _⟩ := h
    · exact h
    · cases hmem
  | cons state states ih =>
    refine ih ?_
    obtain h | ⟨found, hmem, rfl⟩ := h
    · exact .inl (SortedMap.isSome_lookup_insert h)
    · rcases mem_cons.mp hmem with rfl | hmem
      · exact .inl (Option.isSome_iff_exists.mpr ⟨_, SortedMap.lookup_insert_self⟩)
      · exact .inr ⟨found, hmem, rfl⟩

/-- The counts of a node that was rebuilt. -/
structure SameCounts (node node' : NodeSummary) : Prop where
  metricPoints : node.metricPoints < 2 ^ 63 → node'.metricPoints = node.metricPoints
  spans : node.spans < 2 ^ 63 → node'.spans = node.spans
  logRecords : node.logRecords < 2 ^ 63 → node'.logRecords = node.logRecords

/-- Every decoration and every node of `s` is in `t` again. -/
structure Rebuilt (s t : NativeState) : Prop where
  rows : ∀ key d, s.edgeDecorations.rows.lookup key = some d →
    ∃ d', t.edgeDecorations.rows.lookup key = some d' ∧ SameEdge d d'
  nodes : ∀ key node, s.nodes.lookup key = some node →
    ∃ node', t.nodes.lookup key = some node' ∧ SameCounts node node'

/-- Every decoration and every node of `t` was in `s`. -/
structure NoOthers (s t : NativeState) : Prop where
  rows : ∀ key, (t.edgeDecorations.rows.lookup key).isSome →
    (s.edgeDecorations.rows.lookup key).isSome
  nodes : ∀ key, (t.nodes.lookup key).isSome → (s.nodes.lookup key).isSome

namespace Desktop

open DashboardState

variable (clock : ℕ → Reading) (display : Display) {db : StateDb} {d d' : Desktop} {key : Str}
  {ticks : ℕ} {rows : List EdgeRow} {message : Str} {events : List DesktopEvent}

/-- What a start finds under a key is the row of that key. -/
theorem started_row (hwritten : RowsWritten db)
    (hstart : started clock db ticks (.ready rows message) = some d) {dec : EdgeSignalDecoration}
    (hdec : d.dashboard.edgeDecorations.rows.lookup key = some dec) :
    ∃ now row, db.edgeState.lookup key = some row ∧
      dec = .fromPersisted now (EdgeRow.toState row) := by
  have haligned := (kept_started clock hwritten hstart).dashboard.aligned
  obtain ⟨_, _, hagrees⟩ := haligned.of_row hdec
  obtain ⟨hordered, rfl⟩ := started_ready hstart
  obtain hold | ⟨state, hstate, now, rfl⟩ := restore_rows hdec
  · cases hold
  · obtain ⟨row, hrow, rfl⟩ := mem_map.mp hstate
    obtain ⟨k, hk⟩ := SortedMap.mem_values.mp (hordered.1.subset (mem_of_mem_take hrow))
    have hkey : row.key = key := hagrees.rowKey
    rw [(hwritten k row hk).key_eq] at hkey
    subst hkey
    exact ⟨now, row, hk, rfl⟩

/-- A start on few rows finds them all. -/
theorem started_finds (hwritten : RowsWritten db)
    (hstart : started clock db ticks (.ready rows message) = some d)
    (hfew : db.edgeState.values.length ≤ maxRestoredEdges) {row : EdgeRow}
    (hrow : db.edgeState.lookup key = some row) :
    (d.dashboard.edgeDecorations.rows.lookup key).isSome := by
  obtain ⟨hordered, rfl⟩ := started_ready hstart
  refine restore_isSome (.inr ⟨EdgeRow.toState row, ?_, (hwritten key row hrow).key_eq⟩)
  refine mem_map_of_mem ?_
  rw [take_of_length_le (by rwa [hordered.1.length_eq])]
  exact hordered.1.symm.subset (SortedMap.mem_values.mpr ⟨key, hrow⟩)

theorem started_tracked (hwritten : RowsWritten db)
    (hstart : started clock db ticks (.ready rows message) = some d) : Tracked d.dashboard := by
  have haligned := (kept_started clock hwritten hstart).dashboard.aligned
  obtain ⟨_, rfl⟩ := started_ready hstart
  refine ⟨rfl, fun key dec hdec => ?_⟩
  obtain ⟨_, _, hagrees⟩ := haligned.of_row hdec
  exact hagrees.rowKey

/-- Along a run decorations and rows move together. -/
theorem tracks_run (hkept : Kept d) (htracked : Tracked d.dashboard)
    (hsteady : ∀ e ∈ events, Steady e) (hrun : run clock display d events = some d') :
    Tracks d.db d.dashboard d'.db d'.dashboard := by
  induction events generalizing d with
  | nil =>
    cases hrun
    exact tracks_same htracked rfl htracked.storage rfl
  | cons event events ih =>
    obtain ⟨u, hu, hrest⟩ := Runs.run_cons.mp hrun
    obtain ⟨hfirst, hlater⟩ := forall_mem_cons.mp hsteady
    have htracks : Tracks d.db d.dashboard u.db u.dashboard := by
      cases event with
      | act action =>
        cases hu
        exact tracks_act clock display hkept.dashboard.aligned htracked action
      | handle outcome =>
        cases hfirst
        have hsettled := (settled_handle clock display hu).1
        obtain ⟨command, queue, _, rfl⟩ := step_handle hu
        exact tracks_same htracked rfl rfl (congrArg StateDb.edgeState hsettled)
      | restart start => exact hfirst.elim
    exact htracks.trans (ih (kept_step clock display hkept hu) htracks.tracked hlater hrest)

/-- At a start the rows are what the decorations would be persisted as. -/
theorem started_mirrors (hwritten : RowsWritten db)
    (hcounted : ∀ key row, db.edgeState.lookup key = some row → row.Counted)
    (hstart : started clock db ticks (.ready rows message) = some d) (key : Str) :
    ∀ dec, d.dashboard.edgeDecorations.rows.lookup key = some dec →
      (settled d.db d.dashboard).edgeState.lookup key = some dec.toPersisted.toRow := by
  intro dec hdec
  obtain ⟨now, row, hrow, rfl⟩ := started_row clock hwritten hstart hdec
  obtain ⟨_, rfl⟩ := started_ready hstart
  obtain ⟨old, rfl⟩ := (hwritten key row hrow).persisted
  rw [row_roundTrip (hcounted key _ hrow)]
  exact hrow

theorem started_rebuilt (hwritten : RowsWritten db)
    (hfew : db.edgeState.values.length ≤ maxRestoredEdges)
    (hstart : started clock db ticks (.ready rows message) = some d') {s : NativeState}
    (haligned : Aligned s.nodes s.edgeDecorations.rows)
    (hmirrors : ∀ key dec, s.edgeDecorations.rows.lookup key = some dec →
      db.edgeState.lookup key = some dec.toPersisted.toRow) : Rebuilt s d'.dashboard := by
  have hrows : ∀ key dec, s.edgeDecorations.rows.lookup key = some dec →
      ∃ dec', d'.dashboard.edgeDecorations.rows.lookup key = some dec' ∧ SameEdge dec dec' := by
    intro key dec hdec
    have hrow := hmirrors key dec hdec
    obtain ⟨dec', hdec'⟩ :=
      Option.isSome_iff_exists.mp (started_finds clock hwritten hstart hfew hrow)
    obtain ⟨now, row, hfound, rfl⟩ := started_row clock hwritten hstart hdec'
    rw [hrow] at hfound
    obtain rfl := Option.some.inj hfound
    exact ⟨_, hdec', sameEdge_restored dec now⟩
  refine ⟨hrows, fun key node hnode => ?_⟩
  obtain ⟨dec, hdec, hagrees⟩ := haligned.of_node hnode
  obtain ⟨dec', hdec', hsame⟩ := hrows key dec hdec
  have haligned' := (kept_started clock hwritten hstart).dashboard.aligned
  obtain ⟨node', hnode', hagrees'⟩ := haligned'.of_row hdec'
  refine ⟨node', hnode', ?_, ?_, ?_⟩
  · rw [← hagrees.metricPoints, ← hagrees'.metricPoints]
    exact hsame.metricPoints
  · rw [← hagrees.spans, ← hagrees'.spans]
    exact hsame.spans
  · rw [← hagrees.logRecords, ← hagrees'.logRecords]
    exact hsame.logRecords

theorem started_noOthers (hwritten : RowsWritten db)
    (hstart : started clock db ticks (.ready rows message) = some d') {s : NativeState}
    (haligned : Aligned s.nodes s.edgeDecorations.rows)
    (habsent : ∀ key, s.edgeDecorations.rows.lookup key = none → db.edgeState.lookup key = none) :
    NoOthers s d'.dashboard := by
  have hrows : ∀ key, (d'.dashboard.edgeDecorations.rows.lookup key).isSome →
      (s.edgeDecorations.rows.lookup key).isSome := by
    intro key hsome
    obtain ⟨dec, hdec⟩ := Option.isSome_iff_exists.mp hsome
    obtain ⟨_, row, hrow, _⟩ := started_row clock hwritten hstart hdec
    rw [Option.isSome_iff_ne_none]
    intro hnone
    rw [habsent key hnone] at hrow
    cases hrow
  refine ⟨hrows, fun key hsome => ?_⟩
  obtain ⟨node, hnode⟩ := Option.isSome_iff_exists.mp hsome
  have haligned' := (kept_started clock hwritten hstart).dashboard.aligned
  obtain ⟨dec', hdec', _⟩ := haligned'.of_node hnode
  obtain ⟨dec, hdec⟩ := Option.isSome_iff_exists.mp (hrows key (by rw [hdec']; rfl))
  obtain ⟨found, hfound, _⟩ := haligned.of_row hdec
  exact Option.isSome_iff_exists.mpr ⟨found, hfound⟩

theorem settled_written (h : d.dashboard.storage = some []) :
    settled d.db d.dashboard = d.db := by
  rw [settled, h]
  rfl

theorem removed_absent (hkept : Kept d) (htracked : Tracked d.dashboard)
    (hsteady : ∀ e ∈ events, Steady e)
    (hrun : run clock display d (.act (.removeAgent key) :: events) = some d')
    (hempty : d'.dashboard.storage = some []) {node : NodeSummary}
    (hnode : d.dashboard.nodes.lookup key = some node) :
    d'.dashboard.edgeDecorations.rows.lookup key = none → d'.db.edgeState.lookup key = none := by
  obtain ⟨u, hu, hrest⟩ := Runs.run_cons.mp hrun
  have hukept := kept_step clock display hkept hu
  cases hu
  have htracks : Tracks d.db d.dashboard d.db _ :=
    tracks_act clock display hkept.dashboard.aligned htracked (.removeAgent key)
  have hmoved := (tracks_run clock display hukept htracks.tracked hsteady hrest).moved key
  rw [settled_written hempty] at hmoved
  exact hmoved.absent fun _ => removeAgent_gone clock display htracked hnode

/-- On a database that an earlier run left, without negative counts in it: once everything is
written, the row of every decoration is what it is persisted as, a removed key has no row, and a
restart on few rows rebuilds all decorations and nodes, and no others if the first start found all
rows. -/
theorem edges_mirrored {d₀ d₁ : Desktop} (hprior : Reachable clock display d₀)
    (hcounted : ∀ key row, d₀.db.edgeState.lookup key = some row → row.Counted)
    (hstart : started clock d₀.db ticks (.ready rows message) = some d₁)
    (hsteady : ∀ e ∈ events, Steady e) (hrun : run clock display d₁ events = some d)
    (hempty : d.dashboard.storage = some []) :
    (∀ key dec, d.dashboard.edgeDecorations.rows.lookup key = some dec →
      d.db.edgeState.lookup key = some dec.toPersisted.toRow) ∧
    (∀ before key after u node, events = before ++ .act (.removeAgent key) :: after →
      run clock display d₁ before = some u → u.dashboard.nodes.lookup key = some node →
      d.dashboard.edgeDecorations.rows.lookup key = none → d.db.edgeState.lookup key = none) ∧
    ∀ rows' message' ticks' d', d.db.edgeState.values.length ≤ maxRestoredEdges →
      started clock d.db ticks' (.ready rows' message') = some d' →
      Rebuilt d.dashboard d'.dashboard ∧
        (d₀.db.edgeState.values.length ≤ maxRestoredEdges → NoOthers d.dashboard d'.dashboard) := by
  have hwritten := (kept_reachable clock display hprior).rows
  have hkept := kept_started clock hwritten hstart
  have htracked := started_tracked clock hwritten hstart
  have htracks := tracks_run clock display hkept htracked hsteady hrun
  have hlast : Kept d := Runs.run_invariant (fun s a t hs ht => kept_step clock display hs ht)
    hrun hkept
  have hmirrors : ∀ key dec, d.dashboard.edgeDecorations.rows.lookup key = some dec →
      d.db.edgeState.lookup key = some dec.toPersisted.toRow := by
    intro key
    have hmoved := htracks.moved key
    rw [settled_written hempty] at hmoved
    exact hmoved.mirrors (started_mirrors clock hwritten hcounted hstart key)
  refine ⟨hmirrors, ?_, ?_⟩
  · rintro before key after u node rfl hu hnode
    obtain ⟨hbefore, hremove⟩ := forall_mem_append.mp hsteady
    obtain ⟨v, hv, hrest⟩ := Runs.run_append.mp hrun
    obtain rfl := Option.some.inj (hu.symm.trans hv)
    refine removed_absent clock display ?_ ?_ (forall_mem_cons.mp hremove).2 hrest hempty hnode
    · exact Runs.run_invariant (fun s a t hs ht => kept_step clock display hs ht) hu hkept
    · exact (tracks_run clock display hkept htracked hbefore hu).tracked
  · intro rows' message' ticks' d' hfew hstart'
    refine ⟨started_rebuilt clock hlast.rows hfew hstart' hlast.dashboard.aligned hmirrors, ?_⟩
    intro hall
    refine started_noOthers clock hlast.rows hstart' hlast.dashboard.aligned fun key => ?_
    have hmoved := htracks.moved key
    rw [settled_written hempty] at hmoved
    refine hmoved.absent fun hnone => ?_
    have hfound : ∀ row, d₀.db.edgeState.lookup key = some row → False := by
      intro row hrow
      have hsome := started_finds clock hwritten hstart hall hrow
      rw [hnone] at hsome
      cases hsome
    obtain ⟨_, rfl⟩ := started_ready hstart
    exact Option.eq_none_iff_forall_ne_some.mpr hfound

theorem edges_mirrored_sample : ∃ d,
    run stoppedClock plainDisplay freshDesktop [.act (.signal ['a'] (.logs [])), .handle .written] =
      some d ∧ d.dashboard.storage = some [] ∧ d.dashboard.edgeDecorations.rows.entries.length = 1 ∧
    ∀ key dec, d.dashboard.edgeDecorations.rows.lookup key = some dec →
      d.db.edgeState.lookup key = some dec.toPersisted.toRow := by
  have hprior : Reachable stoppedClock plainDisplay freshDesktop :=
    ⟨freshDesktop, [], ⟨.ready [] [], rfl⟩, rfl⟩
  have hstart : started stoppedClock freshDesktop.db 0 (.ready [] []) = some freshDesktop := rfl
  have hends : (run stoppedClock plainDisplay freshDesktop
      [.act (.signal ['a'] (.logs [])), .handle .written]).any (fun d =>
        d.dashboard.storage = some [] ∧ d.dashboard.edgeDecorations.rows.entries.length = 1) := by
    decide +kernel
  obtain ⟨d, hrun, hd⟩ := (Option.any_eq_true _ _).mp hends
  obtain ⟨hempty, hone⟩ := of_decide_eq_true hd
  refine ⟨d, hrun, hempty, hone, ?_⟩
  refine (edges_mirrored stoppedClock plainDisplay hprior nofun hstart ?_ hrun hempty).1
  simp [Steady]

/-- The node of a listener that has only sent log records, at one moment. -/
def loggedNode (listener : Str) (count : ℕ) : NodeSummary :=
  (NodeSummary.fresh listener listener ItemKind.logs.name metricEmptyField ⟨0, 0, []⟩).observeItems
    .logs count ⟨0, 0, []⟩

def loggedRow (listener : Str) (count : ℕ) : EdgeSignalDecoration :=
  (EdgeSignalDecoration.fresh (edgeKey listener listener) (loggedNode listener count)
    ⟨0, 0, []⟩).observe (loggedNode listener count) ItemKind.logs.name ⟨0, 0, []⟩

/-- Log records of a listener that is not known yet. -/
theorem act_logs {s : NativeState} {listener : Str} (groups : List (ResourceGroup Wire))
    (hnode : s.nodes.lookup (edgeKey listener listener) = none)
    (hrow : s.edgeDecorations.rows.lookup (edgeKey listener listener) = none)
    (halerts : s.alerts = .empty) (hstorage : s.storage = some []) :
    ∃ t : NativeState, act stoppedClock plainDisplay s (.signal listener (.logs groups)) = t ∧
      t.alerts = .empty ∧
      t.storage = some [.upsertEdge (loggedRow listener (itemCount groups)).toPersisted] ∧
      t.nodes = s.nodes.insert (edgeKey listener listener)
        (loggedNode listener (itemCount groups)) ∧
      t.edgeDecorations.rows = s.edgeDecorations.rows.insert (edgeKey listener listener)
        (loggedRow listener (itemCount groups)) := by
  obtain ⟨t, hquiet, heq⟩ :=
    observeSignalMessage_eq stoppedClock plainDisplay (s := s) listener (.logs groups)
  have hshown : t.alerts = .empty := hquiet.alerts.trans halerts
  have hrecovered : observeRecovered stoppedClock t listener
      "receiver received a signal".toList = t := by
    rw [observeRecovered, hshown]
    change { t with alerts := AlertStore.empty } = t
    rw [← hshown]
  rw [hrecovered, ite_self] at heq
  rw [← hquiet.nodes] at hnode ⊢
  rw [← hquiet.edgeDecorations] at hrow ⊢
  rw [← hquiet.storage] at hstorage
  have hobserved : t.edgeDecorations.observeNode (loggedNode listener (itemCount groups))
      ItemKind.logs.name ⟨0, 0, []⟩ =
      (⟨t.edgeDecorations.rows.insert (edgeKey listener listener)
        (loggedRow listener (itemCount groups))⟩,
        (loggedRow listener (itemCount groups)).toPersisted) := by
    have hlookup : t.edgeDecorations.rows.lookup
      (edgeKey (loggedNode listener (itemCount groups)).endpoint
        (loggedNode listener (itemCount groups)).node) = none := hrow
    rw [EdgeSignalDecorations.observeNode, hlookup]
    rfl
  refine ⟨_, heq, hshown, ?_, ?_, ?_⟩
  · simp only [ingestSignal, observeSignalItems, hnode, Option.getD_none, pushEvent, storeNode, send,
      hstorage]
    exact congrArg (fun e => some [StorageCommand.upsertEdge e.2]) hobserved
  · simp only [ingestSignal, observeSignalItems, hnode]
    rfl
  · simp only [ingestSignal, observeSignalItems, hnode, Option.getD_none, pushEvent, storeNode, send]
    exact congrArg (fun e => e.1.rows) hobserved

theorem logs_run (listener : Str) (groups : List (ResourceGroup Wire))
    (hnode : d.dashboard.nodes.lookup (edgeKey listener listener) = none)
    (hrow : d.dashboard.edgeDecorations.rows.lookup (edgeKey listener listener) = none)
    (halerts : d.dashboard.alerts = .empty) (hstorage : d.dashboard.storage = some []) :
    ∃ d', run stoppedClock plainDisplay d
        [.act (.signal listener (.logs groups)), .handle .written] = some d' ∧
      d'.dashboard.alerts = .empty ∧ d'.dashboard.storage = some [] ∧
      d'.db = d.db.upsertEdgeState (loggedRow listener (itemCount groups)).toPersisted ∧
      d'.dashboard.nodes = d.dashboard.nodes.insert (edgeKey listener listener)
        (loggedNode listener (itemCount groups)) := by
  obtain ⟨t, ht, hshown, hsent, hnodes, _⟩ := act_logs groups hnode hrow halerts hstorage
  have hact : step stoppedClock plainDisplay d (.act (.signal listener (.logs groups))) =
      some ⟨d.db, t⟩ := by
    rw [step, ht]
  refine ⟨⟨d.db.upsertEdgeState (loggedRow listener (itemCount groups)).toPersisted,
    { t with storage := some [] }⟩, ?_, hshown, rfl, rfl, hnodes⟩
  refine Runs.run_cons.mpr ⟨_, hact, Runs.run_cons.mpr ⟨_, ?_, rfl⟩⟩
  simp only [step, hsent]
  rfl

/-- A desktop whose database has `n` rows, all of the same age. -/
structure Stocked (n : ℕ) (d : Desktop) : Prop where
  reachable : Reachable stoppedClock plainDisplay d
  alerts : d.dashboard.alerts = .empty
  storage : d.dashboard.storage = some []
  count : d.db.edgeState.values.length = n
  rows : ∀ key row, d.db.edgeState.lookup key = some row → row.lastSeenUnixMs = 0 ∧ row.Counted
  short : ∀ key, (d.db.edgeState.lookup key).isSome ∨ (d.dashboard.nodes.lookup key).isSome →
    key.length < 2 * n + 1

theorem loggedRow_counted (listener : Str) : (loggedRow listener 0).toPersisted.toRow.Counted := by
  have hzero : asI64 0 = 0 := asI64_of_lt (by norm_num)
  exact ⟨hzero.ge, hzero.ge, hzero.ge⟩

/-- One more listener sends log records. -/
theorem stocked_succ {n : ℕ} (h : Stocked n d) : ∃ d', Stocked (n + 1) d' := by
  set key := edgeKey (List.replicate n 'x') (List.replicate n 'x') with hkey
  have hlength : key.length = 2 * n + 1 := by
    simp [hkey, edgeKey]
    omega
  have hnew : ∀ {α : Type} (m : SortedMap Str α), ((m.lookup key).isSome → key.length < 2 * n + 1) →
      m.lookup key = none := by
    intro α m hm
    rw [← Option.not_isSome_iff_eq_none]
    intro hsome
    exact absurd (hm hsome) (by omega)
  have hnode := hnew _ fun hsome => h.short key (.inr hsome)
  have hstored := hnew _ fun hsome => h.short key (.inl hsome)
  have hrow := (kept_reachable stoppedClock plainDisplay h.reachable).dashboard.aligned.row_none hnode
  obtain ⟨d', hrun, halerts, hstorage, hdb, hnodes⟩ := logs_run _ [] hnode hrow h.alerts h.storage
  refine ⟨d', Runs.reachable_run h.reachable hrun, halerts, hstorage, ?_, ?_, ?_⟩
  · rw [hdb]
    exact (SortedMap.length_insert hstored _).trans (congrArg (· + 1) h.count)
  · intro j row hj
    rw [hdb] at hj
    obtain ⟨_, rfl⟩ | hold := SortedMap.lookup_insert_some hj
    · exact ⟨rfl, loggedRow_counted _⟩
    · exact h.rows j row hold
  · intro j hj
    rw [hdb, hnodes] at hj
    have hshort : j = key ∨ j.length < 2 * n + 1 := by
      by_cases hjk : j = key
      · exact .inl hjk
      · refine .inr (h.short j ?_)
        refine hj.imp (fun hsome => ?_) fun hsome => ?_
        · exact (congrArg Option.isSome (SortedMap.lookup_insert_of_ne hjk)).symm.trans hsome
        · exact (congrArg Option.isSome (SortedMap.lookup_insert_of_ne hjk)).symm.trans hsome
    rcases hshort with rfl | hshort <;> omega

theorem stocked (n : ℕ) : ∃ d, Stocked n d := by
  induction n with
  | zero =>
    refine ⟨freshDesktop, ⟨freshDesktop, [], ⟨.ready [] [], rfl⟩, rfl⟩, rfl, rfl, rfl, nofun, ?_⟩
    rintro key (hsome | hsome) <;> cases hsome
  | succ n ih =>
    obtain ⟨d, hd⟩ := ih
    exact stocked_succ hd

/-- Rows of the same age may come in any order. -/
theorem started_values (h : ∀ key row, db.edgeState.lookup key = some row → row.lastSeenUnixMs = 0) :
    ∃ d, started clock db ticks (.ready db.edgeState.values message) = some d := by
  have hordered : db.Ordered db.edgeState.values := by
    refine ⟨.rfl, pairwise_of_forall_mem_list fun a ha b hb => ?_⟩
    obtain ⟨j, hj⟩ := SortedMap.mem_values.mp ha
    obtain ⟨k, hk⟩ := SortedMap.mem_values.mp hb
    rw [h j a hj, h k b hk]
  exact ⟨_, if_pos hordered⟩

/-- A start leaves out what comes after the first rows. -/
theorem started_misses {entry : Str × EdgeRow} (hwritten : RowsWritten db)
    (hstart : started clock db ticks (.ready db.edgeState.values message) = some d)
    (hentry : entry ∈ db.edgeState.entries.drop maxRestoredEdges) :
    d.dashboard.edgeDecorations.rows.lookup entry.1 = none := by
  have hsorted := db.edgeState.sorted
  rw [← take_append_drop maxRestoredEdges db.edgeState.entries] at hsorted
  have hbefore := (pairwise_append.mp hsorted).2.2
  refine Option.eq_none_iff_forall_ne_some.mpr fun dec hdec => ?_
  have hkeyed := (started_tracked clock hwritten hstart).keyed _ dec hdec
  obtain ⟨_, rfl⟩ := started_ready hstart
  obtain hold | ⟨state, hstate, now, rfl⟩ := restore_rows hdec
  · cases hold
  · obtain ⟨row, hrow, rfl⟩ := mem_map.mp hstate
    rw [SortedMap.values, ← map_take] at hrow
    obtain ⟨loaded, hloaded, rfl⟩ := mem_map.mp hrow
    have hrowKey := (hwritten _ _ (SortedMap.mem_entries.mp (mem_of_mem_take hloaded))).key_eq
    have hsame : loaded.1 = entry.1 := hrowKey.symm.trans hkeyed
    exact absurd hsame (hbefore loaded hloaded entry hentry).ne

theorem started_loads {entry : Str × EdgeRow} (hwritten : RowsWritten db)
    (hstart : started clock db ticks (.ready db.edgeState.values message) = some d)
    (hentry : entry ∈ db.edgeState.entries.take maxRestoredEdges) :
    (d.dashboard.edgeDecorations.rows.lookup entry.1).isSome := by
  have hkey := (hwritten _ _ (SortedMap.mem_entries.mp (mem_of_mem_take hentry))).key_eq
  obtain ⟨_, rfl⟩ := started_ready hstart
  refine restore_isSome (.inr ⟨EdgeRow.toState entry.2, mem_map_of_mem ?_, hkey⟩)
  rw [SortedMap.values, ← map_take]
  exact mem_map_of_mem hentry

theorem remove_runs {node : NodeSummary} (hnode : d.dashboard.nodes.lookup key = some node)
    (hstorage : d.dashboard.storage = some []) :
    ∃ d', run clock display d [.act (.removeAgent key), .handle .written] = some d' ∧
      d'.dashboard.storage = some [] ∧ d'.db = d.db.deleteEdgeState key ∧
      d'.dashboard.edgeDecorations.rows = d.dashboard.edgeDecorations.rows.erase key := by
  obtain ⟨t, ht⟩ : ∃ t, removeAgent clock d.dashboard key = t := ⟨_, rfl⟩
  have hsent : t.1.storage = some [.deleteEdge key] := by
    rw [← ht, removeAgent, hnode]
    simp only [pushEvent, send, hstorage]
    rfl
  have hrows : t.1.edgeDecorations.rows = d.dashboard.edgeDecorations.rows.erase key := by
    rw [← ht, removeAgent, hnode]
    rfl
  refine ⟨⟨d.db.deleteEdgeState key, { t.1 with storage := some [] }⟩, ?_, rfl, rfl, hrows⟩
  have hact : step clock display d (.act (.removeAgent key)) = some ⟨d.db, t.1⟩ := by
    rw [step, act, ht]
  refine Runs.run_cons.mpr ⟨_, hact, Runs.run_cons.mpr ⟨_, ?_, rfl⟩⟩
  simp only [step, hsent]
  rfl

/-- A run on the database that `d₀` left, all of it written, and a restart on few rows. -/
structure Session (d₀ d d' : Desktop) : Prop where
  prior : Reachable stoppedClock plainDisplay d₀
  steady : ∃ d₁ rows events, started stoppedClock d₀.db 0 (.ready rows []) = some d₁ ∧
    (∀ e ∈ events, Steady e) ∧ run stoppedClock plainDisplay d₁ events = some d
  storage : d.dashboard.storage = some []
  few : d.db.edgeState.values.length ≤ maxRestoredEdges
  restart : ∃ rows, started stoppedClock d.db 0 (.ready rows []) = some d'

/-- After more rows than are restored, a removal makes room for one that was left out. -/
theorem restart_finds_more : ∃ d₀ d d', Session d₀ d d' ∧ ¬ NoOthers d.dashboard d'.dashboard := by
  obtain ⟨d₀, hstocked⟩ := stocked (maxRestoredEdges + 1)
  have hwritten := (kept_reachable stoppedClock plainDisplay hstocked.reachable).rows
  have hcount : d₀.db.edgeState.entries.length = maxRestoredEdges + 1 := by
    rw [← hstocked.count, SortedMap.values, length_map]
  obtain ⟨d₁, hstart⟩ : ∃ d₁, started stoppedClock d₀.db 0 (.ready d₀.db.edgeState.values []) =
      some d₁ := started_values stoppedClock fun key row hrow => (hstocked.rows key row hrow).1
  obtain ⟨left, hleft⟩ := exists_mem_of_length_pos
    (l := d₀.db.edgeState.entries.drop maxRestoredEdges) (by rw [length_drop]; omega)
  obtain ⟨first, hfirst⟩ := exists_mem_of_length_pos
    (l := d₀.db.edgeState.entries.take maxRestoredEdges) (by rw [length_take, hcount]; decide)
  have hmisses := started_misses stoppedClock hwritten hstart hleft
  have hloaded := started_loads stoppedClock hwritten hstart hfirst
  have haligned := (kept_started stoppedClock hwritten hstart).dashboard.aligned
  obtain ⟨dec, hdec⟩ := Option.isSome_iff_exists.mp hloaded
  obtain ⟨node, hnode, _⟩ := haligned.of_row hdec
  have hopened := started_ready hstart
  obtain ⟨d, hrun, hempty, hdb, hrows⟩ := remove_runs stoppedClock plainDisplay hnode
    (by rw [hopened.2]; rfl)
  replace hdb : d.db = d₀.db.deleteEdgeState first.1 := by rw [hdb, hopened.2]
  have hsame : ∀ key row, d.db.edgeState.lookup key = some row → row.lastSeenUnixMs = 0 := by
    intro key row hrow
    rw [hdb] at hrow
    exact (hstocked.rows key row (SortedMap.lookup_erase_some hrow).2).1
  obtain ⟨d', hstart'⟩ : ∃ d', started stoppedClock d.db 0 (.ready d.db.edgeState.values []) =
      some d' := started_values stoppedClock hsame
  have hkept : Kept d := Runs.run_invariant
    (fun s a t hs ht => kept_step stoppedClock plainDisplay hs ht) hrun
    (kept_started stoppedClock hwritten hstart)
  have hfew : d.db.edgeState.values.length ≤ maxRestoredEdges := by
    have hshorter := SortedMap.length_erase_lt
      (SortedMap.mem_entries.mp (mem_of_mem_take hfirst))
    rw [hstocked.count] at hshorter
    rw [hdb]
    exact Nat.lt_succ_iff.mp hshorter
  have hsteady : ∀ e ∈ [DesktopEvent.act (.removeAgent first.1), .handle .written], Steady e := by
    simp [Steady]
  refine ⟨d₀, d, d', ⟨hstocked.reachable, ⟨d₁, _, _, hstart, hsteady, hrun⟩, hempty, hfew,
    _, hstart'⟩, ?_⟩
  intro hothers
  have hne : left.1 ≠ first.1 := by
    intro heq
    rw [heq, hdec] at hmisses
    cases hmisses
  have hrow : d.db.edgeState.lookup left.1 = some left.2 := by
    rw [hdb]
    exact (SortedMap.lookup_erase_of_ne hne).trans
      (SortedMap.mem_entries.mp (mem_of_mem_drop hleft))
  have hfound := hothers.rows left.1 (started_finds stoppedClock hkept.rows hstart' hfew hrow)
  rw [hrows, SortedMap.lookup_erase_of_ne hne, hmisses] at hfound
  cases hfound

/-- One request with so many log records. -/
def manyLogs (n : ℕ) : List (ResourceGroup Wire) :=
  [⟨none, [⟨none, List.replicate n ⟨[]⟩, ⟨[]⟩⟩], ⟨[]⟩⟩]

theorem itemCount_manyLogs (n : ℕ) : itemCount (manyLogs n) = n := by
  simp [itemCount, manyLogs]

/-- A count from 2 ^ 63 on is negative in the table. -/
theorem asI64_wraps : asI64 (2 ^ 63) = -2 ^ 63 := by
  unfold asI64
  rw [Int.bmod_def]
  norm_num

/-- A count that is negative in the table comes back as zero. -/
theorem restart_loses_count {n : ℕ} (hn : asI64 n ≤ 0) : ∃ d₀ d d' key node node',
    Session d₀ d d' ∧ d.dashboard.nodes.lookup key = some node ∧
    d'.dashboard.nodes.lookup key = some node' ∧ node.logRecords = n ∧ node'.logRecords = 0 := by
  have hstart : started stoppedClock freshDesktop.db 0 (.ready [] []) = some freshDesktop := rfl
  have hprior : Reachable stoppedClock plainDisplay freshDesktop :=
    ⟨freshDesktop, [], ⟨.ready [] [], hstart⟩, rfl⟩
  obtain ⟨d, hrun, _, hempty, hdb, hnodes⟩ :=
    logs_run (d := freshDesktop) ['a'] (manyLogs n) rfl rfl rfl rfl
  rw [itemCount_manyLogs] at hdb hnodes
  have hrow : d.db.edgeState.lookup (edgeKey ['a'] ['a']) =
      some (loggedRow ['a'] n).toPersisted.toRow := by
    rw [hdb]
    exact SortedMap.lookup_insert_self
  have hfew : d.db.edgeState.values.length ≤ maxRestoredEdges := by
    have hone := SortedMap.length_insert (m := freshDesktop.db.edgeState)
      (k := edgeKey ['a'] ['a']) rfl (loggedRow ['a'] n).toPersisted.toRow
    rw [hdb]
    exact hone.trans_le (by decide)
  have hages : ∀ key row, d.db.edgeState.lookup key = some row → row.lastSeenUnixMs = 0 := by
    intro key row hfound
    rw [hdb] at hfound
    obtain ⟨_, rfl⟩ | hold := SortedMap.lookup_insert_some hfound
    · rfl
    · cases hold
  obtain ⟨d', hstart'⟩ : ∃ d', started stoppedClock d.db 0 (.ready d.db.edgeState.values []) =
      some d' := started_values stoppedClock hages
  have hwritten := (kept_reachable stoppedClock plainDisplay (Runs.reachable_run hprior hrun)).rows
  obtain ⟨dec, hdec⟩ := Option.isSome_iff_exists.mp
    (started_finds stoppedClock hwritten hstart' hfew hrow)
  obtain ⟨now, row, hfound, rfl⟩ := started_row stoppedClock hwritten hstart' hdec
  obtain rfl := Option.some.inj (hrow.symm.trans hfound)
  have haligned := (kept_started stoppedClock hwritten hstart').dashboard.aligned
  obtain ⟨node', hnode', hagrees⟩ := haligned.of_row hdec
  have hsteady : ∀ e ∈ [DesktopEvent.act (.signal ['a'] (.logs (manyLogs n))), .handle .written],
      Steady e := by
    simp [Steady]
  refine ⟨freshDesktop, d, d', edgeKey ['a'] ['a'], loggedNode ['a'] n, node',
    ⟨hprior, ⟨_, _, _, hstart, hsteady, hrun⟩, hempty, hfew, _, hstart'⟩, ?_, hnode', ?_, ?_⟩
  · rw [hnodes]
    exact SortedMap.lookup_insert_self
  · exact Nat.zero_add n
  · have hcount : asI64 (0 + n) ≤ 0 := by rwa [Nat.zero_add]
    rw [← hagrees.logRecords]
    exact Int.toNat_of_nonpos hcount

/-- A restart can find a decoration that was left out before, and lose a count. -/
theorem restart_differs :
    (∃ d₀ d d', Session d₀ d d' ∧ ¬ NoOthers d.dashboard d'.dashboard) ∧
    ∃ d₀ d d' key node node', Session d₀ d d' ∧ d.dashboard.nodes.lookup key = some node ∧
      d'.dashboard.nodes.lookup key = some node' ∧ node.logRecords = 2 ^ 63 ∧
      node'.logRecords = 0 := by
  refine ⟨restart_finds_more, restart_loses_count ?_⟩
  rw [asI64_wraps]
  norm_num

end Desktop

end SkidMonitor.Client
