import SkidMonitor.Client.Mirror
import SkidMonitor.Client.Presence

/-! Switching the alerts off and on: what it does to the nodes, to the decorations and to the rows
they are persisted as, and when it is the severities alone. -/
namespace SkidMonitor.Client

open SortedMap List

/-- All of a decoration but its severity. -/
def EdgeSignalDecoration.butSeverity (d : EdgeSignalDecoration) : EdgeSignalDecoration :=
  { d with severity := none }

/-- All columns of a row but the severity. -/
def EdgeColumns.butSeverity {ς : Type} (e : EdgeColumns ς) : EdgeColumns Unit := e.withSeverity ()

/-- What is listed in some order can be replaced, entry by entry, in that order. -/
theorem exists_perm_map_eq {α β : Type} {f : α → β} {xs ys zs : List α} (hperm : xs.Perm ys)
    (hmap : ys.map f = zs.map f) : ∃ ws : List α, ws.Perm zs ∧ xs.map f = ws.map f := by
  have hrel : List.Forall₂ (fun a b => f a = f b) ys zs := by
    rw [← forall₂_eq_eq_eq] at hmap
    exact forall₂_map_left_iff.mp (forall₂_map_right_iff.mp hmap)
  obtain ⟨ws, hws, hperm'⟩ := perm_comp_forall₂ hperm hrel
  refine ⟨ws, hperm', ?_⟩
  rw [← forall₂_eq_eq_eq]
  exact forall₂_map_left_iff.mpr (forall₂_map_right_iff.mpr hws)

namespace DashboardState

section Rows

variable {σ : Type} (clock : ℕ → Reading) {s t u : DashboardState σ}
  {entries : List (Str × EdgeSignalDecoration)} {key : Str} {d : EdgeSignalDecoration}

/-- The rows with a severity, in the order of their keys. -/
def severityRows (s : DashboardState σ) : List (Str × EdgeSignalDecoration) :=
  s.edgeDecorations.rows.entries.filter fun entry => entry.2.severity.isSome

/-- What becomes of rows that are cleared one after the other. -/
def stamped (ticks : ℕ) (entries : List (Str × EdgeSignalDecoration)) :
    List (Str × EdgeSignalDecoration) :=
  entries.mapIdx fun i entry => (entry.1, entry.2.setSeverity none (clock (ticks + i)))

/-- Each row that is cleared was last seen at the time that its clearing reads. -/
def Timely (s : DashboardState σ) : Prop :=
  ∀ (i : ℕ) (key : Str) (d : EdgeSignalDecoration), s.severityRows[i]? = some (key, d) →
    (clock (s.ticks + i)).unixMs = d.lastSeenUnixMs

/-- Nothing but severities differs between the rows. -/
def RowsKept (s t : DashboardState σ) : Prop :=
  ∀ key, (t.edgeDecorations.rows.lookup key).map EdgeSignalDecoration.butSeverity =
    (s.edgeDecorations.rows.lookup key).map EdgeSignalDecoration.butSeverity

theorem RowsKept.iff_of_kept (h : RowsKept s t) : RowsKept s u ↔ RowsKept t u :=
  forall_congr' fun key => by rw [h key]

/-- What is shown of the nodes is the same in both. -/
structure SameView (s t : DashboardState σ) : Prop where
  nodes : t.nodes = s.nodes
  counters : t.counters = s.counters
  metrics : t.metrics = s.metrics
  metricHistory : t.metricHistory = s.metricHistory

theorem SameView.trans (hst : SameView s t) (htu : SameView t u) : SameView s u :=
  ⟨htu.nodes.trans hst.nodes, htu.counters.trans hst.counters, htu.metrics.trans hst.metrics,
    htu.metricHistory.trans hst.metricHistory⟩

theorem stamped_cons (ticks : ℕ) (entry : Str × EdgeSignalDecoration) :
    stamped clock ticks (entry :: entries) =
      (entry.1, entry.2.setSeverity none (clock ticks)) :: stamped clock (ticks + 1) entries := by
  rw [stamped, mapIdx_cons, stamped]
  simp only [Nat.add_zero, Nat.add_assoc, Nat.add_comm 1]

theorem map_fst_stamped (ticks : ℕ) (entries : List (Str × EdgeSignalDecoration)) :
    (stamped clock ticks entries).map Prod.fst = entries.map Prod.fst := by
  induction entries generalizing ticks with
  | nil => rfl
  | cons entry entries ih => rw [stamped_cons, map_cons, map_cons, ih]

theorem mem_stamped (ticks : ℕ) : (key, d) ∈ stamped clock ticks entries ↔
    ∃ i, ∃ old : EdgeSignalDecoration, entries[i]? = some (key, old) ∧
      d = old.setSeverity none (clock (ticks + i)) := by
  rw [stamped, mem_mapIdx]
  constructor
  · rintro ⟨i, hi, heq⟩
    obtain ⟨rfl, rfl⟩ := Prod.mk.inj heq
    exact ⟨i, entries[i].2, getElem?_eq_getElem hi, rfl⟩
  · rintro ⟨i, old, hold, rfl⟩
    obtain ⟨hi, hentry⟩ := List.getElem?_eq_some_iff.mp hold
    exact ⟨i, hi, by rw [hentry]⟩

theorem lookup_severityRows (h : (key, d) ∈ s.severityRows) :
    s.edgeDecorations.rows.lookup key = some d :=
  mem_entries.mp (mem_filter.mp h).1

theorem nodup_stamped (s : DashboardState σ) :
    ((stamped clock s.ticks s.severityRows).map Prod.fst).Nodup := by
  rw [map_fst_stamped]
  exact (filter_sublist.map Prod.fst).nodup s.edgeDecorations.rows.keys_nodup

theorem butSeverity_setSeverity {now : Reading} :
    (d.setSeverity none now).butSeverity = d.butSeverity ↔ now.unixMs = d.lastSeenUnixMs := by
  constructor
  · intro h
    exact congrArg EdgeSignalDecoration.lastSeenUnixMs h
  · intro h
    rw [EdgeSignalDecoration.setSeverity, h]
    rfl

end Rows

section Clearing

variable {σ : Type} [StateStorage σ] (clock : ℕ → Reading) {s t u : DashboardState σ}
  {entries : List (Str × EdgeSignalDecoration)} {key : Str} {d : EdgeSignalDecoration}

/-- The state with these rows entered and sent to the storage. -/
def enter (s : DashboardState σ) (entries : List (Str × EdgeSignalDecoration)) : DashboardState σ :=
  { s with
    edgeDecorations := ⟨entries.foldl (fun rows entry => rows.insert entry.1 entry.2)
      s.edgeDecorations.rows⟩
    storage := s.storage.map fun storage => entries.foldl (fun storage entry =>
      StateStorage.send storage (.upsertEdge entry.2.toPersisted)) storage
    ticks := s.ticks + entries.length }

theorem lookup_enter_mem (hkeys : (entries.map Prod.fst).Nodup) (h : (key, d) ∈ entries) :
    (s.enter entries).edgeDecorations.rows.lookup key = some d :=
  lookup_foldl_mem hkeys h _

theorem lookup_enter_notMem (h : key ∉ entries.map Prod.fst) :
    (s.enter entries).edgeDecorations.rows.lookup key = s.edgeDecorations.rows.lookup key :=
  lookup_foldl_notMem h _

theorem clearSeverity_of_some (hd : s.edgeDecorations.rows.lookup key = some d) :
    clearSeverity clock s key =
      if d.severity.isSome then putSeverity clock s key d none else s := by
  unfold clearSeverity EdgeSignalDecorations.clearSeverity
  rw [hd]
  cases hseverity : d.severity <;> simp [hseverity, putSeverity]

/-- The rows with a severity are stamped with the readings of the clock, and the others stay. -/
theorem foldl_clearSeverity (hkeys : (entries.map Prod.fst).Nodup)
    (hrows : ∀ entry ∈ entries, s.edgeDecorations.rows.lookup entry.1 = some entry.2) :
    (entries.map Prod.fst).foldl (clearSeverity clock) s =
      s.enter (stamped clock s.ticks (entries.filter fun entry => entry.2.severity.isSome)) := by
  induction entries generalizing s with
  | nil => simp [enter, stamped]
  | cons entry entries ih =>
    obtain ⟨hnew, hrest⟩ := nodup_cons.mp hkeys
    obtain ⟨hentry, hothers⟩ := forall_mem_cons.mp hrows
    rw [map_cons, foldl_cons, clearSeverity_of_some clock hentry, filter_cons]
    split_ifs with hseverity
    · rw [ih hrest, stamped_cons]
      · simp only [enter, putSeverity, send, foldl_cons, length_cons, Option.map_map]
        congr 1
        omega
      · intro other hother
        have hne : other.1 ≠ entry.1 := fun h => hnew (h ▸ mem_map_of_mem hother)
        rw [← hothers other hother]
        exact lookup_insert_of_ne hne
    · exact ih hrest hothers

theorem setAlertsEnabled_false (h : s.alertsEnabled = true) :
    setAlertsEnabled clock s false = pushEvent clock
      ({ s with alertsEnabled := false, alerts := s.alerts.clear }.enter
        (stamped clock s.ticks s.severityRows)) "settings".toList "alerts disabled".toList := by
  have hclear := foldl_clearSeverity clock (s := { s with
    alertsEnabled := false, alerts := s.alerts.clear }) s.edgeDecorations.rows.keys_nodup
    fun entry hentry => mem_entries.mp hentry
  rw [setAlertsEnabled, h, if_neg (by decide)]
  exact congrArg (fun u => pushEvent clock u "settings".toList "alerts disabled".toList) hclear

/-- Any other switch leaves the rows and the storage alone. -/
theorem setAlertsEnabled_other {enabled : Bool} (h : ¬ (s.alertsEnabled = true ∧ enabled = false)) :
    (setAlertsEnabled clock s enabled).edgeDecorations = s.edgeDecorations ∧
      (setAlertsEnabled clock s enabled).storage = s.storage := by
  unfold setAlertsEnabled
  split_ifs with hsame henabled
  · exact ⟨rfl, rfl⟩
  · exact ⟨rfl, rfl⟩
  · cases hold : s.alertsEnabled <;> cases enabled <;> simp_all

theorem rowsKept_stamped_iff :
    RowsKept s (s.enter (stamped clock s.ticks s.severityRows)) ↔ Timely clock s := by
  constructor
  · intro h i key d hd
    have hmem : (key, d.setSeverity none (clock (s.ticks + i))) ∈ stamped clock s.ticks _ :=
      (mem_stamped clock _).mpr ⟨i, d, hd, rfl⟩
    have hkey := h key
    rw [lookup_enter_mem (nodup_stamped clock s) hmem,
      lookup_severityRows (mem_of_getElem? hd)] at hkey
    exact butSeverity_setSeverity.mp (Option.some.inj hkey)
  · intro h key
    by_cases hkey : key ∈ (stamped clock s.ticks s.severityRows).map Prod.fst
    · obtain ⟨⟨_, d'⟩, hmem, rfl⟩ := mem_map.mp hkey
      obtain ⟨i, d, hd, rfl⟩ := (mem_stamped clock _).mp hmem
      rw [lookup_enter_mem (nodup_stamped clock s) hmem,
        lookup_severityRows (mem_of_getElem? hd)]
      exact congrArg some (butSeverity_setSeverity.mpr (h i _ d hd))
    · rw [lookup_enter_notMem hkey]

/-- The alerts are on and are switched off. -/
def Disables (s : DashboardState σ) (enabled : Bool) : Prop :=
  s.alertsEnabled = true ∧ enabled = false

theorem rowsKept_toggle_iff (s : DashboardState σ) (enabled : Bool) :
    RowsKept s (setAlertsEnabled clock s enabled) ↔ (Disables s enabled → Timely clock s) := by
  by_cases h : Disables s enabled
  · obtain ⟨hon, rfl⟩ := h
    rw [setAlertsEnabled_false clock hon]
    exact (rowsKept_stamped_iff clock).trans ⟨fun h _ => h, fun h => h ⟨hon, rfl⟩⟩
  · refine iff_of_true (fun key => ?_) fun hd => absurd hd h
    rw [(setAlertsEnabled_other clock h).1]

theorem sameView_toggle (s : DashboardState σ) (enabled : Bool) :
    SameView s (setAlertsEnabled clock s enabled) := by
  by_cases h : Disables s enabled
  · obtain ⟨hon, rfl⟩ := h
    rw [setAlertsEnabled_false clock hon]
    exact ⟨rfl, rfl, rfl, rfl⟩
  · unfold setAlertsEnabled
    split_ifs with hsame henabled
    · exact ⟨rfl, rfl, rfl, rfl⟩
    · exact ⟨rfl, rfl, rfl, rfl⟩
    · cases hold : s.alertsEnabled <;> cases enabled <;> simp_all [Disables]

/-- All that was sent to the storage are rows that differ from the decorations in their severity
alone. -/
def Resent (s t : DashboardState σ) : Prop :=
  ∃ rows : List PersistedEdgeState,
    t.storage = s.storage.map (fun storage =>
      rows.foldl (fun storage row => StateStorage.send storage (.upsertEdge row)) storage) ∧
    ∀ row ∈ rows, ∃ key d, s.edgeDecorations.rows.lookup key = some d ∧
      row.butSeverity = d.toPersisted.butSeverity

theorem resent_of_eq (h : t.storage = s.storage) : Resent s t :=
  ⟨[], by simp [h], nofun⟩

theorem Resent.trans (hst : Resent s t) (hkept : RowsKept s t) (htu : Resent t u) :
    Resent s u := by
  obtain ⟨rows, hstorage, hrows⟩ := hst
  obtain ⟨rows', hstorage', hrows'⟩ := htu
  refine ⟨rows ++ rows', ?_, ?_⟩
  · rw [hstorage', hstorage, Option.map_map]
    simp only [foldl_append]
    rfl
  · intro row hrow
    rcases mem_append.mp hrow with hrow | hrow
    · exact hrows row hrow
    · obtain ⟨key, d', hd', hrow⟩ := hrows' row hrow
      have hkey := hkept key
      rw [hd'] at hkey
      obtain ⟨d, hd, hsame⟩ := Option.map_eq_some_iff.mp hkey.symm
      have hpersisted : d.butSeverity.toPersisted.butSeverity = d'.toPersisted.butSeverity := by
        rw [hsame]
        rfl
      exact ⟨key, d, hd, hrow.trans hpersisted.symm⟩

theorem resent_stamped (h : Timely clock s) :
    Resent s (s.enter (stamped clock s.ticks s.severityRows)) := by
  refine ⟨(stamped clock s.ticks s.severityRows).map fun entry => entry.2.toPersisted, ?_, ?_⟩
  · simp only [foldl_map]
    rfl
  · intro row hrow
    obtain ⟨⟨key, d'⟩, hmem, rfl⟩ := mem_map.mp hrow
    obtain ⟨i, d, hd, rfl⟩ := (mem_stamped clock _).mp hmem
    refine ⟨key, d, lookup_severityRows (mem_of_getElem? hd), ?_⟩
    rw [EdgeSignalDecoration.setSeverity, h i key d hd]
    rfl

theorem resent_toggle (enabled : Bool) (h : Disables s enabled → Timely clock s) :
    Resent s (setAlertsEnabled clock s enabled) := by
  by_cases hdisables : Disables s enabled
  · have hsent := resent_stamped clock (h hdisables)
    obtain ⟨hon, rfl⟩ := hdisables
    rw [setAlertsEnabled_false clock hon]
    exact hsent
  · exact resent_of_eq (setAlertsEnabled_other clock hdisables).2

end Clearing

section Table

variable (clock : ℕ → Reading) {db : StateDb} {s t u : NativeState}
  {entries : List (Str × EdgeSignalDecoration)}

/-- Nothing but severities differs between the rows of the table, once all is written. -/
def TableKept (db : StateDb) (s t : NativeState) : Prop :=
  ∀ key, ((settled db t).edgeState.lookup key).map EdgeColumns.butSeverity =
    ((settled db s).edgeState.lookup key).map EdgeColumns.butSeverity

/-- What a restart can show, the severities apart. -/
def restarts (db : StateDb) (s : NativeState) : Set (List (EdgeColumns Unit)) :=
  {shown | ∃ rows, (settled db s).Ordered rows ∧
    (StateDb.loadEdgeStates rows).map EdgeColumns.butSeverity = shown}

/-- The rows that are cleared are in the table as their decorations are. -/
def Stored (db : StateDb) (s : NativeState) : Prop :=
  s.storage.isSome → ∀ key d, (key, d) ∈ s.severityRows →
    ((settled db s).edgeState.lookup key).map EdgeColumns.butSeverity =
      some d.toPersisted.toRow.butSeverity

theorem TableKept.iff_of_kept (h : TableKept db s t) : TableKept db s u ↔ TableKept db t u :=
  forall_congr' fun key => by rw [h key]

theorem foldl_upserts (hkeyed : ∀ entry ∈ entries, entry.2.key = entry.1) (db : StateDb) :
    (entries.foldl (fun db entry => db.upsertEdgeState entry.2.toPersisted) db).edgeState =
      (entries.map fun entry => (entry.1, entry.2.toPersisted.toRow)).foldl
        (fun table entry => table.insert entry.1 entry.2) db.edgeState := by
  induction entries generalizing db with
  | nil => rfl
  | cons entry entries ih =>
    obtain ⟨hentry, hrest⟩ := forall_mem_cons.mp hkeyed
    rw [foldl_cons, ih hrest, map_cons, foldl_cons, ← hentry]
    rfl

theorem foldl_send (entries : List (Str × EdgeSignalDecoration)) (queue : List StorageCommand) :
    entries.foldl (fun queue entry => StateStorage.send queue
      (.upsertEdge entry.2.toPersisted)) queue =
      queue ++ entries.map fun entry => .upsertEdge entry.2.toPersisted := by
  induction entries generalizing queue with
  | nil => rw [foldl_nil, map_nil, append_nil]
  | cons entry entries ih =>
    rw [foldl_cons, ih, map_cons]
    exact append_assoc _ _ _

theorem settled_enter (hkeyed : ∀ entry ∈ entries, entry.2.key = entry.1)
    (hstorage : s.storage.isSome) :
    (settled db (s.enter entries)).edgeState =
      (entries.map fun entry => (entry.1, entry.2.toPersisted.toRow)).foldl
        (fun table entry => table.insert entry.1 entry.2) (settled db s).edgeState := by
  obtain ⟨queue, hqueue⟩ := Option.isSome_iff_exists.mp hstorage
  rw [← foldl_upserts hkeyed]
  simp only [settled, enter, hqueue, Option.map_some, Option.getD_some, foldl_send,
    foldl_append, foldl_map]
  rfl

theorem map_fst_rows : (entries.map fun entry => (entry.1, entry.2.toPersisted.toRow)).map Prod.fst =
    entries.map Prod.fst :=
  map_map

theorem stamped_keyed (h : s.edgeDecorations.Keyed) :
    ∀ entry ∈ stamped clock s.ticks s.severityRows, entry.2.key = entry.1 := by
  rintro ⟨key, d'⟩ hmem
  obtain ⟨i, d, hd, rfl⟩ := (mem_stamped clock _).mp hmem
  exact h key d (lookup_severityRows (mem_of_getElem? hd))

/-- If the times stay, clearing changes the table in its severities alone just if the rows are
stored. -/
theorem tableKept_stamped_iff (hkeyed : s.edgeDecorations.Keyed) (htimely : Timely clock s) :
    TableKept db s (s.enter (stamped clock s.ticks s.severityRows)) ↔ Stored db s := by
  by_cases hstorage : s.storage.isSome
  · have htable := fun key => congrArg (SortedMap.lookup · key)
      (settled_enter (stamped_keyed clock hkeyed) hstorage : (settled db _).edgeState = _)
    have hrow : ∀ key d, (key, d) ∈ s.severityRows →
        ((settled db (s.enter (stamped clock s.ticks s.severityRows))).edgeState.lookup key).map
          EdgeColumns.butSeverity = some d.toPersisted.toRow.butSeverity := by
      intro key d hd
      obtain ⟨i, hi⟩ := mem_iff_getElem?.mp hd
      have hmem := mem_map_of_mem
        (f := fun entry : Str × EdgeSignalDecoration => (entry.1, entry.2.toPersisted.toRow))
        ((mem_stamped clock s.ticks).mpr ⟨i, d, hi, rfl⟩)
      rw [htable, lookup_foldl_mem (map_fst_rows ▸ nodup_stamped clock s) hmem,
        EdgeSignalDecoration.setSeverity, htimely i key d hi]
      rfl
    constructor
    · intro h _ key d hd
      rw [← h key, hrow key d hd]
    · intro h key
      by_cases hkey : key ∈ s.severityRows.map Prod.fst
      · obtain ⟨⟨_, d⟩, hd, rfl⟩ := mem_map.mp hkey
        rw [hrow _ d hd, h hstorage _ d hd]
      · rw [htable, lookup_foldl_notMem]
        rwa [map_fst_rows, map_fst_stamped]
  · have hsame : settled db (s.enter (stamped clock s.ticks s.severityRows)) = settled db s := by
      rw [settled, enter, Option.not_isSome_iff_eq_none.mp hstorage, settled,
        Option.not_isSome_iff_eq_none.mp hstorage]
      rfl
    exact iff_of_true (fun key => by rw [hsame]) fun h => absurd h hstorage

theorem map_butSeverity_load (rows : List EdgeRow) :
    (StateDb.loadEdgeStates rows).map EdgeColumns.butSeverity =
      (rows.map EdgeColumns.butSeverity).take maxRestoredEdges := by
  rw [StateDb.loadEdgeStates, map_map, map_take]
  rfl

theorem newest_butSeverity {rows : List EdgeRow} :
    (rows.Pairwise fun a b => b.lastSeenUnixMs ≤ a.lastSeenUnixMs) ↔
      (rows.map EdgeColumns.butSeverity).Pairwise fun a b =>
        b.lastSeenUnixMs ≤ a.lastSeenUnixMs := by
  rw [pairwise_map]
  rfl

/-- A table that differs in its severities alone can be read in the same order. -/
theorem restarts_subset (h : TableKept db s t) : restarts db s ⊆ restarts db t := by
  have hvalues : (settled db s).edgeState.values.map EdgeColumns.butSeverity =
      (settled db t).edgeState.values.map EdgeColumns.butSeverity := by
    rw [← values_map, ← values_map]
    refine congrArg values (ext_lookup fun key => ?_)
    rw [lookup_map, lookup_map, h key]
  rintro _ ⟨rows, ⟨hperm, hsorted⟩, rfl⟩
  obtain ⟨rows', hperm', hsame⟩ := exists_perm_map_eq hperm hvalues
  refine ⟨rows', ⟨hperm', ?_⟩, ?_⟩
  · rw [newest_butSeverity, ← hsame, ← newest_butSeverity]
    exact hsorted
  · rw [map_butSeverity_load, map_butSeverity_load, hsame]

theorem TableKept.restarts_eq (h : TableKept db s t) : restarts db t = restarts db s :=
  (restarts_subset fun key => (h key).symm).antisymm (restarts_subset h)

/-- One call of `set_alerts_enabled`. -/
def toggle {σ : Type} [StateStorage σ] (s : DashboardState σ) (enabled : Bool) :
    Option (DashboardState σ) :=
  some (setAlertsEnabled clock s enabled)

/-- Only the severities have changed since `s`. -/
structure Unchanged {σ : Type} [StateStorage σ] (s t : DashboardState σ) : Prop where
  view : SameView s t
  rows : RowsKept s t
  sent : Resent s t

/-- Only the severities have changed since `s`, in the table and after a restart as well. -/
structure UnchangedTable (db : StateDb) (s t : NativeState) : Prop extends Unchanged s t where
  table : TableKept db s t
  shown : restarts db t = restarts db s

theorem unchanged_toggle_iff {σ : Type} [StateStorage σ] {s u : DashboardState σ}
    (h : Unchanged s u) (enabled : Bool) :
    Unchanged s (setAlertsEnabled clock u enabled) ↔ (Disables u enabled → Timely clock u) := by
  rw [← rowsKept_toggle_iff, ← h.rows.iff_of_kept]
  refine ⟨fun h' => h'.rows, fun hrows => ⟨?_, hrows, ?_⟩⟩
  · exact h.view.trans (sameView_toggle clock u enabled)
  · rw [h.rows.iff_of_kept, rowsKept_toggle_iff] at hrows
    exact h.sent.trans h.rows (resent_toggle clock enabled hrows)

theorem tableKept_toggle_iff (hkeyed : s.edgeDecorations.Keyed) (enabled : Bool)
    (htimely : Disables s enabled → Timely clock s) :
    TableKept db s (setAlertsEnabled clock s enabled) ↔ (Disables s enabled → Stored db s) := by
  by_cases h : Disables s enabled
  · have hiff : _ ↔ Stored db s := tableKept_stamped_iff clock hkeyed (htimely h)
    rw [← hiff]
    obtain ⟨hon, rfl⟩ := h
    rw [setAlertsEnabled_false clock hon]
    exact ⟨fun h _ => h, fun h => h ⟨hon, rfl⟩⟩
  · refine iff_of_true (fun key => ?_) fun hd => absurd hd h
    rw [settled, (setAlertsEnabled_other clock h).2, settled]

theorem RowsKept.keyed (h : RowsKept s t) (hkeyed : s.edgeDecorations.Keyed) :
    t.edgeDecorations.Keyed := by
  intro key d' hd'
  have hkey := h key
  rw [hd'] at hkey
  obtain ⟨d, hd, hsame⟩ := Option.map_eq_some_iff.mp hkey.symm
  rw [← hkeyed key d hd]
  exact (congrArg EdgeSignalDecoration.key hsame).symm

theorem unchangedTable_toggle_iff (hkeyed : s.edgeDecorations.Keyed) (h : UnchangedTable db s u)
    (enabled : Bool) : UnchangedTable db s (setAlertsEnabled clock u enabled) ↔
      (Disables u enabled → Timely clock u ∧ Stored db u) := by
  have hmemory := unchanged_toggle_iff clock h.toUnchanged enabled
  have htable : _ → (TableKept db u _ ↔ _) :=
    tableKept_toggle_iff clock (h.rows.keyed hkeyed) enabled
  constructor
  · intro h' hdisables
    have htimely := hmemory.mp h'.toUnchanged
    exact ⟨htimely hdisables,
      (htable htimely).mp (h.table.iff_of_kept.mp h'.table) hdisables⟩
  · intro hmeets
    have htimely := fun hdisables => (hmeets hdisables).1
    have hkept := h.table.iff_of_kept.mpr
      ((htable htimely).mpr fun hdisables => (hmeets hdisables).2)
    exact ⟨hmemory.mpr htimely, hkept, hkept.restarts_eq⟩

theorem run_toggle {σ : Type} [StateStorage σ] (s : DashboardState σ) (toggles : List Bool) :
    ∃ t, Runs.run (toggle clock) s toggles = some t := by
  induction toggles generalizing s with
  | nil => exact ⟨s, rfl⟩
  | cons enabled toggles ih => exact ih (setAlertsEnabled clock s enabled)

end Table

end DashboardState

open DashboardState

/-- Switching the alerts never changes what is shown of the nodes. The rest of the decorations, and
of the rows they are persisted as, stays as well just if, whenever the alerts are switched off, each
decoration with a severity was last seen in the millisecond in which it is cleared and is in the
table as it is. -/
theorem toggling_keeps_rows_iff (clock : ℕ → Reading) (display : Display) :
    (∀ (σ : Type) [StateStorage σ] (s : DashboardState σ) (toggles : List Bool),
      Runs.Along (toggle clock) (SameView s) s toggles ∧
      (Runs.Along (toggle clock) (Unchanged s) s toggles ↔
        Runs.Meets (toggle clock) (fun u enabled => Disables u enabled → Timely clock u)
          s toggles)) ∧
    ∀ d, Desktop.Reachable clock display d → ∀ toggles : List Bool,
      (Runs.Along (toggle clock) (UnchangedTable d.db d.dashboard) d.dashboard toggles ↔
        Runs.Meets (toggle clock) (fun u enabled => Disables u enabled →
          Timely clock u ∧ Stored d.db u) d.dashboard toggles) := by
  constructor
  · intro σ _ s toggles
    obtain ⟨t, ht⟩ := run_toggle clock s toggles
    constructor
    · rintro pre post u rfl hu
      refine Runs.run_invariant ?_ hu ⟨rfl, rfl, rfl, rfl⟩
      rintro v enabled w hv ⟨⟩
      exact hv.trans (sameView_toggle clock v enabled)
    · refine Runs.along_iff_meets ?_ ⟨⟨rfl, rfl, rfl, rfl⟩, fun _ => rfl, resent_of_eq rfl⟩ ht
      rintro u enabled _ h ⟨⟩
      exact unchanged_toggle_iff clock h enabled
  · intro d hd toggles
    obtain ⟨t, ht⟩ := run_toggle clock d.dashboard toggles
    have hkeyed : d.dashboard.edgeDecorations.Keyed := by
      intro key row hrow
      obtain ⟨node, _, hagrees⟩ :=
        (Desktop.kept_reachable clock display hd).dashboard.aligned.of_row hrow
      exact hagrees.rowKey
    refine Runs.along_iff_meets ?_
      ⟨⟨⟨rfl, rfl, rfl, rfl⟩, fun _ => rfl, resent_of_eq rfl⟩, fun _ => rfl, rfl⟩ ht
    rintro u enabled _ h ⟨⟩
    exact unchangedTable_toggle_iff clock hkeyed h enabled

/-- The program once it has heard of a node whose processor is hot. -/
def hotDesktop (clock : ℕ → Reading) : Desktop :=
  ((Desktop.started clock .empty 0 (.ready [] [])).bind
    (Desktop.run clock plainDisplay · [hotEvent])).getD freshDesktop

theorem hotDesktop_reachable (clock : ℕ → Reading) :
    Desktop.Reachable clock plainDisplay (hotDesktop clock) :=
  ⟨_, [hotEvent], ⟨.ready [] [], rfl⟩, rfl⟩

/-- On a stopped clock the alert of a node is cleared in the millisecond in which it came. -/
theorem toggling_keeps_rows_sample :
    (hotDesktop stoppedClock).dashboard.severityRows.length = 1 ∧
    Runs.Along (toggle stoppedClock)
      (UnchangedTable (hotDesktop stoppedClock).db (hotDesktop stoppedClock).dashboard)
      (hotDesktop stoppedClock).dashboard [false, true] := by
  refine ⟨by decide +kernel, ?_⟩
  rw [(toggling_keeps_rows_iff stoppedClock plainDisplay).2 _ (hotDesktop_reachable stoppedClock)]
  have htimely : ∀ entry ∈ (hotDesktop stoppedClock).dashboard.severityRows,
      entry.2.lastSeenUnixMs = 0 := by decide +kernel
  have hstored : ∀ entry ∈ (hotDesktop stoppedClock).dashboard.severityRows,
      ((settled (hotDesktop stoppedClock).db
        (hotDesktop stoppedClock).dashboard).edgeState.lookup entry.1).map
          EdgeColumns.butSeverity = some entry.2.toPersisted.toRow.butSeverity := by
    decide +kernel
  refine (Runs.meets_cons rfl).mpr ⟨fun _ => ⟨?_, ?_⟩, (Runs.meets_cons rfl).mpr ⟨?_, Runs.meets_nil⟩⟩
  · intro i key d hd
    exact (htimely (key, d) (mem_of_getElem? hd)).symm
  · exact fun _ key d hd => hstored (key, d) hd
  · exact fun hdisables => absurd hdisables.2 (by decide)

/-- A clock that runs on. -/
def runningClock : ℕ → Reading := fun n => ⟨n, n, []⟩

/-- When the nodes were last seen, by the decorations, by the table, and after a restart. -/
def lastSeenTimes (d : Desktop) : List ℤ × List ℤ × Option (List ℤ) :=
  let db := settled d.db d.dashboard
  (d.dashboard.edgeDecorations.rows.values.map (·.lastSeenUnixMs),
    db.edgeState.values.map (·.lastSeenUnixMs),
    (Desktop.started runningClock db d.dashboard.ticks (.ready db.edgeState.values [])).map
      (·.dashboard.edgeDecorations.rows.values.map (·.lastSeenUnixMs)))

/-- Switching the alerts off makes a hot node one that was seen right then. -/
theorem toggling_moves_lastSeen :
    Desktop.Reachable runningClock plainDisplay (hotDesktop runningClock) ∧
    lastSeenTimes (hotDesktop runningClock) = ([5], [5], some [5]) ∧
    (Desktop.run runningClock plainDisplay (hotDesktop runningClock)
      [.act (.setAlertsEnabled false)]).map lastSeenTimes = some ([7], [7], some [7]) :=
  ⟨hotDesktop_reachable runningClock, by decide +kernel, by decide +kernel⟩

end SkidMonitor.Client
