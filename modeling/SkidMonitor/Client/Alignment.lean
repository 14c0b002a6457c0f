import SkidMonitor.Client.Desktop
import SkidMonitor.Client.LocalStorage

/-! Nodes and decorations are kept apart and always tell the same: the same keys, made of the same
names, with the same counts. -/
namespace SkidMonitor.Client

open List

/-- A node and a decoration that stand for each other under a key. -/
structure Agrees (key : Str) (node : NodeSummary) (d : EdgeSignalDecoration) : Prop where
  nodeKey : key = edgeKey node.endpoint node.node
  decorationKey : key = edgeKey d.endpoint d.node
  rowKey : d.key = key
  metricPoints : d.metricPoints = node.metricPoints
  spans : d.spans = node.spans
  logRecords : d.logRecords = node.logRecords

def Aligned (nodes : SortedMap Str NodeSummary) (rows : SortedMap Str EdgeSignalDecoration) : Prop :=
  ∀ key, Option.Rel (Agrees key) (nodes.lookup key) (rows.lookup key)

section Aligned

variable {nodes : SortedMap Str NodeSummary} {rows : SortedMap Str EdgeSignalDecoration} {key : Str}
  {node : NodeSummary} {d d' : EdgeSignalDecoration}

theorem aligned_empty : Aligned .empty .empty := fun _ => .none

theorem aligned_insert (h : Aligned nodes rows) (hagrees : Agrees key node d) :
    Aligned (nodes.insert key node) (rows.insert key d) := by
  intro j
  by_cases hj : j = key
  · subst hj
    rw [SortedMap.lookup_insert_self, SortedMap.lookup_insert_self]
    exact .some hagrees
  · rw [SortedMap.lookup_insert_of_ne hj, SortedMap.lookup_insert_of_ne hj]
    exact h j

theorem aligned_erase (h : Aligned nodes rows) (key : Str) :
    Aligned (nodes.erase key) (rows.erase key) := by
  intro j
  by_cases hj : j = key
  · subst hj
    rw [SortedMap.lookup_erase_self, SortedMap.lookup_erase_self]
    exact .none
  · rw [SortedMap.lookup_erase_of_ne hj, SortedMap.lookup_erase_of_ne hj]
    exact h j

theorem Aligned.of_node (h : Aligned nodes rows) (hkey : nodes.lookup key = some node) :
    ∃ d, rows.lookup key = some d ∧ Agrees key node d := by
  have hrel := h key
  rw [hkey] at hrel
  cases hd : rows.lookup key with
  | none =>
    rw [hd] at hrel
    cases hrel
  | some d =>
    rw [hd] at hrel
    cases hrel with
    | some hagrees => exact ⟨d, rfl, hagrees⟩

theorem Aligned.of_row (h : Aligned nodes rows) (hkey : rows.lookup key = some d) :
    ∃ node, nodes.lookup key = some node ∧ Agrees key node d := by
  have hrel := h key
  rw [hkey] at hrel
  cases hnode : nodes.lookup key with
  | none =>
    rw [hnode] at hrel
    cases hrel
  | some node =>
    rw [hnode] at hrel
    cases hrel with
    | some hagrees => exact ⟨node, rfl, hagrees⟩

theorem Aligned.row_none (h : Aligned nodes rows) (hkey : nodes.lookup key = none) :
    rows.lookup key = none := by
  cases hd : rows.lookup key with
  | none => rfl
  | some d =>
    obtain ⟨node, hnode, _⟩ := h.of_row hd
    rw [hkey] at hnode
    cases hnode

/-- A new severity changes nothing that is compared. -/
theorem aligned_setSeverity (h : Aligned nodes rows) (hkey : rows.lookup key = some d)
    (severity : Option AlertSeverity) (now : Reading) :
    Aligned nodes (rows.insert key (d.setSeverity severity now)) := by
  obtain ⟨node, hnode, hagrees⟩ := h.of_row hkey
  intro j
  by_cases hj : j = key
  · subst hj
    rw [SortedMap.lookup_insert_self, hnode]
    exact .some ⟨hagrees.nodeKey, hagrees.decorationKey, hagrees.rowKey, hagrees.metricPoints,
      hagrees.spans, hagrees.logRecords⟩
  · rw [SortedMap.lookup_insert_of_ne hj]
    exact h j

end Aligned

/-- The key of an edge is made of its names. -/
def EdgeColumns.Keyed {ς : Type} (e : EdgeColumns ς) : Prop := e.key = edgeKey e.endpoint e.node

/-- An edge is sent as a decoration is persisted, under its proper key. -/
def StorageCommand.Keyed : StorageCommand → Prop
  | .upsertEdge edge => edge.Keyed ∧ ∃ d : EdgeSignalDecoration, edge = d.toPersisted
  | _ => True

theorem Agrees.keyed {key : Str} {node : NodeSummary} {d : EdgeSignalDecoration}
    (h : Agrees key node d) : d.toPersisted.Keyed :=
  h.rowKey.trans h.decorationKey

namespace DashboardState

variable {σ : Type} [StateStorage σ] (clock : ℕ → Reading) (display : Display) {J : σ → Prop}
  {s t : DashboardState σ} {key : Str}

/-- Nodes and decorations are aligned, and the storage has what `J` asks of it. -/
structure Kept (J : σ → Prop) (s : DashboardState σ) : Prop where
  aligned : Aligned s.nodes s.edgeDecorations.rows
  stored : ∀ storage, s.storage = some storage → J storage

/-- Commands with a proper key keep what `J` asks of the storage. -/
def Storing (J : σ → Prop) : Prop :=
  ∀ storage command, J storage → command.Keyed → J (StateStorage.send storage command)

theorem kept_send (hJ : Storing J) (h : Kept J s) (command : StorageCommand)
    (hkeyed : command.Keyed) : Kept J (s.send command) where
  aligned := h.aligned
  stored storage hstorage := by
    obtain ⟨before, hbefore, rfl⟩ := Option.map_eq_some_iff.mp hstorage
    exact hJ before command (h.stored before hbefore) hkeyed

omit [StateStorage σ] in
theorem Quiet.kept (hquiet : Quiet s t) (h : Kept J s) : Kept J t where
  aligned := by
    rw [hquiet.nodes, hquiet.edgeDecorations]
    exact h.aligned
  stored := by
    rw [hquiet.storage]
    exact h.stored

theorem kept_applyAlert (hJ : Storing J) (h : Kept J s)
    (outcome : AlertStore × Option AlertChange) : Kept J (applyAlert clock s outcome) where
  aligned := by
    rw [applyAlert_nodes, applyAlert_edgeDecorations]
    exact h.aligned
  stored := by
    rw [applyAlert_storage]
    split
    · exact h.stored
    · exact (kept_send hJ h (.recordAlert _) trivial).stored

theorem kept_storeNode (hJ : Storing J) (h : Kept J s) {entry : NodeSummary}
    (hkey : key = edgeKey entry.endpoint entry.node) (lastSignal : Str) :
    Kept J (storeNode clock s key entry lastSignal) := by
  subst hkey
  set key := edgeKey entry.endpoint entry.node with hkey
  set old := (s.edgeDecorations.rows.lookup key).getD (.fresh key entry (clock s.ticks)) with hold
  have hrow : old.key = key := by
    rw [hold]
    cases hd : s.edgeDecorations.rows.lookup key with
    | none => rfl
    | some d =>
      obtain ⟨_, _, hagrees⟩ := h.aligned.of_row hd
      exact hagrees.rowKey
  have hagrees : Agrees key entry (old.observe entry lastSignal (clock s.ticks)) :=
    ⟨rfl, rfl, hrow, rfl, rfl, rfl⟩
  have hstored : Kept J { s with
      nodes := s.nodes.insert key entry
      edgeDecorations :=
        ⟨s.edgeDecorations.rows.insert key (old.observe entry lastSignal (clock s.ticks))⟩
      ticks := s.ticks + 1 } :=
    ⟨aligned_insert h.aligned hagrees, h.stored⟩
  exact kept_send hJ hstored (.upsertEdge _) ⟨hagrees.keyed, _, rfl⟩

theorem kept_putSeverity (hJ : Storing J) (h : Kept J s) {d : EdgeSignalDecoration}
    (hkey : s.edgeDecorations.rows.lookup key = some d) (severity : Option AlertSeverity) :
    Kept J (putSeverity clock s key d severity) := by
  obtain ⟨node, _, hagrees⟩ := h.aligned.of_row hkey
  have hset : Kept J { s with
      edgeDecorations :=
        ⟨s.edgeDecorations.rows.insert key (d.setSeverity severity (clock s.ticks))⟩
      ticks := s.ticks + 1 } :=
    ⟨aligned_setSeverity h.aligned hkey severity _, h.stored⟩
  exact kept_send hJ hset (.upsertEdge _) ⟨hagrees.keyed, _, rfl⟩

theorem kept_forgetNode (hJ : Storing J) (h : Kept J s) (key : Str) :
    Kept J (forgetNode s key) := by
  have hforgotten : Kept J { s with
      nodes := s.nodes.erase key
      edgeDecorations := s.edgeDecorations.remove key } :=
    ⟨aligned_erase h.aligned key, h.stored⟩
  exact kept_send hJ hforgotten (.deleteEdge key) trivial

theorem kept_change {a : Action} (hJ : Storing J) (hchange : Change clock a s t)
    (h : Kept J s) : Kept J t := by
  cases hchange with
  | quiet hquiet => exact hquiet.kept h
  | counted | enabled | dropped _ => exact ⟨h.aligned, h.stored⟩
  | alert _ _ => exact kept_applyAlert clock hJ h _
  | stored hkey =>
    refine kept_storeNode clock hJ h (hkey fun key node hnode => ?_) _
    obtain ⟨_, _, hagrees⟩ := h.aligned.of_node hnode
    exact hagrees.nodeKey
  | severity hkey => exact kept_putSeverity clock hJ h hkey _
  | forgotten => exact kept_forgetNode hJ h _

theorem kept_act (hJ : Storing J) (h : Kept J s) (a : Action) : Kept J (act clock display s a) :=
  change_invariant clock display (fun _ _ hchange => kept_change clock hJ hchange) h

theorem aligned_change {a : Action} (hchange : Change clock a s t)
    (h : Aligned s.nodes s.edgeDecorations.rows) : Aligned t.nodes t.edgeDecorations.rows :=
  (kept_change clock (J := fun _ => True) (fun _ _ _ _ => trivial) hchange
    ⟨h, fun _ _ => trivial⟩).aligned

theorem aligned_changes {a : Action} (hchanges : Changes clock a s t)
    (h : Aligned s.nodes s.edgeDecorations.rows) : Aligned t.nodes t.edgeDecorations.rows :=
  changes_invariant clock (fun _ _ hchange => aligned_change clock hchange) hchanges h

/-- Both maps are filled from the same states. -/
theorem aligned_restore {states : List PersistedEdgeState} (hkeyed : ∀ e ∈ states, e.Keyed)
    {nodes : SortedMap Str NodeSummary} {e : EdgeSignalDecorations} (h : Aligned nodes e.rows)
    (now : ℕ → Reading) :
    Aligned (((e.restore now states).2.map fun node =>
        (edgeKey node.endpoint node.node, node)).foldl (fun m e => m.insert e.1 e.2) nodes)
      (e.restore now states).1.rows := by
  induction states generalizing nodes e now with
  | nil => exact h
  | cons state states ih =>
    obtain ⟨hstate, hrest⟩ := forall_mem_cons.mp hkeyed
    have hagrees : Agrees state.key
        (EdgeSignalDecoration.fromPersisted (now 0) state).toNodeSummary
        (.fromPersisted (now 0) state) :=
      ⟨hstate, hstate, rfl, rfl, rfl, rfl⟩
    have hinsert : Aligned
        (nodes.insert (edgeKey state.endpoint state.node)
          (EdgeSignalDecoration.fromPersisted (now 0) state).toNodeSummary)
        (e.rows.insert state.key (.fromPersisted (now 0) state)) := by
      rw [← show state.key = _ from hstate]
      exact aligned_insert h hagrees
    exact ih hrest (e := ⟨_⟩) hinsert fun i => now (i + 1)

omit [StateStorage σ] in
theorem kept_restoreEdges {states : List PersistedEdgeState} (hkeyed : ∀ e ∈ states, e.Keyed)
    (hstored : ∀ storage, s.storage = some storage → J storage) :
    Kept J (restoreEdges clock s states) where
  aligned := aligned_restore hkeyed aligned_empty _
  stored := hstored

omit [StateStorage σ] in
theorem kept_new {states : List PersistedEdgeState} (hkeyed : ∀ e ∈ states, e.Keyed)
    {storage : Option σ} (hstored : ∀ st, storage = some st → J st) (ticks : ℕ)
    (message : Option Str) : Kept J (new clock storage ticks states message) := by
  have hrestored : Kept J (restoreEdges clock (empty storage ticks) states) :=
    kept_restoreEdges clock hkeyed hstored
  unfold new
  cases message with
  | none => exact hrestored
  | some message => exact (quiet_pushEvent clock _ _ message).kept hrestored

end DashboardState

/-- A restored row comes from one of the states. -/
theorem restore_rows {states : List PersistedEdgeState} {e : EdgeSignalDecorations}
    {now : ℕ → Reading} {key : Str} {d : EdgeSignalDecoration}
    (h : (e.restore now states).1.rows.lookup key = some d) :
    e.rows.lookup key = some d ∨
      ∃ state ∈ states, ∃ now', d = EdgeSignalDecoration.fromPersisted now' state := by
  induction states generalizing e now with
  | nil => exact .inl h
  | cons state states ih =>
    obtain hrow | ⟨later, hlater, now', rfl⟩ := ih h
    · obtain ⟨_, rfl⟩ | hold := SortedMap.lookup_insert_some hrow
      · exact .inr ⟨state, mem_cons_self, now 0, rfl⟩
      · exact .inl hold
    · exact .inr ⟨later, mem_cons_of_mem _ hlater, now', rfl⟩

namespace Desktop

variable (clock : ℕ → Reading) (display : Display) {d d' : Desktop} {event : DesktopEvent}

/-- The commands that wait for the worker have proper keys. -/
def QueueKeyed (queue : List StorageCommand) : Prop := ∀ command ∈ queue, command.Keyed

theorem storing_queue : DashboardState.Storing QueueKeyed := by
  intro queue command hqueue hcommand c hc
  rcases mem_append.mp hc with hc | hc
  · exact hqueue c hc
  · rw [mem_singleton.mp hc]
    exact hcommand

/-- A row that the worker has written. -/
structure Written (key : Str) (row : EdgeRow) : Prop where
  key_eq : row.key = key
  keyed : row.Keyed
  persisted : ∃ d : EdgeSignalDecoration, row = d.toPersisted.toRow

def RowsWritten (db : StateDb) : Prop :=
  ∀ key row, db.edgeState.lookup key = some row → Written key row

structure Kept (d : Desktop) : Prop where
  dashboard : d.dashboard.Kept QueueKeyed
  rows : RowsWritten d.db

theorem attempt_rows {db : StateDb} (h : RowsWritten db) {command : StorageCommand}
    (hkeyed : command.Keyed) (outcome : WriteOutcome) :
    RowsWritten (db.attempt command outcome) := by
  intro key row hrow
  cases outcome with
  | refused => exact h key row hrow
  | onlyEvent => cases command <;> exact h key row hrow
  | written =>
    cases command with
    | recordAlert alert => exact h key row hrow
    | upsertEdge edge =>
      obtain ⟨rfl, rfl⟩ | hold := SortedMap.lookup_insert_some hrow
      · obtain ⟨hkeyed, d, hd⟩ := hkeyed
        exact ⟨rfl, hkeyed, d, congrArg _ hd⟩
      · exact h key row hold
    | deleteEdge deleted => exact h key row (SortedMap.lookup_erase_some hrow).2

theorem loaded_keyed {db : StateDb} (h : RowsWritten db) {rows : List EdgeRow}
    (hordered : db.Ordered rows) : ∀ e ∈ StateDb.loadEdgeStates rows, e.Keyed := by
  intro e he
  obtain ⟨row, hrow, rfl⟩ := mem_map.mp he
  obtain ⟨key, hkey⟩ := SortedMap.mem_values.mp (hordered.1.subset (mem_of_mem_take hrow))
  exact (h key row hkey).keyed

theorem kept_started {db : StateDb} {ticks : ℕ} {start : Start} (h : RowsWritten db)
    (hstart : started clock db ticks start = some d) : Kept d := by
  cases start with
  | ready rows message =>
    obtain ⟨hordered, rfl⟩ := started_ready hstart
    have hqueue : ∀ queue, some [] = some queue → QueueKeyed queue := by
      rintro _ ⟨⟩
      exact forall_mem_nil _
    exact ⟨DashboardState.kept_new clock (loaded_keyed h hordered) hqueue ticks (some message), h⟩
  | disabled message =>
    cases hstart
    have hnone : ∀ queue, none = some queue → QueueKeyed queue := nofun
    exact ⟨DashboardState.kept_new clock (forall_mem_nil _) hnone ticks (some message), h⟩

theorem kept_step (h : Kept d) (hstep : step clock display d event = some d') : Kept d' := by
  cases event with
  | act action =>
    cases hstep
    exact ⟨DashboardState.kept_act clock display storing_queue h.dashboard action, h.rows⟩
  | restart start => exact kept_started clock h.rows hstep
  | handle outcome =>
    obtain ⟨command, queue, hstorage, rfl⟩ := step_handle hstep
    have hqueue := h.dashboard.stored _ hstorage
    refine ⟨⟨h.dashboard.aligned, ?_⟩, attempt_rows h.rows (hqueue _ mem_cons_self) outcome⟩
    rintro _ ⟨⟩
    exact fun c hc => hqueue c (mem_cons_of_mem _ hc)

theorem kept_reachable (h : Reachable clock display d) : Kept d := by
  refine Runs.reachable_invariant ?_ (fun s a t hs ht => kept_step clock display hs ht) h
  rintro d ⟨start, hstart⟩
  refine kept_started clock ?_ hstart
  intro key row hrow
  cases hrow

end Desktop

section Stored

variable {json : Codecs} {accepts : ℕ → Bool} {s : BrowserStorage json accepts}
  {items : Str → Option Str} {key : Str}

/-- Whatever can be read under a key of edges has proper keys. -/
def ItemsKeyed (json : Codecs) (items : Str → Option Str) : Prop :=
  ∀ key, edgesKey <+: key → ∀ edges, readJson json.edges items key = .ok (some edges) →
    ∀ e ∈ edges, e.Keyed

theorem storageKey_begins {base : Str} {scope : Browser.BrowserStorageScope}
    (hkey : storageKey base scope = some key) : base <+: key := by
  cases scope with
  | legacy =>
    cases hkey
    exact prefix_rfl
  | cloudPending => cases hkey
  | cloud endpoint tenantId =>
    cases hkey
    simp only [browserStorageKey, append_assoc]
    exact prefix_append _ _

/-- Keys of the other kinds begin otherwise. -/
theorem not_edgesKey {base : Str} (hlength : edgesKey.length ≤ base.length)
    (hbase : ¬ edgesKey <+: base) {scope : Browser.BrowserStorageScope}
    (hkey : storageKey base scope = some key) : ¬ edgesKey <+: key := fun hedges =>
  hbase (prefix_of_prefix_length_le hedges (storageKey_begins hkey) hlength)

/-- A write under another key leaves the edges as they are. -/
theorem itemsKeyed_update (h : ItemsKeyed json items) (hkey : ¬ edgesKey <+: key)
    (text : Option Str) : ItemsKeyed json (Function.update items key text) := by
  intro j hj edges hread
  have hne : j ≠ key := by
    rintro rfl
    exact hkey hj
  refine h j hj edges ?_
  rwa [readJson, Function.update_of_ne hne] at hread

theorem itemsKeyed_edges (h : ItemsKeyed json items) {edges : List PersistedEdgeState}
    (hedges : ∀ e ∈ edges, e.Keyed) :
    ItemsKeyed json (Function.update items key (some (json.edges.encode edges))) := by
  intro j hj found hread
  by_cases hjk : j = key
  · subst hjk
    simp only [readJson, Function.update_self, json.edges.decode_encode] at hread
    cases hread
    exact hedges
  · rw [readJson, Function.update_of_ne hjk] at hread
    exact h j hj found hread

theorem writeJson_items {α : Type} (codec : Codec α) (s : BrowserStorage json accepts) (key : Str)
    (value : α) : (writeJson codec s key value).1.items = s.items ∨
      (writeJson codec s key value).1.items =
        Function.update s.items key (some (codec.encode value)) := by
  unfold writeJson
  split_ifs
  · exact .inr rfl
  · exact .inl rfl

theorem itemsKeyed_modifyEdges (h : ItemsKeyed json s.items)
    {f : List PersistedEdgeState → List PersistedEdgeState}
    (hf : ∀ edges, (∀ e ∈ edges, e.Keyed) → ∀ e ∈ f edges, e.Keyed) :
    ItemsKeyed json (s.modifyEdges f).items := by
  unfold BrowserStorage.modifyEdges
  split
  · exact h
  · rename_i key hkey
    split
    · exact h
    · rename_i edges hread
      have hkeyed : ∀ e ∈ edges.getD [], e.Keyed := by
        cases edges with
        | none => exact forall_mem_nil _
        | some edges => exact h key (storageKey_begins hkey) edges hread
      obtain hitems | hitems := writeJson_items json.edges s key (f (edges.getD []))
      · rw [hitems]
        exact h
      · rw [hitems]
        exact itemsKeyed_edges h (hf _ hkeyed)

theorem mem_replaceEdge {edge e : PersistedEdgeState} {edges : List PersistedEdgeState}
    (h : e ∈ replaceEdge edge edges) : e = edge ∨ e ∈ edges := by
  induction edges with
  | nil => exact .inl (mem_singleton.mp h)
  | cons head edges ih =>
    unfold replaceEdge at h
    split_ifs at h
    · exact (mem_cons.mp h).imp_right (mem_cons_of_mem head)
    · rcases mem_cons.mp h with rfl | h
      · exact .inr mem_cons_self
      · exact (ih h).imp_right (mem_cons_of_mem head)

theorem itemsKeyed_writeJson {α : Type} (h : ItemsKeyed json s.items) (hkey : ¬ edgesKey <+: key)
    (codec : Codec α) (value : α) : ItemsKeyed json (writeJson codec s key value).1.items := by
  obtain hitems | hitems := writeJson_items codec s key value
  · rw [hitems]
    exact h
  · rw [hitems]
    exact itemsKeyed_update h hkey _

theorem itemsKeyed_persistAlertState (h : ItemsKeyed json s.items) (hkey : ¬ edgesKey <+: key)
    (alert : AlertRecord) : ItemsKeyed json (s.persistAlertState alert key).items := by
  unfold BrowserStorage.persistAlertState
  split
  · exact h
  · exact itemsKeyed_writeJson h hkey _ _

theorem itemsKeyed_persistAlert (h : ItemsKeyed json s.items) (alert : AlertRecord) :
    ItemsKeyed json (s.persistAlert alert).items := by
  unfold BrowserStorage.persistAlert
  split
  · rename_i eventsKey stateKey hevents hstate
    have hnotEvents := not_edgesKey (by decide) (by decide) hevents
    have hnotState := not_edgesKey (by decide) (by decide) hstate
    split
    · exact h
    · rename_i events _
      have hwritten := itemsKeyed_writeJson h hnotEvents json.alertEvents
        ((events.getD [] ++ [alert]).drop ((events.getD [] ++ [alert]).length - maxAlertEvents))
      dsimp only
      split
      · rename_i heq
        rw [heq] at hwritten
        exact itemsKeyed_persistAlertState hwritten hnotState alert
      · rename_i heq
        rw [heq] at hwritten
        exact hwritten
  · exact h

theorem storing_items :
    DashboardState.Storing fun s : BrowserStorage json accepts => ItemsKeyed json s.items := by
  intro s command h hkeyed
  cases command with
  | upsertEdge edge =>
    refine itemsKeyed_modifyEdges h fun edges hedges e he => ?_
    have hsorted : e ∈ replaceEdge edge edges :=
      (mem_insertionSort _).mp (mem_of_mem_take he)
    rcases mem_replaceEdge hsorted with rfl | he
    · exact hkeyed.1
    · exact hedges e he
  | deleteEdge key =>
    exact itemsKeyed_modifyEdges h fun edges hedges e he => hedges e (mem_of_mem_filter he)
  | recordAlert alert => exact itemsKeyed_persistAlert h alert

theorem restoreScope_keyed (h : ItemsKeyed json items) (scope : Browser.BrowserStorageScope) :
    ∀ e ∈ restoreScope json items scope, e.Keyed := by
  unfold restoreScope
  split
  · exact forall_mem_nil _
  · rename_i key hkey
    split
    · exact forall_mem_nil _
    · rename_i edges hread
      cases edges with
      | none => exact forall_mem_nil _
      | some edges => exact h key (storageKey_begins hkey) edges hread

end Stored

namespace BrowserState

variable {json : Codecs} {accepts : ℕ → Bool} (clock : ℕ → Reading) (display : Display)
  {s : BrowserState json accepts}

open DashboardState in
/-- The dashboard of the page is in order, and so is the storage it sees. -/
def Kept (s : BrowserState json accepts) : Prop :=
  s.dashboard.Kept fun storage => ItemsKeyed json storage.items

theorem kept_scope (h : s.Kept) (scope : Browser.BrowserStorageScope) (warning : Option Str) :
    (observeBrowserStorageScope clock s scope warning).Kept := by
  unfold observeBrowserStorageScope
  split_ifs
  · exact h
  · dsimp only
    split
    · rename_i storage hstorage
      have hitems := h.stored storage hstorage
      have hrestored := DashboardState.kept_restoreEdges clock
        (J := fun storage : BrowserStorage json accepts => ItemsKeyed json storage.items)
        (s := { clearView s.dashboard with storage := some { storage with scope } })
        (restoreScope_keyed hitems scope) (by rintro _ ⟨⟩; exact hitems)
      have hshown := (DashboardState.quiet_pushEvent clock _ "storage".toList
        ("browser state scope changed to ".toList ++ scopeLabel scope)).kept hrestored
      cases warning with
      | none => exact hshown
      | some warning => exact (DashboardState.quiet_pushEvent clock _ _ warning).kept hshown
    · refine (DashboardState.quiet_pushEvent clock _ _ _).kept ?_
      exact ⟨aligned_empty, h.stored⟩

theorem kept_step (h : s.Kept) (action : BrowserAction) : (s.step clock display action).Kept := by
  cases action with
  | act action => exact DashboardState.kept_act clock display storing_items h action
  | scope scope warning => exact kept_scope clock h scope warning

theorem kept_new (scope : Browser.BrowserStorageScope) (ticks : ℕ)
    {storage : Option (BrowserStorage json accepts)} (message : Str)
    (h : ∀ st, storage = some st → ItemsKeyed json st.items) :
    (new clock scope ticks storage message).Kept := by
  cases storage with
  | none => exact DashboardState.kept_new clock (forall_mem_nil _) nofun ticks (some message)
  | some storage =>
    have hitems := h storage rfl
    refine DashboardState.kept_new clock (restoreScope_keyed hitems scope) ?_ ticks (some message)
    rintro _ ⟨⟩
    exact hitems

end BrowserState

namespace Origin

variable {json : Codecs} {accepts : ℕ → Bool} (clock : ℕ → Reading) (display : Display)
  {w w' : Origin json accepts} {event : OriginEvent}

structure Kept (w : Origin json accepts) : Prop where
  items : ItemsKeyed json w.items
  pages : ∀ i page, w.pages i = some page →
    Aligned page.dashboard.nodes page.dashboard.edgeDecorations.rows

theorem kept_leave (h : w.Kept) (i : ℕ) {page : BrowserState json accepts} (hpage : page.Kept) :
    (w.leave i page).Kept := by
  have hpages : ∀ j p, Function.update w.pages i (some page) j = some p →
      Aligned p.dashboard.nodes p.dashboard.edgeDecorations.rows := by
    intro j p hp
    by_cases hj : j = i
    · subst hj
      rw [Function.update_self] at hp
      cases hp
      exact hpage.aligned
    · rw [Function.update_of_ne hj] at hp
      exact h.pages j p hp
  unfold leave
  dsimp only
  split
  · rename_i storage hstorage
    exact ⟨hpage.stored storage hstorage, hpages⟩
  · exact ⟨h.items, hpages⟩

theorem kept_shared (h : w.Kept) {i : ℕ} {page : BrowserState json accepts}
    (hpage : w.pages i = some page) : (w.shared page).Kept where
  aligned := h.pages i page hpage
  stored storage hstorage := by
    obtain ⟨_, _, rfl⟩ := Option.map_eq_some_iff.mp hstorage
    exact h.items

theorem kept_step (h : w.Kept) (hstep : step clock display w event = some w') : w'.Kept := by
  cases event with
  | opened i hasCloudStartup available ticks message =>
    cases hstep
    refine kept_leave h i (BrowserState.kept_new clock _ ticks message ?_)
    intro st hst
    obtain ⟨_, ⟨⟩⟩ := Option.ite_none_right_eq_some.mp hst
    exact h.items
  | acted i action =>
    obtain ⟨page, hpage, rfl⟩ := Option.map_eq_some_iff.mp hstep
    exact kept_leave h i (BrowserState.kept_step clock display (kept_shared h hpage) action)
  | elsewhere key text =>
    obtain ⟨hkey, ⟨⟩⟩ := Option.ite_none_left_eq_some.mp hstep
    exact ⟨itemsKeyed_update h.items hkey text, h.pages⟩

theorem kept_reachable (h : Reachable clock display w) : w.Kept := by
  refine Runs.reachable_invariant ?_ (fun s a t hs ht => kept_step clock display hs ht) h
  rintro w ⟨hpages, hitems⟩
  refine ⟨?_, fun i page hpage => ?_⟩
  · intro key hkey edges hread
    rw [readJson, hitems key hkey] at hread
    cases hread
  · rw [hpages i] at hpage
    cases hpage

end Origin

/-- In every state the program can reach, on the desktop and in the browser, the nodes and the
decorations have the same keys, made of the same names, with the same counts. -/
theorem nodes_aligned (clock : ℕ → Reading) (display : Display) (json : Codecs)
    (accepts : ℕ → Bool) :
    (∀ d, Desktop.Reachable clock display d →
      Aligned d.dashboard.nodes d.dashboard.edgeDecorations.rows) ∧
    ∀ w : Origin json accepts, Origin.Reachable clock display w →
      ∀ i page, w.pages i = some page →
        Aligned page.dashboard.nodes page.dashboard.edgeDecorations.rows :=
  ⟨fun _ hd => (Desktop.kept_reachable clock display hd).dashboard.aligned,
    fun _ hw => (Origin.kept_reachable clock display hw).pages⟩

/-- A desktop and a page that have each registered a node. -/
theorem nodes_aligned_sample :
    (∃ d, Desktop.Reachable stoppedClock plainDisplay d ∧ d.dashboard.nodes.values.length = 1 ∧
      Aligned d.dashboard.nodes d.dashboard.edgeDecorations.rows) ∧
    ∃ w : Origin framedCodecs fun _ => true, Origin.Reachable stoppedClock plainDisplay w ∧
      ∃ page, w.pages 0 = some page ∧ page.dashboard.nodes.values.length = 1 ∧
        Aligned page.dashboard.nodes page.dashboard.edgeDecorations.rows := by
  have haligned := nodes_aligned stoppedClock plainDisplay framedCodecs fun _ => true
  have hdesktop : Desktop.Reachable stoppedClock plainDisplay _ :=
    ⟨⟨.empty, .new stoppedClock (some []) 0 [] (some [])⟩, [.act (.registerAgent ['a'] [] [])],
      ⟨.ready [] [], rfl⟩, rfl⟩
  have horigin : Origin.Reachable stoppedClock plainDisplay _ :=
    ⟨(⟨fun _ => none, 0, fun _ => none⟩ : Origin framedCodecs fun _ => true),
      [.opened 0 false true 0 [], .acted 0 (.act (.registerAgent ['a'] [] []))],
      ⟨fun _ => rfl, fun _ _ => rfl⟩, rfl⟩
  exact ⟨⟨_, hdesktop, rfl, haligned.1 _ hdesktop⟩,
    _, horigin, _, rfl, rfl, haligned.2 _ horigin 0 _ rfl⟩

end SkidMonitor.Client
