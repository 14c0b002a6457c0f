import SkidMonitor.Client.Mirror
import SkidMonitor.Lib.Latest

/-! The edges that the browser and the desktop keep: a list that is sorted and cut off again with
every write, and a table, of the same contents. -/
namespace SkidMonitor.Client

open List

open Latest (Lists latest live)

/-- A call of `persist_edge` or `delete_edge`. -/
abbrev EdgeCall := Latest.Write Str PersistedEdgeState

def EdgeCall.command : EdgeCall → StorageCommand
  | .put edge => .upsertEdge edge
  | .drop key => .deleteEdge key

/-- The edges are listed newest first, the last persisted state of each key that was not deleted
since. -/
structure ListsEdges (calls : List EdgeCall) (edges : List PersistedEdgeState) : Prop extends
    Lists EdgeColumns.key calls edges where
  newest : edges.Pairwise fun a b => b.lastSeenUnixMs ≤ a.lastSeenUnixMs

section Replaced

variable {edge : PersistedEdgeState} {edges : List PersistedEdgeState} {calls : List EdgeCall}

theorem mem_replaceEdge_iff (h : (edges.map EdgeColumns.key).Nodup) (e : PersistedEdgeState) :
    e ∈ replaceEdge edge edges ↔ e = edge ∨ e ∈ edges ∧ e.key ≠ edge.key := by
  induction edges with
  | nil => simp [replaceEdge]
  | cons head edges ih =>
    obtain ⟨hnew, hrest⟩ := nodup_cons.mp h
    unfold replaceEdge
    split_ifs with hkey
    · have hothers : ∀ e ∈ edges, e.key ≠ edge.key := by
        intro e he heq
        exact hnew (mem_map.mpr ⟨e, he, heq.trans hkey.symm⟩)
      rw [mem_cons, mem_cons]
      refine or_congr_right ⟨fun he => ⟨.inr he, hothers e he⟩, ?_⟩
      rintro ⟨rfl | he, hne⟩
      · exact absurd hkey hne
      · exact he
    · rw [mem_cons, ih hrest, mem_cons]
      constructor
      · rintro (rfl | rfl | ⟨he, hne⟩)
        · exact .inr ⟨.inl rfl, hkey⟩
        · exact .inl rfl
        · exact .inr ⟨.inr he, hne⟩
      · rintro (rfl | ⟨rfl | he, hne⟩)
        · exact .inr (.inl rfl)
        · exact .inl rfl
        · exact .inr (.inr ⟨he, hne⟩)

theorem nodup_replaceEdge (h : (edges.map EdgeColumns.key).Nodup) :
    ((replaceEdge edge edges).map EdgeColumns.key).Nodup := by
  induction edges with
  | nil => exact nodup_singleton _
  | cons head edges ih =>
    obtain ⟨hnew, hrest⟩ := nodup_cons.mp h
    unfold replaceEdge
    split_ifs with hkey
    · rw [map_cons, ← hkey]
      exact h
    · refine nodup_cons.mpr ⟨fun hmem => ?_, ih hrest⟩
      obtain ⟨e, he, heq⟩ := mem_map.mp hmem
      rcases (mem_replaceEdge_iff hrest e).mp he with rfl | ⟨he, _⟩
      · exact hkey heq.symm
      · exact hnew (mem_map.mpr ⟨e, he, heq⟩)

theorem newestFirst_perm : (newestFirst edges).Perm edges := perm_insertionSort _ _

theorem newest_insertionSort {ς : Type} (edges : List (EdgeColumns ς)) :
    (edges.insertionSort fun a b => b.lastSeenUnixMs ≤ a.lastSeenUnixMs).Pairwise fun a b =>
      b.lastSeenUnixMs ≤ a.lastSeenUnixMs := by
  have htotal : Std.Total fun a b : EdgeColumns ς => b.lastSeenUnixMs ≤ a.lastSeenUnixMs :=
    ⟨fun a b => Int.le_total _ _⟩
  have htrans : IsTrans (EdgeColumns ς) fun a b => b.lastSeenUnixMs ≤ a.lastSeenUnixMs :=
    ⟨fun a b c hab hbc => Int.le_trans hbc hab⟩
  exact pairwise_insertionSort _ _

/-- What the browser writes for `persist_edge`, if nothing is cut off. -/
theorem listsEdges_put (h : ListsEdges calls edges)
    (hlive : (live EdgeColumns.key (calls ++ [.put edge])).length ≤ maxEdgeStates) :
    ListsEdges (calls ++ [.put edge])
      ((newestFirst (replaceEdge edge edges)).take maxEdgeStates) := by
  have hlists : Lists EdgeColumns.key (calls ++ [.put edge]) (newestFirst (replaceEdge edge edges)) :=
    (h.toLists.put (nodup_replaceEdge h.nodup) (mem_replaceEdge_iff h.nodup)).perm newestFirst_perm
  rw [take_of_length_le (hlists.length_le.trans hlive)]
  exact ⟨hlists, newest_insertionSort _⟩

theorem listsEdges_drop (h : ListsEdges calls edges) (key : Str) :
    ListsEdges (calls ++ [.drop key]) (edges.filter (·.key ≠ key)) :=
  ⟨h.toLists.drop key, h.newest.filter _⟩

end Replaced

theorem readJson_update {α : Type} (codec : Codec α) (items : Str → Option Str) (key : Str)
    (value : α) : readJson codec (Function.update items key (some (codec.encode value))) key =
      .ok (some value) := by
  rw [readJson, Function.update_self]
  simp only [codec.decode_encode]

namespace BrowserStorage

variable {json : Codecs} {accepts : ℕ → Bool} {s : BrowserStorage json accepts}
  {calls : List EdgeCall}

/-- The storage after some calls. -/
def after (s : BrowserStorage json accepts) (calls : List EdgeCall) :
    BrowserStorage json accepts :=
  calls.foldl (fun s call => StateStorage.send s call.command) s

/-- What a page finds in the scope of the storage. -/
def restored (s : BrowserStorage json accepts) : List PersistedEdgeState :=
  restoreScope json s.items s.scope

/-- The storage `t` has written once for each of the calls, and keeps their edges under the key. -/
structure Follows (s t : BrowserStorage json accepts) (key : Str) (calls : List EdgeCall) : Prop where
  scope : storageKey edgesKey t.scope = some key
  writes : t.writes = s.writes + calls.length
  readable : ∃ edges, readJson json.edges t.items key = .ok edges
  lists : ListsEdges calls t.restored

/-- A call whose write is accepted leaves the right list, if it makes the right one. -/
theorem Follows.modifyEdges {t : BrowserStorage json accepts} {key : Str} {call : EdgeCall}
    {f : List PersistedEdgeState → List PersistedEdgeState} (h : Follows s t key calls)
    (haccepts : accepts t.writes = true) (hlists : ListsEdges (calls ++ [call]) (f t.restored)) :
    Follows s (t.modifyEdges f) key (calls ++ [call]) := by
  obtain ⟨edges, hread⟩ := h.readable
  have hwritten : t.modifyEdges f = { t with
      items := Function.update t.items key (some (json.edges.encode (f (edges.getD []))))
      writes := t.writes + 1 } := by
    simp only [BrowserStorage.modifyEdges, h.scope, hread, writeJson, haccepts, if_true]
  have hbefore : t.restored = edges.getD [] := by
    simp only [restored, restoreScope, h.scope, hread]
  rw [hwritten]
  refine ⟨h.scope, ?_, ⟨_, readJson_update ..⟩, ?_⟩
  · rw [length_append, ← Nat.add_assoc, ← h.writes]
    rfl
  · simp only [restored, restoreScope, h.scope, readJson_update]
    rw [hbefore] at hlists
    exact hlists

/-- Every call finds the list that the calls before it left. -/
theorem follows_after {key : Str} (hscope : storageKey edgesKey s.scope = some key)
    (hempty : s.items key = none)
    (haccepts : ∀ n, s.writes ≤ n → n < s.writes + calls.length → accepts n = true)
    (hlive : ∀ pre, pre <+: calls → (live EdgeColumns.key pre).length ≤ maxEdgeStates) :
    Follows s (s.after calls) key calls := by
  induction calls using List.reverseRecOn with
  | nil =>
    have hread : readJson json.edges s.items key = .ok none := by simp only [readJson, hempty]
    refine ⟨hscope, rfl, ⟨none, hread⟩, ?_⟩
    change ListsEdges [] (restoreScope json s.items s.scope)
    simp only [restoreScope, hscope, hread]
    exact ⟨.nil, .nil⟩
  | append_singleton calls call ih =>
    have hlength : (calls ++ [call]).length = calls.length + 1 := by simp
    have hprior := ih (fun n hle hlt => haccepts n hle (by omega))
      fun pre hpre => hlive pre (hpre.trans (prefix_append _ _))
    have hwrites := hprior.writes
    have hstored : accepts (s.after calls).writes = true := haccepts _ (by omega) (by omega)
    have hstep : s.after (calls ++ [call]) = StateStorage.send (s.after calls) call.command := by
      rw [after, foldl_append]
      rfl
    rw [hstep]
    cases call with
    | put edge =>
      change Follows s ((s.after calls).modifyEdges fun edges =>
        (newestFirst (replaceEdge edge edges)).take maxEdgeStates) key _
      exact hprior.modifyEdges hstored (listsEdges_put hprior.lists (hlive _ prefix_rfl))
    | drop dropped =>
      change Follows s ((s.after calls).modifyEdges fun edges => edges.filter (·.key ≠ dropped)) key _
      exact hprior.modifyEdges hstored (listsEdges_drop hprior.lists dropped)

end BrowserStorage

namespace StateDb

variable {calls : List EdgeCall} {rows : List EdgeRow}

/-- The database after some calls. -/
def after (db : StateDb) (calls : List EdgeCall) : StateDb :=
  calls.foldl (fun db call => db.handleTelemetry call.command) db

theorem lookup_after (key : Str) : (empty.after calls).edgeState.lookup key =
    (latest EdgeColumns.key calls key).map PersistedEdgeState.toRow := by
  induction calls using List.reverseRecOn with
  | nil => rfl
  | append_singleton calls call ih =>
    have hstep : empty.after (calls ++ [call]) =
        (empty.after calls).handleTelemetry call.command := by
      rw [after, foldl_append]
      rfl
    rw [hstep, Latest.latest_concat]
    cases call with
    | put edge =>
      change ((empty.after calls).edgeState.insert edge.key edge.toRow).lookup key =
        (if edge.key = key then some edge else _).map _
      by_cases hkey : edge.key = key
      · subst hkey
        rw [if_pos rfl, SortedMap.lookup_insert_self]
        rfl
      · rw [if_neg hkey, SortedMap.lookup_insert_of_ne (Ne.symm hkey), ih]
    | drop k =>
      change ((empty.after calls).edgeState.erase k).lookup key = (if k = key then none else _).map _
      by_cases hkey : k = key
      · subst hkey
        rw [if_pos rfl, SortedMap.lookup_erase_self]
        rfl
      · rw [if_neg hkey, SortedMap.lookup_erase_of_ne (Ne.symm hkey), ih]

theorem toState_toRow (edge : PersistedEdgeState) : EdgeRow.toState edge.toRow = edge := by
  rw [EdgeRow.toState, PersistedEdgeState.toRow]
  simp only [EdgeColumns.withSeverity, severity_roundTrip]

theorem mem_values_after {row : EdgeRow} : row ∈ (empty.after calls).edgeState.values ↔
    latest EdgeColumns.key calls row.key = some row.toState ∧ row.toState.toRow = row := by
  rw [SortedMap.mem_values]
  constructor
  · rintro ⟨key, hkey⟩
    rw [lookup_after] at hkey
    obtain ⟨edge, hedge, rfl⟩ := Option.map_eq_some_iff.mp hkey
    rw [toState_toRow]
    obtain rfl := Latest.latest_key hedge
    exact ⟨hedge, rfl⟩
  · rintro ⟨hlatest, hrow⟩
    refine ⟨row.key, ?_⟩
    rw [lookup_after, hlatest, Option.map_some, hrow]

theorem nodup_keys_values : ((empty.after calls).edgeState.values.map EdgeColumns.key).Nodup := by
  have hkeys : (empty.after calls).edgeState.values.map EdgeColumns.key =
      (empty.after calls).edgeState.entries.map Prod.fst := by
    rw [SortedMap.values, map_map]
    refine map_congr_left fun entry hentry => ?_
    have hlookup := SortedMap.mem_entries.mp hentry
    rw [lookup_after] at hlookup
    obtain ⟨edge, hedge, hrow⟩ := Option.map_eq_some_iff.mp hlookup
    rw [Function.comp_apply, ← hrow, ← Latest.latest_key hedge]
    rfl
  rw [hkeys]
  exact SortedMap.keys_nodup _

theorem exists_ordered (db : StateDb) : ∃ rows, db.Ordered rows :=
  ⟨_, perm_insertionSort _ _, newest_insertionSort db.edgeState.values⟩

/-- The table is read newest first, all of it. -/
theorem listsEdges_load (hordered : (empty.after calls).Ordered rows)
    (hlive : (live EdgeColumns.key calls).length ≤ maxRestoredEdges) :
    ListsEdges calls (loadEdgeStates rows) := by
  obtain ⟨hperm, hnewest⟩ := hordered
  have hlists : Lists EdgeColumns.key calls (rows.map EdgeRow.toState) := by
    constructor
    · rw [map_map]
      exact (hperm.map _).nodup_iff.mpr nodup_keys_values
    · intro edge
      rw [mem_map]
      constructor
      · rintro ⟨row, hrow, rfl⟩
        exact (mem_values_after.mp (hperm.mem_iff.mp hrow)).1
      · intro hlatest
        refine ⟨PersistedEdgeState.toRow edge, hperm.mem_iff.mpr (mem_values_after.mpr ?_),
          toState_toRow edge⟩
        rw [toState_toRow]
        exact ⟨hlatest, rfl⟩
  have hall : loadEdgeStates rows = rows.map EdgeRow.toState := by
    rw [loadEdgeStates, take_of_length_le]
    rw [← length_map (f := EdgeRow.toState)]
    exact hlists.length_le.trans hlive
  rw [hall]
  exact ⟨hlists, pairwise_map.mpr hnewest⟩

end StateDb

/-- After the same calls in a scope that is not pending, whose writes are all accepted, with never
more than 512 live keys, a page and the program on the desktop find the same edges: the last
persisted state of each key that was not deleted since, once, newest first. -/
theorem edge_storages_agree (json : Codecs) (accepts : ℕ → Bool) (s : BrowserStorage json accepts)
    (calls : List EdgeCall) (hscope : s.scope ≠ .cloudPending)
    (hempty : ∀ key, storageKey edgesKey s.scope = some key → s.items key = none)
    (haccepts : ∀ n, s.writes ≤ n → n < s.writes + calls.length → accepts n = true)
    (hlive : ∀ pre, pre <+: calls → (live EdgeColumns.key pre).length ≤ 512) :
    ListsEdges calls (s.after calls).restored ∧
      (∃ rows, (StateDb.empty.after calls).Ordered rows) ∧
      ∀ rows, (StateDb.empty.after calls).Ordered rows →
        ListsEdges calls (StateDb.loadEdgeStates rows) ∧
        ∀ edge, edge ∈ (s.after calls).restored ↔ edge ∈ StateDb.loadEdgeStates rows := by
  have hkey : ∃ key, storageKey edgesKey s.scope = some key := by
    cases h : s.scope with
    | cloudPending => exact absurd h hscope
    | legacy | cloud => exact ⟨_, rfl⟩
  obtain ⟨key, hkey⟩ := hkey
  have hbrowser := (BrowserStorage.follows_after hkey (hempty key hkey) haccepts hlive).lists
  refine ⟨hbrowser, StateDb.exists_ordered _, fun rows hordered => ?_⟩
  have hnative := StateDb.listsEdges_load hordered (hlive calls prefix_rfl)
  exact ⟨hnative, fun edge => (hbrowser.mem edge).trans (hnative.mem edge).symm⟩

/-- An edge that was last seen at some time. -/
def seenEdge (key : Str) (unixMs : ℤ) : PersistedEdgeState :=
  ⟨key, [], [], [], [], 0, 0, 0, [], [], [], unixMs, none⟩

/-- A page without a client API, on an empty storage that accepts all. -/
def emptyPage : BrowserStorage framedCodecs fun _ => true := ⟨fun _ => none, .legacy, 0⟩

theorem edge_storages_agree_moved :
    (emptyPage.after [.put (seenEdge ['a'] 1), .put (seenEdge ['b'] 2),
      .put (seenEdge ['a'] 3)]).restored = [seenEdge ['a'] 3, seenEdge ['b'] 2] ∧
    ListsEdges [.put (seenEdge ['a'] 1), .put (seenEdge ['b'] 2), .put (seenEdge ['a'] 3)]
      [seenEdge ['a'] 3, seenEdge ['b'] 2] := by
  have hrestored : (emptyPage.after [.put (seenEdge ['a'] 1), .put (seenEdge ['b'] 2),
      .put (seenEdge ['a'] 3)]).restored = [seenEdge ['a'] 3, seenEdge ['b'] 2] := by
    decide +kernel
  refine ⟨hrestored, ?_⟩
  rw [← hrestored]
  refine (edge_storages_agree framedCodecs (fun _ => true) emptyPage _ nofun (fun _ _ => rfl)
    (fun _ _ _ => rfl) ?_).1
  intro pre hpre
  have hsmall : ∀ pre ∈ List.inits [Latest.Write.put (K := Str) (seenEdge ['a'] 1),
      .put (seenEdge ['b'] 2), .put (seenEdge ['a'] 3)],
      (live EdgeColumns.key pre).length ≤ 512 := by
    decide
  exact hsmall pre ((mem_inits _ _).mpr hpre)

end SkidMonitor.Client
