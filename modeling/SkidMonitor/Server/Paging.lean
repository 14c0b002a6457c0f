import SkidMonitor.Lib.Pages
import SkidMonitor.Server.Alone
import SkidMonitor.Server.RoundTrip

/-! A client that replays the events of its tenant page by page. -/
namespace SkidMonitor

open Fallible List
open Pages (IsPage Paged)

variable {rows events : List EventRow} {t : TenantId} {after : ℤ} {limit maxBytes : ℕ}

section Window

theorem mem_rankedMetadata {ordinal total : ℕ} {m : ℤ × ℕ × ℕ} :
    m ∈ rankedMetadata ordinal total rows ↔ ∃ j, ∃ row, rows[j]? = some row ∧
      m = (row.cursor, ordinal + j, total + ((rows.take (j + 1)).map EventRow.payloadBytes).sum) := by
  induction rows generalizing ordinal total with
  | nil => simp [rankedMetadata]
  | cons row rows ih =>
    rw [rankedMetadata, mem_cons, ih]
    constructor
    · rintro (rfl | ⟨j, row', hrow', rfl⟩)
      · exact ⟨0, row, rfl, by simp⟩
      · refine ⟨j + 1, row', hrow', ?_⟩
        simp only [take_succ_cons, map_cons, sum_cons]
        rw [Nat.add_assoc, Nat.add_assoc, Nat.add_comm 1]
    · rintro ⟨j, row', hrow', rfl⟩
      cases j with
      | zero =>
        cases hrow'
        exact .inl (by simp)
      | succ j =>
        refine .inr ⟨j, row', hrow', ?_⟩
        simp only [take_succ_cons, map_cons, sum_cons]
        rw [Nat.add_assoc, Nat.add_assoc, Nat.add_comm 1]

/-- The rows up to the one at a place are those with no larger cursor. -/
theorem filter_le_of_getElem? (h : rows.Pairwise fun r r' => r.cursor < r'.cursor) {j : ℕ}
    {row : EventRow} (hrow : rows[j]? = some row) :
    (rows.filter fun r => r.cursor ≤ row.cursor) = rows.take (j + 1) := by
  induction rows generalizing j with
  | nil => cases hrow
  | cons first rows ih =>
    obtain ⟨hfirst, hrows⟩ := pairwise_cons.mp h
    cases j with
    | zero =>
      cases hrow
      rw [filter_cons_of_pos (by simp), take_succ_cons, take_zero]
      refine congrArg _ (filter_eq_nil_iff.mpr fun r hr => ?_)
      simpa using hfirst r hr
    | succ j =>
      have hlt := hfirst row (mem_of_getElem? hrow)
      rw [filter_cons_of_pos (by simpa using hlt.le), ih hrows hrow, take_succ_cons]

theorem pairwise_byCursor (h : (rows.map EventRow.cursor).Nodup) :
    (byCursor rows).Pairwise fun r r' => r.cursor < r'.cursor := by
  have hsorted : (byCursor rows).Pairwise fun r r' => r.cursor ≤ r'.cursor :=
    pairwise_insertionSort _ _
  have hnodup : (byCursor rows).Pairwise fun r r' => r.cursor ≠ r'.cursor := by
    have hperm := (perm_insertionSort (fun a b : EventRow => a.cursor ≤ b.cursor) rows).map
      EventRow.cursor
    exact pairwise_map.mp (hperm.nodup_iff.mpr h)
  exact (hsorted.and hnodup).imp fun ⟨hle, hne⟩ => lt_of_le_of_ne hle hne

/-- The rows whose cursors compete for the end of the page. -/
def eligible (rows : List EventRow) (limit maxBytes : ℕ) : List ℤ :=
  ((rankedMetadata 1 0 (rows.take limit)).filter fun m => m.2.1 = 1 ∨ m.2.2 ≤ maxBytes).map (·.1)

theorem mem_eligible {c : ℤ} : c ∈ eligible rows limit maxBytes ↔
    ∃ j, ∃ row, j < limit ∧ rows[j]? = some row ∧ row.cursor = c ∧
      (j = 0 ∨ ((rows.take (j + 1)).map EventRow.payloadBytes).sum ≤ maxBytes) := by
  have htake : ∀ {j}, j < limit → (rows.take limit).take (j + 1) = rows.take (j + 1) := by
    intro j hj
    rw [take_take, Nat.min_eq_left hj]
  simp only [eligible, mem_map, mem_filter, mem_rankedMetadata, getElem?_take,
    Option.ite_none_right_eq_some, decide_eq_true_eq]
  constructor
  · rintro ⟨_, ⟨⟨j, row, ⟨hj, hrow⟩, rfl⟩, hkeep⟩, rfl⟩
    rw [htake hj, Nat.zero_add] at hkeep
    exact ⟨j, row, hj, hrow, rfl, hkeep.imp (fun h : 1 + j = 1 => by omega) id⟩
  · rintro ⟨j, row, hj, hrow, rfl, hkeep⟩
    refine ⟨_, ⟨⟨j, row, ⟨hj, hrow⟩, rfl⟩, ?_⟩, rfl⟩
    rw [htake hj, Nat.zero_add]
    exact hkeep.imp (fun h : j = 0 => by rw [h]) id

theorem loadBounded_eq
    (h : byCursor (events.filter fun r => r.tenantId = t ∧ after < r.cursor) = rows) :
    loadBounded events t after limit maxBytes =
      match (eligible rows limit maxBytes).max? with
      | none => []
      | some cutoff => rows.filter fun r => r.cursor ≤ cutoff := by
  rw [← h]
  rfl

/-- The bounded load returns the next page. -/
theorem loadBounded_isPage {items : List EventRow}
    (hitems : byCursor (events.filter fun r => r.tenantId = t ∧ after < r.cursor) = items)
    (h : items.Pairwise fun r r' => r.cursor < r'.cursor) (hlimit : 1 ≤ limit) :
    IsPage EventRow.payloadBytes limit maxBytes items
      (loadBounded events t after limit maxBytes) := by
  rw [loadBounded_eq hitems]
  cases hcutoff : (eligible items limit maxBytes).max? with
  | none =>
    have hnil : items = [] := by
      rw [max?_eq_none_iff] at hcutoff
      cases items with
      | nil => rfl
      | cons row items =>
        have hfirst : row.cursor ∈ eligible (row :: items) limit maxBytes :=
          mem_eligible.mpr ⟨0, row, hlimit, rfl, rfl, .inl rfl⟩
        rw [hcutoff] at hfirst
        cases hfirst
    subst hnil
    exact ⟨prefix_rfl, fun hne => absurd rfl hne,
      .inl ⟨⟨Nat.zero_le _, Nat.zero_le _⟩, fun run hrun _ => hrun.length_le⟩⟩
  | some cutoff =>
    obtain ⟨hmem, hmax⟩ := max?_eq_some_iff.mp hcutoff
    obtain ⟨j, row, hj, hrow, rfl, hkeep⟩ := mem_eligible.mp hmem
    have hlen : j < items.length := (List.getElem?_eq_some_iff.mp hrow).1
    dsimp only
    rw [filter_le_of_getElem? h hrow]
    refine Pages.isPage_take hj hlen (fun _ => by omega) (fun h2 => ?_) fun i hi hilen hsum => ?_
    · exact hkeep.resolve_left (by omega)
    · by_contra hlt
      obtain ⟨i, rfl⟩ : ∃ i', i = i' + 1 := ⟨i - 1, by omega⟩
      have hrow' := getElem?_eq_getElem (show i < items.length by omega)
      have hle := hmax _ (mem_eligible.mpr ⟨i, _, by omega, hrow', rfl, .inr hsum⟩)
      have hcursors := pairwise_iff_getElem.mp h j i hlen (by omega) (by omega)
      rw [(List.getElem?_eq_some_iff.mp hrow).2] at hcursors
      omega

end Window

section Replay

open ReadCommitted

variable {sd : Serde} {rd : Reading} {db : Db} {start : SignalCursor} {rowLimit maxJsonBytes : ℕ}

/-- The events of a tenant past a cursor, in the order of their cursors. -/
def Db.eventsPast (db : Db) (t : TenantId) (after : ℤ) : List EventRow :=
  byCursor (db.eventsAfter t after)

/-- The answer of a load on these tables, and the tables it leaves. -/
def loadOn (sd : Serde) (rd : Reading) (db : Db) (t : TenantId) (after : SignalCursor)
    (rowLimit maxJsonBytes : ℕ) : Except PgStoreError Reply × Db :=
  (pg sd).solo rd db (pg sd).idle []
    (Call.program sd (.load (.tenant t) after rowLimit maxJsonBytes))

theorem loadOn_eq {z : ℤ} (henabled : db.tenantEnabled t = some true)
    (hz : toPgI64 "cursor" start.value = .ok z) :
    loadOn sd rd db t start rowLimit maxJsonBytes =
      ((signalRecordsFromRows sd t ((loadBounded (db.slice t).events t z (boundedLoadLimit rowLimit)
        (boundedReplayJsonBytes maxJsonBytes)).map EventRow.loaded)).map Reply.loaded, db) := by
  -- The tenant sees its own row, which is enabled, and its own events.
  have hadmit : (pg sd).eval (.requireEnabledTenant t)
      ((pg sd).configure (.setTenantContext t) rd ((pg sd).configure .begin rd (pg sd).idle))
      ((pg sd).view db ([] ++ [] ++ [])) rd = .ok (some true, []) := by
    change Except.ok (((db.slice t).tenant? t).map (·.enabled), _) = _
    rw [Db.tenant?_slice]
    exact congrArg (fun r => Except.ok (r, _)) henabled
  simp only [loadOn, Call.program, loadEnvelopesAfterBounded, tenantScope, hz, beginFor,
    Prog.liftM_eq, Prog.ofExcept_ok, Prog.ok_bind]
  change (pg sd).solo rd db _ [] (.query .begin _) = _
  rw [Service.solo_query rfl rfl]
  change (pg sd).solo rd db _ _ (.query (.setTenantContext t) _) = _
  rw [Service.solo_query rfl rfl]
  change (pg sd).solo rd db _ _ (.query (.requireEnabledTenant t) _) = _
  rw [Service.solo_query hadmit rfl]
  change (pg sd).solo rd db _ [] (.query (.loadEnvelopesBounded t z _ _) _) = _
  rw [Service.solo_query rfl rfl]
  change (pg sd).solo rd db _ [] (Prog.bind (Prog.bind
    (.ofExcept (signalRecordsFromRows sd t ((loadBounded (db.slice t).events t z
      (boundedLoadLimit rowLimit)
      (boundedReplayJsonBytes maxJsonBytes)).map EventRow.loaded))) _) _) = _
  cases signalRecordsFromRows sd t ((loadBounded (db.slice t).events t z
      (boundedLoadLimit rowLimit) (boundedReplayJsonBytes maxJsonBytes)).map EventRow.loaded) with
  | error e => rfl
  | ok records =>
    change (pg sd).solo rd db _ [] (.query .commit _) = _
    rw [Service.solo_commit rfl rfl]
    rfl

/-- The cursor of the last record, or the old one when there is no record. -/
def nextAfter (after : SignalCursor) : Except PgStoreError Reply → SignalCursor
  | .ok (.loaded records) => (records.getLast?.map SignalRecord.cursor).getD after
  | _ => after

/-- The answers of loads, each from where the one before it ended. -/
def replay (sd : Serde) (rd : Reading) (t : TenantId) :
    Db → SignalCursor → List (ℕ × ℕ) → List (Except PgStoreError Reply)
  | _, _, [] => []
  | db, after, (rowLimit, maxJsonBytes) :: calls =>
    let (answer, db') := loadOn sd rd db t after rowLimit maxJsonBytes
    answer :: replay sd rd t db' (nextAfter after answer) calls

/-- An answer with the records of a page. -/
def Answers (sd : Serde) (t : TenantId) (answer : Except PgStoreError Reply)
    (page : List EventRow) : Prop :=
  ∃ records, answer = .ok (.loaded records) ∧
    List.Forall₂ (fun row record => signalRecordFromRow sd t row.loaded = .ok record) page records

variable {z : ℤ} {page rest : List EventRow} {answer : Except PgStoreError Reply}

theorem pairwise_eventsPast (hkeys : ((db.eventsOf t).map EventRow.cursor).Nodup) :
    (db.eventsPast t z).Pairwise fun r r' => r.cursor < r'.cursor :=
  pairwise_byCursor (hkeys.sublist ((filter_sublist).map _))

theorem mem_eventsPast {row : EventRow} :
    row ∈ db.eventsPast t z ↔ row ∈ db.eventsOf t ∧ z < row.cursor := by
  rw [Db.eventsPast, byCursor, mem_insertionSort, Db.eventsAfter, mem_filter,
    decide_eq_true_eq]

theorem eq_of_sorted {rows' : List EventRow}
    (h : rows.Pairwise fun r r' => r.cursor < r'.cursor)
    (h' : rows'.Pairwise fun r r' => r.cursor < r'.cursor)
    (hmem : ∀ row, row ∈ rows ↔ row ∈ rows') : rows = rows' := by
  have hnodup : ∀ {rows : List EventRow},
      rows.Pairwise (fun r r' => r.cursor < r'.cursor) → rows.Nodup :=
    fun h => h.imp fun hlt heq => by rw [heq] at hlt; exact lt_irrefl _ hlt
  have hperm := (perm_ext_iff_of_nodup (hnodup h) (hnodup h')).mpr hmem
  exact hperm.eq_of_pairwise (fun _ _ _ _ hlt hgt => absurd hgt hlt.asymm) h h'

/-- What is left past the end of a page. -/
theorem eventsPast_rest (hkeys : ((db.eventsOf t).map EventRow.cursor).Nodup)
    (hitems : db.eventsPast t z = page ++ rest) {row : EventRow}
    (hrow : page.getLast? = some row) : db.eventsPast t row.cursor = rest := by
  obtain ⟨before, rfl⟩ := getLast?_eq_some_iff.mp hrow
  have hsorted := pairwise_eventsPast (z := z) hkeys
  rw [hitems] at hsorted
  obtain ⟨hpage, hrest, hcross⟩ := pairwise_append.mp hsorted
  have hmem : ∀ r, r ∈ before ++ [row] ++ rest ↔ r ∈ db.eventsOf t ∧ z < r.cursor := fun r => by
    rw [← hitems, mem_eventsPast]
  refine eq_of_sorted (pairwise_eventsPast hkeys) hrest fun r => ?_
  rw [mem_eventsPast]
  constructor
  · rintro ⟨hr, hlt⟩
    have hz : z < row.cursor := ((hmem row).mp (by simp)).2
    rcases mem_append.mp ((hmem r).mpr ⟨hr, hz.trans hlt⟩) with hin | hin
    · rcases mem_append.mp hin with hin | hin
      · have hle := (pairwise_append.mp hpage).2.2 r hin row (mem_singleton_self row)
        exact absurd hlt hle.asymm
      · rw [mem_singleton.mp hin] at hlt
        exact absurd hlt (lt_irrefl _)
    · exact hin
  · intro hr
    exact ⟨((hmem r).mp (mem_append_right _ hr)).1, hcross row (by simp) r hr⟩

/-- The row of an event can be made into a record. -/
def Legible (sd : Serde) (t : TenantId) (row : EventRow) : Prop :=
  ∃ record, signalRecordFromRow sd t row.loaded = .ok record

/-- The limits a load goes by. -/
def bounds (call : ℕ × ℕ) : ℕ × ℕ := (boundedLoadLimit call.1, boundedReplayJsonBytes call.2)

theorem isPage_eventsPast (z : ℤ) (maxJsonBytes : ℕ)
    (hkeys : ((db.eventsOf t).map EventRow.cursor).Nodup) (hlimit : 1 ≤ rowLimit) :
    IsPage EventRow.payloadBytes (boundedLoadLimit rowLimit) (boundedReplayJsonBytes maxJsonBytes)
      (db.eventsPast t z) (loadBounded (db.slice t).events t z (boundedLoadLimit rowLimit)
        (boundedReplayJsonBytes maxJsonBytes)) :=
  loadBounded_isPage (congrArg byCursor (eventsAfter_slice db t z)) (pairwise_eventsPast hkeys)
    (Nat.le_min.mpr ⟨hlimit, by decide⟩)

/-- A load answers with the next page, and the next load starts where it ended, or it
answers with the error of a row of that page. -/
theorem load_page (rd : Reading) (henabled : db.tenantEnabled t = some true)
    (hkeys : ((db.eventsOf t).map EventRow.cursor).Nodup) (hlimit : 1 ≤ rowLimit)
    (hz : toPgI64 "cursor" start.value = .ok z) :
    ∃ page rest answer, loadOn sd rd db t start rowLimit maxJsonBytes = (answer, db) ∧
      IsPage EventRow.payloadBytes (boundedLoadLimit rowLimit)
        (boundedReplayJsonBytes maxJsonBytes) (db.eventsPast t z) page ∧
      db.eventsPast t z = page ++ rest ∧
      ((Answers sd t answer page ∧ ∃ z', toPgI64 "cursor" (nextAfter start answer).value = .ok z' ∧
          db.eventsPast t z' = rest) ∨
        ∃ row ∈ page, ∃ e, signalRecordFromRow sd t row.loaded = .error e ∧ answer = .error e) := by
  have hpage := isPage_eventsPast z maxJsonBytes hkeys hlimit
  have hload : loadOn sd rd db t start rowLimit maxJsonBytes = _ := loadOn_eq henabled hz
  generalize loadBounded (db.slice t).events t z _ _ = page at hpage hload
  obtain ⟨rest, hrest⟩ := hpage.first
  refine ⟨page, rest, _, hload, hpage, hrest.symm, ?_⟩
  cases hrecords : signalRecordsFromRows sd t (page.map EventRow.loaded) with
  | error e =>
    obtain ⟨_, hloaded, herror⟩ := mapM_error hrecords
    obtain ⟨row, hrow, rfl⟩ := mem_map.mp hloaded
    exact .inr ⟨row, hrow, e, herror, rfl⟩
  | ok records =>
    have hrecords := forall₂_map_left_iff.mp (mapM_ok hrecords)
    refine .inl ⟨⟨records, rfl, hrecords⟩, ?_⟩
    -- The next load starts after the last record, which is the last row of the page.
    cases hlast : page.getLast? with
    | none =>
      obtain rfl := getLast?_eq_none_iff.mp hlast
      cases hrecords
      exact ⟨z, hz, hrest.symm⟩
    | some row =>
      obtain ⟨record, hrecord, hrow⟩ := Table.exists_getLast? hrecords hlast
      obtain ⟨hcursor, hlt⟩ := cursorFromRow_ok (cursor_of_record hrow)
      refine ⟨row.cursor, ?_, eventsPast_rest hkeys hrest.symm hlast⟩
      change toPgI64 "cursor" ((records.getLast?.map SignalRecord.cursor).getD start).value = _
      rw [hrecord]
      exact toPgI64_ok hcursor hlt

theorem exists_past (hkeys : ((db.eventsOf t).map EventRow.cursor).Nodup)
    (hitems : db.eventsPast t z = page ++ rest) : ∃ z', db.eventsPast t z' = rest := by
  cases hlast : page.getLast? with
  | none =>
    obtain rfl := getLast?_eq_none_iff.mp hlast
    exact ⟨z, hitems⟩
  | some row => exact ⟨row.cursor, eventsPast_rest hkeys hitems hlast⟩

/-- Whatever the rows are, there are pages of them. -/
theorem exists_paged (hkeys : ((db.eventsOf t).map EventRow.cursor).Nodup) (z : ℤ)
    {calls : List (ℕ × ℕ)} (hcalls : ∀ call ∈ calls, 1 ≤ call.1) :
    ∃ pages, Paged EventRow.payloadBytes (db.eventsPast t z) (calls.map bounds) pages := by
  induction calls generalizing z with
  | nil => exact ⟨[], .nil⟩
  | cons call calls ih =>
    obtain ⟨hlimit, hcalls⟩ := forall_mem_cons.mp hcalls
    have hpage := isPage_eventsPast z call.2 hkeys hlimit
    obtain ⟨rest, hrest⟩ := hpage.first
    obtain ⟨z', rfl⟩ := exists_past hkeys hrest.symm
    obtain ⟨pages, hpages⟩ := ih z' hcalls
    exact ⟨_ :: pages, .cons hpage hrest.symm hpages⟩

/-- Loads that meet no row they cannot decode answer with the pages, and only those. -/
theorem paged_replay (sd : Serde) (rd : Reading) (henabled : db.tenantEnabled t = some true)
    (hkeys : ((db.eventsOf t).map EventRow.cursor).Nodup)
    {calls : List (ℕ × ℕ)} (hcalls : ∀ call ∈ calls, 1 ≤ call.1)
    (hz : toPgI64 "cursor" start.value = .ok z) :
    ∃ pages, Paged EventRow.payloadBytes (db.eventsPast t z) (calls.map bounds) pages ∧
      (List.Forall₂ (Answers sd t) (replay sd rd t db start calls) pages ↔
        ∀ row ∈ pages.flatten, Legible sd t row) := by
  induction calls generalizing start z with
  | nil => exact ⟨[], .nil, by simp [replay]⟩
  | cons call calls ih =>
    obtain ⟨rowLimit, maxJsonBytes⟩ := call
    obtain ⟨hlimit, hcalls⟩ := forall_mem_cons.mp hcalls
    obtain ⟨page, rest, answer, hload, hpage, hitems, hnext⟩ :=
      load_page rd henabled hkeys hlimit hz
    rw [replay, hload]
    rcases hnext with ⟨hanswer, z', hz', rfl⟩ | ⟨row, hrow, e, herror, rfl⟩
    · obtain ⟨pages, hpages, hiff⟩ := ih hcalls hz'
      refine ⟨page :: pages, .cons hpage hitems hpages, ?_⟩
      obtain ⟨records, _, hrecords⟩ := id hanswer
      have hlegible : ∀ row ∈ page, Legible sd t row := fun row hrow =>
        let ⟨record, _, hrecord⟩ := Table.exists_right hrecords hrow
        ⟨record, hrecord⟩
      rw [forall₂_cons, hiff, flatten_cons, forall_mem_append]
      exact ⟨fun h => ⟨hlegible, h.2⟩, fun h => ⟨hanswer, h.2⟩⟩
    · -- This page cannot be answered, whatever comes after it.
      obtain ⟨z', rfl⟩ := exists_past hkeys hitems
      obtain ⟨pages, hpages⟩ := exists_paged hkeys z' hcalls
      refine ⟨page :: pages, .cons hpage hitems hpages, ?_⟩
      refine iff_of_false (fun h => ?_) fun h => ?_
      · obtain ⟨⟨_, hanswer, _⟩, _⟩ := forall₂_cons.mp h
        cases hanswer
      · obtain ⟨record, hrecord⟩ := h row (mem_flatten.mpr ⟨page, mem_cons_self, hrow⟩)
        cases herror.symm.trans hrecord

/-- An event that was appended fails to decode only by its payload. -/
theorem legible_iff {s : StoreState} (hs : Reachable sd s) {row : EventRow}
    (hrow : row ∈ s.db.eventsOf t) : Legible sd t row ↔
      ∃ stored signal, fromJsonb sd row.payload = some stored ∧
        sd.signalFromValue stored = some signal := by
  obtain ⟨hmem, rfl⟩ := Db.mem_eventsOf.mp hrow
  obtain ⟨w, hw, _⟩ := reachable_sourced hs hmem
  constructor
  · rintro ⟨record, hrecord⟩
    rw [hw] at hrecord ⊢
    obtain ⟨stored, signal, hstored, hsignal, _⟩ := record_of_row hrecord
    exact ⟨stored, signal, hstored, hsignal⟩
  · rintro ⟨stored, signal, hstored, hsignal⟩
    obtain ⟨hpos, _, hlt⟩ := (reachable_consistent hs).bounded row hmem
    obtain ⟨c, hc⟩ := cursorFromRow_bounds hpos.le hlt
    rw [hw] at hstored ⊢
    have hcolumn : payloadFromColumn sd (toJsonb w.payload.value) = .ok stored :=
      orError_ok.mpr hstored
    rw [Legible, signalRecordFromRow_row, hcolumn, hc, ok_bind, ok_bind, hsignal]
    exact ⟨_, rfl⟩

/-- The pages of a replay list the events past its start. The loads answer with them exactly if
every row of these can be decoded; where the rows were appended, that is up to their payloads. -/
theorem replay_pages (rd : Reading) (db : Db) (t : TenantId) (start : SignalCursor)
    (calls : List (ℕ × ℕ)) (henabled : db.tenantEnabled t = some true)
    (hkeys : ((db.eventsOf t).map EventRow.cursor).Nodup)
    (hstart : start.value.toNat < 2 ^ 63) (hcalls : ∀ call ∈ calls, 1 ≤ call.1) :
    ∃ events pages,
      (∀ row, row ∈ events ↔ row ∈ db.eventsOf t ∧ (start.value.toNat : ℤ) < row.cursor) ∧
      events.Pairwise (fun r r' => r.cursor < r'.cursor) ∧
      Paged EventRow.payloadBytes events (calls.map fun call =>
        (min call.1 maxLoadLimit, min call.2 maxReplayJsonBytes)) pages ∧
      pages.flatten <+: events ∧ (events.length ≤ calls.length → pages.flatten = events) ∧
      (List.Forall₂ (Answers sd t) (replay sd rd t db start calls) pages ↔
        ∀ row ∈ pages.flatten, Legible sd t row) ∧
      ∀ s, Reachable sd s → s.db = db → ∀ row ∈ events, (Legible sd t row ↔
        ∃ stored signal, fromJsonb sd row.payload = some stored ∧
          sd.signalFromValue stored = some signal) := by
  have hz : toPgI64 "cursor" start.value = .ok start.value.toNat :=
    toPgI64_ok rfl (by exact_mod_cast hstart)
  obtain ⟨pages, hpages, hiff⟩ := paged_replay sd rd henabled hkeys hcalls hz
  refine ⟨_, pages, fun _ => mem_eventsPast, pairwise_eventsPast hkeys, hpages,
    hpages.flatten_isPrefix, fun hlen => hpages.flatten_eq ?_, hiff, ?_⟩
  · rwa [length_map]
  · rintro s hs rfl row hrow
    exact legible_iff hs (mem_eventsPast.mp hrow).1

/-- Two events, and a budget that has no room for both. -/
theorem replay_pages_sample :
    let s := Sample.reached (Sample.append 0 (Sample.logs Sample.tenant 3) 1 ++
      Sample.append 1 (Sample.logs Sample.tenant 4) 2)
    ∃ pages, List.Forall₂ (Answers Sample.serde Sample.tenant)
        (replay Sample.serde ⟨10, 0⟩ Sample.tenant s.db ⟨0⟩ [(10, 1), (1, 1000)]) pages ∧
      ∀ row, row ∈ pages.flatten ↔ row ∈ s.db.eventsOf Sample.tenant ∧ 0 < row.cursor := by
  intro s
  have hread : ∀ row ∈ s.db.eventsOf Sample.tenant,
      (signalRecordFromRow Sample.serde Sample.tenant row.loaded).isOk = true := by decide +kernel
  obtain ⟨events, pages, hmem, hsorted, _, hhead, hall, hiff, _⟩ :=
    @replay_pages Sample.serde ⟨10, 0⟩ s.db Sample.tenant ⟨0⟩ [(10, 1), (1, 1000)] (by decide +kernel)
    (by decide +kernel) (by decide) (by decide)
  have hnodup : events.Nodup := hsorted.imp fun hlt heq => by rw [heq] at hlt; exact lt_irrefl _ hlt
  have hlen : events.length ≤ 2 :=
    (subperm_of_subset hnodup fun row hrow => ((hmem row).mp hrow).1).length_le
  refine ⟨pages, hiff.mpr fun row hrow => ?_, hall hlen ▸ hmem⟩
  exact exists_ok (hread row ((hmem row).mp (hhead.subset hrow)).1)

/-- An accepted gauge of the largest double stops every replay that comes to it. -/
theorem unreadable_event_stops_replay :
    let s := Sample.reached (Sample.append 0 (Sample.signal largestGauge 3) 1 ++
      Sample.append 1 (Sample.logs Sample.tenant 4) 2)
    s.log.map (·.2.2) = [.ok (.appended ⟨⟨1⟩, true⟩), .ok (.appended ⟨⟨2⟩, true⟩)] ∧
      replay Sample.serde ⟨10, 0⟩ Sample.tenant s.db ⟨0⟩ [(10, 1000), (1, 1000), (1, 0)] =
        List.replicate 3 (.error (.database .columnDecode)) := by
  decide +kernel

end Replay

end SkidMonitor
