import SkidMonitor.Lib.Hiding
import SkidMonitor.Lib.Renumbering
import SkidMonitor.Server.Issues

/-! What the calls of one tenant return does not depend on the calls of other tenants, but for
the values of the cursors. -/
namespace SkidMonitor

open ReadCommitted List
open Renumbering (Renames Redraws)
open Uuids (Uuid)

section Renaming

/-- A renaming of the cursors, which are less than `2 ^ 63`. -/
abbrev Renamed (last : ℤ) (drawn : ℤ → Prop) (f : ℤ → ℤ) : Prop := Renames last (2 ^ 63) drawn f

def renameU64 (f : ℤ → ℤ) (value : UInt64) : UInt64 := UInt64.ofNat (f value.toNat).toNat

def SignalCursor.rename (f : ℤ → ℤ) (cursor : SignalCursor) : SignalCursor :=
  ⟨renameU64 f cursor.value⟩

def SignalRecord.rename (f : ℤ → ℤ) (record : SignalRecord) : SignalRecord :=
  { record with cursor := record.cursor.rename f }

def AppendOutcome.rename (f : ℤ → ℤ) (outcome : AppendOutcome) : AppendOutcome :=
  { outcome with cursor := outcome.cursor.rename f }

def ProjectionRecord.rename (f : ℤ → ℤ) (record : ProjectionRecord) : ProjectionRecord :=
  { record with lastCursor := record.lastCursor.rename f }

def Reply.rename (f : ℤ → ℤ) : Reply → Reply
  | .appended outcome => .appended (outcome.rename f)
  | .loaded records => .loaded (records.map (SignalRecord.rename f))
  | .projection record => .projection (record.map (ProjectionRecord.rename f))
  | reply => reply

def Call.rename (f : ℤ → ℤ) : Call → Call
  | .load scope after rowLimit maxJsonBytes => .load scope (after.rename f) rowLimit maxJsonBytes
  | c => c

def EventRow.rename (f : ℤ → ℤ) (row : EventRow) : EventRow := { row with cursor := f row.cursor }

def ProjectionRow.rename (f : ℤ → ℤ) (row : ProjectionRow) : ProjectionRow :=
  { row with lastCursor := f row.lastCursor }

def Db.rename (f : ℤ → ℤ) (db : Db) : Db :=
  { db with
    events := db.events.map (EventRow.rename f)
    projections := db.projections.map (ProjectionRow.rename f) }

def Write.rename (f : ℤ → ℤ) : Write → Write
  | .insertEvent row => .insertEvent (row.rename f)
  | .insertProjection row => .insertProjection (row.rename f)
  | .updateProjection t cursor projection => .updateProjection t (f cursor) projection
  | w => w

def Stmt.rename (f : ℤ → ℤ) : Stmt → Stmt
  | .updateProjection t cursor projection => .updateProjection t (f cursor) projection
  | .notify t cursor => .notify t (renameU64 f cursor)
  | .loadEnvelopesBounded t after limit maxBytes =>
    .loadEnvelopesBounded t (f after) limit maxBytes
  | st => st

def LoadedEvent.rename (f : ℤ → ℤ) (row : LoadedEvent) : LoadedEvent :=
  { row with cursor := f row.cursor }

def ExistingEvent.rename (f : ℤ → ℤ) (row : ExistingEvent) : ExistingEvent :=
  { row with cursor := f row.cursor }

def Stmt.renameResp (f : ℤ → ℤ) : (st : Stmt) → st.Resp → (st.rename f).Resp
  | .insertEvent _, cursor => Option.map f cursor
  | .selectEvent _ _ _, row => Option.map (ExistingEvent.rename f) row
  | .loadEnvelopesBounded _ _ _ _, rows => List.map (LoadedEvent.rename f) rows
  | .selectProjection _, row => Option.map (Prod.map f id) row
  | .begin, r | .setTenantContext _, r | .requireEnabledTenant _, r | .advisoryLock _, r
  | .selectAgentEnabled _ _, r | .insertProjection _ _, r | .selectProjectionForUpdate _, r
  | .updateProjection _ _ _, r | .touchAgent _ _, r | .notify _ _, r | .listAgents _, r
  | .agentCardinality _ _, r | .upsertAgent _ _ _, r | .setAgentEnabled _ _ _, r
  | .upsertTenant _ _ _, r | .insertAudit _, r | .cleanupStreamTickets _, r
  | .createStreamTicket _ _ _ _ _, r | .consumeStreamTicket _ _, r | .commit, r => r

/-- The statements with no cursor in them or in their answer. -/
def Stmt.Bare : Stmt → Prop
  | .insertEvent _ | .selectEvent _ _ _ | .updateProjection _ _ _ | .notify _ _
  | .loadEnvelopesBounded _ _ _ _ | .selectProjection _ => False
  | _ => True

/-- The calls with no cursor in what they say. -/
def Call.Bare : Call → Prop
  | .append _ | .load _ _ _ _ | .loadProjection _ => False
  | _ => True

variable {f : ℤ → ℤ} {last : ℤ} {drawn : ℤ → Prop} (hf : Renamed last drawn f) (hlast : 0 ≤ last)
include hf hlast

theorem fromPgI64_rename (field : String) (z : ℤ) :
    fromPgI64 field (f z) = (fromPgI64 field z).map (renameU64 f) := by
  unfold fromPgI64
  simp only [hf.nonneg_iff hlast, hf.lt_bound_iff]
  split
  · rename_i hz
    have hcast : ((UInt64.ofNat z.toNat).toNat : ℤ) = z := by
      rw [UInt64.toNat_ofNat', Nat.mod_eq_of_lt (by omega)]
      omega
    rw [Except.map, renameU64, hcast]
  · rfl

theorem cursorFromRow_rename (z : ℤ) :
    cursorFromRow (f z) = (cursorFromRow z).map (SignalCursor.rename f) := by
  unfold cursorFromRow
  rw [fromPgI64_rename hf hlast]
  cases fromPgI64 "cursor" z <;> rfl

theorem toPgI64_rename (field : String) (value : UInt64) :
    toPgI64 field (renameU64 f value) = (toPgI64 field value).map f := by
  have hpos : 0 ≤ f value.toNat := (hf.nonneg_iff hlast _).mpr (by omega)
  have hlt : f value.toNat < 2 ^ 64 := by
    by_cases h : (value.toNat : ℤ) < 2 ^ 63
    · have := hf.bounded h
      omega
    · have := value.toNat_lt
      rw [hf.beyond (by omega)]
      omega
  have hcast : ((renameU64 f value).toNat : ℤ) = f value.toNat := by
    rw [renameU64, UInt64.toNat_ofNat', Nat.mod_eq_of_lt (by omega)]
    omega
  have hiff := hf.lt_bound_iff value.toNat
  unfold toPgI64
  by_cases h : value.toNat < 2 ^ 63
  · rw [if_pos h, if_pos (by omega), hcast]
    rfl
  · rw [if_neg h, if_neg (by omega)]
    rfl

end Renaming

section Programs

variable {f : ℤ → ℤ} {last : ℤ} {drawn : ℤ → Prop} {α : Type}

/-- `q` is the program `p` under the renaming. -/
abbrev Echoes (f : ℤ → ℤ) {α β : Type} (g : α → β) (p : StoreM α) (q : StoreM β) : Prop :=
  p.Renamed (Stmt.rename f) (Stmt.renameResp f) g q

/-- A program without cursors stays as it is. -/
theorem echoes_self {p : StoreM α} (h : p.All Stmt.Bare) : Echoes f id p p := by
  induction p with
  | ok a => exact Prog.renamed_ok a
  | err e => exact Prog.renamed_err e
  | query st k ih =>
    obtain ⟨hst, hk⟩ := h
    cases st with
    | insertEvent | selectEvent | updateProjection | notify | loadEnvelopesBounded
    | selectProjection => exact hst.elim
    | _ => exact ⟨k, rfl, fun r => ih r (hk r)⟩

theorem Call.Issues.bare {c : Call} {st : Stmt} (h : c.Issues st) (hc : c.Bare) : st.Bare := by
  cases st with
  | insertEvent | selectEvent | updateProjection | notify =>
    obtain ⟨_, rfl, _⟩ := h
    exact hc.elim
  | loadEnvelopesBounded =>
    obtain ⟨_, _, _, rfl⟩ := h
    exact hc.elim
  | selectProjection =>
    cases h
    exact hc.elim
  | _ => trivial

theorem echoes_bare {c : Call} {p : StoreM α} (g : α → Reply) (hg : ∀ a, (g a).rename f = g a)
    (hp : p.All c.Issues) (hc : c.Bare) : Echoes f (Reply.rename f) (g <$> p) (g <$> p) := by
  refine (echoes_self (hp.mono fun _ h => h.bare hc)).bind fun a => ?_
  change Prog.ok (g a) = Prog.ok ((g a).rename f)
  rw [hg]

theorem beginFor_echoes (t : TenantId) : Echoes f id (beginFor t) (beginFor t) :=
  echoes_self ((beginFor_issues (c := .listAgents t) rfl).mono fun _ h => h.bare trivial)

/-- A check that reads no cursor answers alike. -/
theorem check_echoes (x : Except PgStoreError α) :
    Echoes f id (Prog.ofExcept x : StoreM α) (Prog.ofExcept x) :=
  echoes_self (Prog.all_ofExcept x)

/-- A check of a cursor answers with the name of what it answers. -/
theorem cursor_echoes {β γ δ : Type} {g : α → β} {g' : γ → δ} {x : Except PgStoreError α}
    {y : Except PgStoreError β} {k : α → StoreM γ} {k' : β → StoreM δ} (h : y = x.map g)
    (hk : ∀ a, Echoes f g' (k a) (k' (g a))) :
    Echoes f g' (Prog.ofExcept x >>= k) (Prog.ofExcept y >>= k') :=
  h ▸ (Prog.renamed_ofExcept _).bind hk

variable (hf : Renamed last drawn f) (hlast : 0 ≤ last)
include hf hlast

theorem confirmExisting_echoes (sd : Serde) (t : TenantId) (envelope : SignalEnvelope)
    (payload : Value) :
    Echoes f (AppendOutcome.rename f) (confirmExisting sd t envelope payload)
      (confirmExisting sd t envelope payload) := by
  refine ⟨_, rfl, ?_⟩
  rintro (_ | row)
  · exact Prog.renamed_err _
  · refine (check_echoes (payloadFromColumn sd row.payload)).bind fun existing => ?_
    refine Prog.renamed_ite Iff.rfl (Prog.renamed_err _) ?_
    exact cursor_echoes (cursorFromRow_rename hf hlast row.cursor) fun _ =>
      ⟨_, rfl, fun _ => Prog.renamed_ok _⟩

theorem recordInserted_echoes (t : TenantId) (envelope : SignalEnvelope) (cursor : ℤ) :
    Echoes f (AppendOutcome.rename f) (recordInserted t envelope cursor)
      (recordInserted t envelope (f cursor)) := by
  refine cursor_echoes (cursorFromRow_rename hf hlast cursor) fun c => ?_
  refine cursor_echoes (toPgI64_rename hf hlast _ c.value) fun z =>
    ⟨_, rfl, fun _ => ⟨_, rfl, ?_⟩⟩
  rintro (_ | projection)
  · exact Prog.renamed_err _
  · exact ⟨_, rfl, fun _ => ⟨_, rfl, fun _ => ⟨_, rfl, fun _ => ⟨_, rfl, fun _ =>
      Prog.renamed_ok _⟩⟩⟩⟩

theorem append_echoes (sd : Serde) (envelope : SignalEnvelope) :
    Echoes f (AppendOutcome.rename f) (appendEnvelope sd envelope)
      (appendEnvelope sd envelope) := by
  unfold appendEnvelope
  cases envelope.scope with
  | solo => exact Prog.renamed_err _
  | tenant t =>
    simp only [tenantScope, Prog.liftM_eq, Prog.ofExcept_ok, Prog.ok_bind]
    refine (check_echoes _).bind fun payload => (beginFor_echoes t).bind fun _ => ?_
    refine ⟨_, rfl, fun _ => ⟨_, rfl, ?_⟩⟩
    rintro (_ | _ | _)
    · exact Prog.renamed_err _
    · exact Prog.renamed_err _
    · refine ⟨_, rfl, ?_⟩
      rintro (_ | cursor)
      · exact confirmExisting_echoes hf hlast sd t envelope _
      · exact recordInserted_echoes hf hlast t envelope cursor

theorem signalRecordFromRow_rename (sd : Serde) (t : TenantId) (row : LoadedEvent) :
    signalRecordFromRow sd t (row.rename f) =
      (signalRecordFromRow sd t row).map (SignalRecord.rename f) := by
  change (payloadFromColumn sd row.payload >>= fun payload =>
    cursorFromRow (f row.cursor) >>= _) = _
  simp only [cursorFromRow_rename hf hlast, Fallible.bind_map, signalRecordFromRow,
    Fallible.map_bind]
  rfl

theorem load_echoes (sd : Serde) (scope : SignalScope) (after : SignalCursor)
    (rowLimit maxJsonBytes : ℕ) :
    Echoes f (List.map (SignalRecord.rename f))
      (loadEnvelopesAfterBounded sd scope after rowLimit maxJsonBytes)
      (loadEnvelopesAfterBounded sd scope (after.rename f) rowLimit maxJsonBytes) := by
  cases scope with
  | solo => exact Prog.renamed_err _
  | tenant t =>
    simp only [loadEnvelopesAfterBounded, tenantScope, Prog.liftM_eq, Prog.ofExcept_ok,
      Prog.ok_bind, SignalCursor.rename, toPgI64_rename hf hlast]
    refine (Prog.renamed_ofExcept _).bind fun z => (beginFor_echoes t).bind fun _ => ?_
    refine ⟨_, rfl, fun rows => ?_⟩
    exact cursor_echoes (Fallible.mapM_map (signalRecordFromRow_rename hf hlast sd t) rows) fun _ =>
      ⟨_, rfl, fun _ => Prog.renamed_ok _⟩

theorem loadProjection_echoes (t : TenantId) :
    Echoes f (Option.map (ProjectionRecord.rename f)) (loadProjection t) (loadProjection t) := by
  refine (beginFor_echoes t).bind fun _ => ⟨_, rfl, ?_⟩
  rintro (_ | ⟨lastCursor, projection⟩)
  · exact ⟨_, rfl, fun _ => Prog.renamed_ok _⟩
  · exact cursor_echoes (fromPgI64_rename hf hlast _ lastCursor) fun _ =>
      ⟨_, rfl, fun _ => Prog.renamed_ok _⟩

theorem program_echoes (sd : Serde) (c : Call) :
    Echoes f (Reply.rename f) (c.program sd) ((c.rename f).program sd) := by
  cases c with
  | append envelope => exact (append_echoes hf hlast sd envelope).bind fun _ => rfl
  | load scope after rowLimit maxJsonBytes =>
    exact (load_echoes hf hlast sd scope after rowLimit maxJsonBytes).bind fun _ => rfl
  | loadProjection t => exact (loadProjection_echoes hf hlast t).bind fun _ => rfl
  | upsertTenant => exact echoes_bare _ (fun _ => rfl) (upsertTenant_issues ..) trivial
  | listAgents => exact echoes_bare _ (fun _ => rfl) (listAgents_issues _) trivial
  | enroll => exact echoes_bare _ (fun _ => rfl) (enroll_issues ..) trivial
  | setEnabled => exact echoes_bare _ (fun _ => rfl) (setEnabled_issues ..) trivial
  | createTicket => exact echoes_bare _ (fun _ => rfl) (createTicket_issues ..) trivial
  | consumeTicket => exact echoes_bare _ (fun _ => rfl) (consumeTicket_issues ..) trivial
  | cleanupTickets => exact echoes_bare _ (fun _ => rfl) (cleanupTickets_issues _) trivial

end Programs

section Tables

variable {f : ℤ → ℤ} {last : ℤ} {drawn : ℤ → Prop} {db : Db} {t : TenantId} {conn : Conn}
  {rd : Reading}

namespace Db

theorem rename_slice : (db.rename f).slice t = (db.slice t).rename f := by
  simp only [slice, rename, filter_map]
  rfl

theorem rename_visible (o : Option TenantId) :
    (db.rename f).visible o = (db.visible o).rename f := by
  cases o with
  | none => rfl
  | some t => exact rename_slice

theorem slice_slice : (db.slice t).slice t = db.slice t := by
  simp [slice, filter_filter]

theorem visible_slice {o : Option TenantId} (ho : o = none ∨ o = some t) :
    (db.slice t).visible o = db.visible o := by
  rcases ho with rfl | rfl
  · rfl
  · exact slice_slice

theorem event?_rename {a : Str} {sequence : ℕ} :
    (db.rename f).event? t a sequence = (db.event? t a sequence).map (EventRow.rename f) := by
  simp only [event?, rename, find?_map]
  rfl

theorem projection?_rename :
    (db.rename f).projection? t = (db.projection? t).map (ProjectionRow.rename f) := by
  simp only [projection?, rename, find?_map]
  rfl

end Db

/-- The order of these rows is that of their names after the renaming. -/
def Ordered (last : ℤ) (drawn : ℤ → Prop) (rows : List EventRow) : Prop :=
  ∀ r ∈ rows, r.cursor ≤ last ∨ drawn r.cursor

theorem Ordered.le_iff (hf : Renamed last drawn f) {rows : List EventRow}
    (h : Ordered last drawn rows) {r : EventRow} (hr : r ∈ rows) (x : ℤ) :
    f r.cursor ≤ f x ↔ r.cursor ≤ x := by
  rw [← not_lt, ← not_lt, hf.lt_iff (h r hr)]

theorem byCursor_rename (hf : Renamed last drawn f) {rows : List EventRow}
    (h : Ordered last drawn rows) :
    byCursor (rows.map (EventRow.rename f)) = (byCursor rows).map (EventRow.rename f) := by
  refine (map_insertionSort _ _ _ _ fun a ha b _ => ?_).symm
  exact (h.le_iff hf ha b.cursor).symm

theorem rankedMetadata_rename (rows : List EventRow) (ordinal total : ℕ) :
    rankedMetadata ordinal total (rows.map (EventRow.rename f)) =
      (rankedMetadata ordinal total rows).map (Prod.map f id) := by
  induction rows generalizing ordinal total with
  | nil => rfl
  | cons row rows ih => exact congrArg (_ :: ·) (ih _ _)

theorem max?_map (hf : Monotone f) (xs : List ℤ) : (xs.map f).max? = xs.max?.map f := by
  cases xs with
  | nil => rfl
  | cons x xs =>
    simp only [map_cons, max?_cons', Option.map_some, Option.some.injEq]
    induction xs generalizing x with
    | nil => rfl
    | cons y xs ih =>
      simp only [map_cons, foldl_cons, ← hf.map_max]
      exact ih _

theorem loadBounded_rename (hf : Renamed last drawn f) {events : List EventRow}
    (h : Ordered last drawn events) (t : TenantId) (after : ℤ) (limit maxBytes : ℕ) :
    loadBounded (events.map (EventRow.rename f)) t (f after) limit maxBytes =
      (loadBounded events t after limit maxBytes).map (EventRow.rename f) := by
  have hfilter : (events.map (EventRow.rename f)).filter
      (fun r => r.tenantId = t ∧ f after < r.cursor) =
      (events.filter fun r => r.tenantId = t ∧ after < r.cursor).map (EventRow.rename f) := by
    rw [filter_map]
    congr 1
    apply filter_congr
    intro r hr
    simp only [Function.comp_apply, EventRow.rename, hf.lt_iff (h r hr)]
  have hplaced : Ordered last drawn (events.filter fun r => r.tenantId = t ∧ after < r.cursor) :=
    fun r hr => h r (mem_of_mem_filter hr)
  have hmatching : Ordered last drawn
      (byCursor (events.filter fun r => r.tenantId = t ∧ after < r.cursor)) :=
    fun r hr => hplaced r ((mem_insertionSort _).mp hr)
  unfold loadBounded
  rw [hfilter, byCursor_rename hf hplaced]
  generalize byCursor (events.filter fun r => r.tenantId = t ∧ after < r.cursor) = rows at hmatching
  -- The size of a row and its place do not change, so the rows are cut at the same place.
  have hcutoff : (((rankedMetadata 1 0 ((rows.map (EventRow.rename f)).take limit)).filter
      fun m => m.2.1 = 1 ∨ m.2.2 ≤ maxBytes).map (·.1)).max? =
      (((rankedMetadata 1 0 (rows.take limit)).filter
        fun m => m.2.1 = 1 ∨ m.2.2 ≤ maxBytes).map (·.1)).max?.map f := by
    rw [← map_take, rankedMetadata_rename, filter_map, map_map, ← max?_map hf.mono,
      map_map]
    rfl
  dsimp only
  rw [hcutoff]
  cases (((rankedMetadata 1 0 (rows.take limit)).filter
    fun m => m.2.1 = 1 ∨ m.2.2 ≤ maxBytes).map (·.1)).max? with
  | none => rfl
  | some cutoff =>
    simp only [Option.map_some]
    rw [filter_map]
    congr 1
    apply filter_congr
    intro r hr
    simp only [Function.comp_apply, EventRow.rename, hmatching.le_iff hf hr]

theorem row_rename (hf : Renamed last drawn f) (hlast : 0 ≤ last) (event : EventInsert) {c : ℤ}
    (hc : drawn c) : event.row (f c) = (event.row c).map (EventRow.rename f) := by
  have hpos : 0 < f c ↔ 0 < c := by
    rw [← hf.lt_iff (Or.inr hc), hf.old hlast]
  unfold EventInsert.row
  split
  · rfl
  · simp only [Fallible.map_bind, EventRow.checks, hpos]
    rfl

theorem any_event_rename (events : List EventRow) (p : EventRow → Bool)
    (hp : ∀ r : EventRow, p (r.rename f) = p r) :
    (events.map (EventRow.rename f)).any p = events.any p := by
  rw [any_map]
  exact congrArg _ (funext hp)

/-- A statement with no cursor in it is answered in renamed tables as in the tables. -/
theorem eval_bare {st : Stmt} (hst : st.Bare) :
    st.eval conn (db.rename f) (rd.rename f) = st.eval conn db rd := by
  cases st with
  | insertEvent | selectEvent | updateProjection | notify | loadEnvelopesBounded
  | selectProjection => exact hst.elim
  | selectProjectionForUpdate =>
    simp only [Stmt.eval, Db.rename_visible, Db.projection?_rename, Option.map_map]
    rfl
  | begin | setTenantContext | advisoryLock | upsertAgent | upsertTenant | insertAudit
  | createStreamTicket | commit => rfl
  | consumeStreamTicket =>
    simp only [Stmt.eval, Db.rename_visible]
    rfl
  | _ =>
    simp only [Stmt.eval, Reading.rename, Db.rename_visible, Db.projection?_rename,
      Option.isSome_map] <;> rfl

theorem write_rename_of_bare (hzero : f 0 = 0) {st : Stmt} {r : st.Resp} {ws : List Write}
    (hst : st.Bare) (h : st.eval conn db rd = .ok (r, ws)) : ws.map (Write.rename f) = ws := by
  refine (map_congr_left fun w hw => ?_).trans (map_id ws)
  have hwrites := eval_writes h w hw
  cases w with
  | insertEvent row =>
    cases st with
    | insertEvent => exact hst.elim
    | _ => exact hwrites.elim
  | updateProjection =>
    cases st with
    | updateProjection => exact hst.elim
    | _ => exact hwrites.elim
  | insertProjection row =>
    cases st with
    | insertProjection t p =>
      cases hwrites
      simp only [Write.rename, ProjectionRow.rename, hzero, id_eq]
    | _ => exact hwrites.elim
  | _ => rfl

/-- Statements are answered in renamed tables as in the tables themselves, but for the names. -/
theorem eval_rename (hf : Renamed last drawn f) (hlast : 0 ≤ last)
    (hdb : Ordered last drawn db.events) (st : Stmt) (hfresh : st.draws = true → drawn rd.fresh) :
    (st.rename f).eval conn (db.rename f) (rd.rename f) =
      (st.eval conn db rd).map fun r => (st.renameResp f r.1, r.2.map (Write.rename f)) := by
  have hbare : ∀ st : Stmt, st.Bare → st.eval conn (db.rename f) (rd.rename f) =
      (st.eval conn db rd).map fun r => (r.1, r.2.map (Write.rename f)) := by
    intro st hst
    rw [eval_bare hst]
    cases h : st.eval conn db rd with
    | error e => rfl
    | ok r => simp only [Except.map, write_rename_of_bare (hf.old hlast) hst h]
  cases st with
  | insertEvent event =>
    simp only [Stmt.eval, Stmt.rename, Reading.rename, row_rename hf hlast event (hfresh rfl),
      Fallible.bind_map, Fallible.map_bind]
    congr 1
    funext row
    congr 1
    funext _
    have hclash := any_event_rename (f := f) db.events
      (fun r => r.tenantId = row.tenantId ∧ r.eventId = row.eventId) fun _ => rfl
    have hknown : ((db.rename f).event? row.tenantId row.agentId row.sequence).isSome =
        (db.event? row.tenantId row.agentId row.sequence).isSome := by
      rw [Db.event?_rename, Option.isSome_map]
    refine (if_congr (iff_of_eq (congrArg (· = true) hknown)) rfl
      (if_congr (iff_of_eq (congrArg (· = true) hclash)) rfl rfl)).trans ?_
    split
    · rfl
    · split <;> rfl
  | selectEvent t a sequence =>
    simp only [Stmt.eval, Stmt.rename, Db.rename_visible, Db.event?_rename, Fallible.map_bind]
    congr 1
    funext n
    cases (db.visible conn.tenantId).event? t a n <;> rfl
  | updateProjection t cursor projection =>
    simp only [Stmt.eval, Stmt.rename, Db.rename_visible, Db.projection?_rename, Option.isSome_map,
      Except.map]
    split <;> rfl
  | notify => rfl
  | loadEnvelopesBounded t after limit maxBytes =>
    have hplaced : Ordered last drawn (db.visible conn.tenantId).events := by
      intro r hr
      cases hconn : conn.tenantId with
      | none =>
        rw [hconn] at hr
        cases hr
      | some t =>
        rw [hconn] at hr
        exact hdb r (mem_of_mem_filter hr)
    simp only [Stmt.eval, Stmt.rename, Db.rename_visible, Except.map]
    change Except.ok (List.map EventRow.loaded (loadBounded
      ((db.visible conn.tenantId).events.map (EventRow.rename f)) t (f after) limit maxBytes), _) =
      Except.ok (List.map (LoadedEvent.rename f) (List.map EventRow.loaded _), _)
    rw [loadBounded_rename hf hplaced, map_map, map_map]
    rfl
  | selectProjection t =>
    simp only [Stmt.eval, Stmt.rename, Db.rename_visible, Db.projection?_rename]
    cases (db.visible conn.tenantId).projection? t <;> rfl
  | _ =>
    refine hbare _ ?_
    trivial

theorem locks_rename (hf : Renamed last drawn f) (hlast : 0 ≤ last) (st : Stmt)
    (hfresh : st.draws = true → drawn rd.fresh) :
    (st.rename f).locks conn (db.rename f) (rd.rename f) = st.locks conn db rd := by
  cases st with
  | insertEvent event =>
    simp only [Stmt.locks, Stmt.rename, Reading.rename, row_rename hf hlast event (hfresh rfl)]
    cases event.row rd.fresh with
    | error e => rfl
    | ok row =>
      simp only [Except.map, Db.event?_rename, Option.isSome_map]
      rfl
  | createStreamTicket => rfl
  | consumeStreamTicket =>
    simp only [Stmt.locks, Stmt.rename, Db.rename_visible]
    rfl
  | _ =>
    simp only [Stmt.locks, Stmt.rename, Reading.rename, Db.rename_visible, Db.projection?_rename,
      Option.isSome_map] <;> rfl

/-- The statements that name no tenant but `t` and look at no rows but those of `t`. -/
def Stmt.Of (t : TenantId) : Stmt → Prop
  | .begin | .advisoryLock _ | .commit => True
  | .setTenantContext t' | .requireEnabledTenant t' | .selectAgentEnabled t' _
  | .selectEvent t' _ _ | .insertProjection t' _ | .selectProjectionForUpdate t'
  | .updateProjection t' _ _ | .touchAgent t' _ | .notify t' _ | .loadEnvelopesBounded t' _ _ _
  | .listAgents t' | .selectProjection t' | .agentCardinality t' _ | .upsertAgent t' _ _
  | .setAgentEnabled t' _ _ | .cleanupStreamTickets t' | .createStreamTicket _ t' _ _ _
  | .consumeStreamTicket t' _ => t' = t
  | .insertEvent event => event.tenantId = t
  | .insertAudit row => row.tenantId = t
  | .upsertTenant _ _ _ => False

theorem row_tenant {event : EventInsert} {cursor : ℤ} {row : EventRow}
    (h : event.row cursor = .ok row) : row.tenantId = event.tenantId := by
  obtain ⟨_, _, _, _, _, _, rfl, _⟩ := row_ok.mp h
  rfl

/-- A statement of a tenant is answered from the rows of the tenant. The identifier of a new
ticket is looked up in all tickets, where none of another tenant has it. -/
theorem eval_slice {st : Stmt} (hst : st.Of t)
    (hconn : conn.tenantId = none ∨ conn.tenantId = some t)
    (hid : ∀ id t' subject ttl until', st = .createStreamTicket id t' subject ttl until' →
      ∀ r ∈ db.tickets, r.ticketId = id → r.tenantId = t) :
    st.eval conn (db.slice t) rd = st.eval conn db rd := by
  cases st with
  | upsertTenant => exact hst.elim
  | insertEvent event =>
    simp only [Stmt.eval]
    cases hrow : event.row rd.fresh with
    | error e => rfl
    | ok row =>
      have ht : row.tenantId = t := (row_tenant hrow).trans hst
      have hclash : (db.slice t).events.any
          (fun r => r.tenantId = row.tenantId ∧ r.eventId = row.eventId) =
          db.events.any fun r => r.tenantId = row.tenantId ∧ r.eventId = row.eventId := by
        simp only [Db.slice, any_filter]
        congr 1
        funext r
        simp only [ht, Bool.decide_and, ← Bool.and_assoc, Bool.and_self]
      simp only [Fallible.ok_bind, ht] at hclash ⊢
      rw [Db.event?_slice, hclash]
  | insertProjection t' =>
    cases hst
    simp only [Stmt.eval, Db.projection?_slice]
  | upsertAgent t' =>
    cases hst
    simp only [Stmt.eval, Db.agent?_slice]
  | createStreamTicket id t' subject ttl until' =>
    cases hst
    have hany : (db.slice t).tickets.any (fun r => r.ticketId = id) =
        db.tickets.any fun r => r.ticketId = id := by
      rw [Bool.eq_iff_iff]
      simp only [any_eq_true, Db.slice, mem_filter, decide_eq_true_eq]
      constructor
      · rintro ⟨r, ⟨hr, _⟩, h⟩
        exact ⟨r, hr, h⟩
      · rintro ⟨r, hr, h⟩
        exact ⟨r, ⟨hr, hid id _ subject ttl until' rfl r hr h⟩, h⟩
    simp only [Stmt.eval, hany]
  | _ => simp only [Stmt.eval, Db.visible_slice hconn]

theorem locks_slice {st : Stmt} (hst : st.Of t)
    (hconn : conn.tenantId = none ∨ conn.tenantId = some t) :
    st.locks conn (db.slice t) rd = st.locks conn db rd := by
  cases st with
  | upsertTenant => exact hst.elim
  | insertEvent event =>
    simp only [Stmt.locks]
    cases hrow : event.row rd.fresh with
    | error e => rfl
    | ok row =>
      have ht : row.tenantId = t := (row_tenant hrow).trans hst
      simp only [ht, Db.event?_slice]
  | insertProjection t' =>
    cases hst
    simp only [Stmt.locks, Db.projection?_slice]
  | _ => simp only [Stmt.locks, Db.visible_slice hconn]

theorem rename_apply (hf : Monotone f) (w : Write) :
    (db.apply w).rename f = (db.rename f).apply (w.rename f) := by
  cases w with
  | insertEvent | insertProjection => simp [Db.apply, Db.rename, Write.rename]
  | updateProjection t cursor projection =>
    simp only [Db.apply, Db.rename, Write.rename, Table.modify, map_map]
    congr 1
    apply map_congr_left
    intro r _
    by_cases ht : r.tenantId = t <;> simp [ProjectionRow.rename, ht, hf.map_max]
  | _ => rfl

end Tables

/-- Not a call of another tenant. -/
def Call.ofTenant (t : TenantId) (c : Call) : Bool := c.tenant?.all (· = t)

/-- The calls on the signals, agents and tickets of a tenant; making tenants is not among them. -/
def Call.Served : Call → Prop
  | .upsertTenant _ _ _ _ => False
  | _ => True

theorem Call.ofTenant_iff {t : TenantId} {c : Call} :
    c.ofTenant t = true ↔ ∀ t', c.tenant? = some t' → t' = t := by
  unfold Call.ofTenant
  cases c.tenant? <;> simp

theorem Call.Issues.of {c : Call} {st : Stmt} {t : TenantId} (h : c.Issues st) (hc : c.Served)
    (ht : c.ofTenant t = true) : st.Of t := by
  rw [Call.ofTenant_iff] at ht
  have happend : ∀ {envelope : SignalEnvelope} {t' : TenantId}, c = .append envelope →
      envelope.scope = .tenant t' → t' = t := by
    rintro envelope t' rfl hscope
    exact ht t' (by simp [Call.tenant?, hscope, SignalScope.tenantId])
  cases st with
  | begin | advisoryLock | commit => trivial
  | setTenantContext t' | requireEnabledTenant t' => exact ht t' h
  | selectAgentEnabled | touchAgent =>
    obtain ⟨_, hc, hscope, _⟩ := h
    exact happend hc hscope
  | insertEvent | selectEvent | insertProjection | selectProjectionForUpdate | updateProjection
  | notify =>
    obtain ⟨_, hc, hscope⟩ := h
    exact happend hc hscope
  | loadEnvelopesBounded =>
    obtain ⟨_, _, _, rfl⟩ := h
    exact ht _ rfl
  | listAgents | selectProjection | consumeStreamTicket =>
    cases h
    exact ht _ rfl
  | agentCardinality | upsertAgent =>
    obtain ⟨_, _, _, rfl, _⟩ := h
    exact ht _ rfl
  | setAgentEnabled =>
    obtain ⟨_, _, rfl, _⟩ := h
    exact ht _ rfl
  | upsertTenant =>
    obtain ⟨_, _, _, rfl⟩ := h
    exact hc.elim
  | insertAudit | cleanupStreamTickets => exact ht _ h.2
  | createStreamTicket =>
    obtain ⟨_, _, _, rfl⟩ := h
    exact ht _ rfl

theorem Stmt.Of.writes {st : Stmt} {w : Write} {t : TenantId} (h : st.Of t) (hw : st.Writes w) :
    w.tenant = t := by
  cases w <;> cases st <;> simp_all [Stmt.Writes, Stmt.Of, Write.tenant]

section Hiding

variable {f : ℤ → ℤ} {last : ℤ} {drawn : ℤ → Prop} {made : Call → Prop} {T : TenantId} {db db' : Db}
  {w : Write} {c : Call}

/-- Tickets belong to the tenant for whom their identifier was generated. -/
def Owned (made : Call → Prop) (db : Db) : Prop :=
  ∀ r ∈ db.tickets, ∀ t subject authorizedUntilUnix ttlNanos,
    made (.createTicket r.ticketId t subject authorizedUntilUnix ttlNanos) → r.tenantId = t

/-- What the calls that may be made say of each other: an identifier is generated for one tenant. -/
structure Serves (made : Call → Prop) : Prop where
  served : ∀ c, made c → c.Served
  unique : ∀ {id t t' subject subject' until' until'' ttl ttl'},
    made (.createTicket id t subject until' ttl) →
    made (.createTicket id t' subject' until'' ttl') → t = t'

/-- What is known of a write of a call. -/
structure WrittenBy (T : TenantId) (drawn : ℤ → Prop) (c : Call) (w : Write) : Prop where
  tenant : ∀ t, c.ofTenant t = true → w.tenant = t
  event : ∀ {row}, w = .insertEvent row → c.ofTenant T = true → drawn row.cursor
  ticket : ∀ {row}, w = .insertTicket row → ∃ subject authorizedUntilUnix ttlNanos,
    c = .createTicket row.ticketId row.tenantId subject authorizedUntilUnix ttlNanos

theorem writtenBy_of_eval {st : Stmt} {conn : Conn} {rd : Reading} {r : st.Resp} {ws : List Write}
    (hc : c.Served) (hst : c.Issues st)
    (hdrawn : c.ofTenant T = true → st.draws = true → drawn rd.fresh)
    (h : st.eval conn db rd = .ok (r, ws)) : ∀ w ∈ ws, WrittenBy T drawn c w := by
  intro w hw
  have hwrites := eval_writes h w hw
  constructor
  · exact fun t ht => (hst.of hc ht).writes hwrites
  · rintro row rfl ht
    cases st with
    | insertEvent event =>
      obtain ⟨row', hrow', _, ⟨_, rfl, _⟩ | ⟨_, rfl, _⟩⟩ := eval_insertEvent h
      · cases hw
      · cases mem_singleton.mp hw
        obtain ⟨_, _, _, _, _, _, rfl, _⟩ := row_ok.mp hrow'
        exact hdrawn ht rfl
    | _ => exact hwrites.elim
  · rintro row rfl
    cases st with
    | createStreamTicket id t subject ttl until' =>
      obtain ⟨rfl, rfl⟩ := hwrites
      exact hst
    | _ => exact hwrites.elim

theorem owned_apply (hmade : Serves made) (hc : made c) (hw : WrittenBy T drawn c w)
    (h : Owned made db) : Owned made (db.apply w) := by
  cases w with
  | insertTicket row =>
    intro r hr t subject until' ttl hcreate
    rcases mem_append.mp hr with hr | hr
    · exact h r hr t subject until' ttl hcreate
    · cases mem_singleton.mp hr
      obtain ⟨_, _, _, rfl⟩ := hw.ticket rfl
      exact hmade.unique hc hcreate
  | consumeTicket t' id now =>
    intro r hr t subject until' ttl hcreate
    obtain ⟨o, ho, rfl⟩ := Table.mem_modify.mp hr
    split at hcreate
    · rw [if_pos ‹_›]
      exact h o ho t subject until' ttl hcreate
    · rw [if_neg ‹_›]
      exact h o ho t subject until' ttl hcreate
  | deleteTickets =>
    intro r hr
    exact h r (mem_of_mem_filter hr)
  | _ => exact h

theorem ordered_apply (hw : WrittenBy T drawn c w) (ht : c.ofTenant T = true)
    (h : Ordered last drawn db.events) : Ordered last drawn (db.apply w).events := by
  cases w with
  | insertEvent row =>
    intro r hr
    rcases mem_append.mp hr with hr | hr
    · exact h r hr
    · cases mem_singleton.mp hr
      exact Or.inr (hw.event rfl ht)
  | _ => exact h

/-- Tables with the same rows of the tenant, but for the renaming. -/
structure Alike (T : TenantId) (f : ℤ → ℤ) (last : ℤ) (drawn : ℤ → Prop) (made : Call → Prop)
    (db db' : Db) : Prop where
  slice : db'.slice T = (db.slice T).rename f
  placed : Ordered last drawn (db.slice T).events
  owned : Owned made db
  owned' : Owned made db'

theorem write_rename_tenant (w : Write) : (w.rename f).tenant = w.tenant := by
  cases w <;> rfl

theorem tickets_apply_rename (w : Write) :
    (db.apply (w.rename f)).tickets = (db.apply w).tickets := by
  cases w <;> rfl

theorem alike_shown (hf : Renamed last drawn f) (hmade : Serves made) (hc : made c)
    (ht : c.ofTenant T = true) (hw : WrittenBy T drawn c w) (h : Alike T f last drawn made db db') :
    Alike T f last drawn made (db.apply w) (db'.apply (w.rename f)) := by
  have hT : w.tenant = T := hw.tenant T ht
  have hT' : (w.rename f).tenant = T := (write_rename_tenant w).trans hT
  have howned : Owned made (db'.apply (w.rename f)) := by
    unfold Owned
    rw [tickets_apply_rename]
    exact owned_apply hmade hc hw h.owned'
  refine ⟨?_, ?_, owned_apply hmade hc hw h.owned, howned⟩
  · rw [Db.slice_apply hT', Db.slice_apply hT, h.slice, rename_apply hf.mono]
  · rw [Db.slice_apply hT]
    exact ordered_apply hw ht h.placed

theorem alike_hidden (hmade : Serves made) (hc : made c) (ht : c.ofTenant T = false)
    (hw : WrittenBy T drawn c w) (h : Alike T f last drawn made db db') :
    Alike T f last drawn made (db.apply w) db' := by
  have hT : w.tenant ≠ T := by
    intro hT
    cases htenant : c.tenant? with
    | none => simp [Call.ofTenant, htenant] at ht
    | some t =>
      have htt : w.tenant = t := hw.tenant t (by simp [Call.ofTenant, htenant])
      simp [Call.ofTenant, htenant, ← htt, hT] at ht
  refine ⟨?_, ?_, owned_apply hmade hc hw h.owned, h.owned'⟩
  · rw [Db.slice_apply_ne hT, h.slice]
  · rw [Db.slice_apply_ne hT]
    exact h.placed

/-- The calls of other tenants are hidden, and the cursors renamed. -/
def tenantHiding (sd : Serde) (T : TenantId) (f : ℤ → ℤ) (last : ℤ) (drawn : ℤ → Prop)
    (made : Call → Prop) : ReadCommitted.Hiding (pg sd) where
  keeps := Call.ofTenant T
  stmt := Stmt.rename f
  resp := Stmt.renameResp f
  write := Write.rename f
  call := Call.rename f
  reply := Reply.rename f
  fresh := f
  drawn := drawn
  made := made
  sends := Call.Issues
  settles c conn := conn.tenantId = none ∨ conn.tenantId = c.tenant?
  writes := WrittenBy T drawn
  alike := Alike T f last drawn made

theorem settles_conn {conn : Conn} (ht : c.ofTenant T = true)
    (h : conn.tenantId = none ∨ conn.tenantId = c.tenant?) :
    conn.tenantId = none ∨ conn.tenantId = some T := by
  rcases h with h | h
  · exact Or.inl h
  · cases htenant : c.tenant? with
    | none => exact Or.inl (h.trans htenant)
    | some t =>
      rw [Call.ofTenant_iff.mp ht t htenant] at htenant
      exact Or.inr (h.trans htenant)

theorem owned_ticket {st : Stmt} (hc : made c) (hst : c.Issues st) (ht : c.ofTenant T = true)
    (h : Owned made db) (id : Uuid) (t' : TenantId) (subject : Str) (ttl until' : ℕ)
    (heq : st = .createStreamTicket id t' subject ttl until') :
    ∀ r ∈ db.tickets, r.ticketId = id → r.tenantId = T := by
  subst heq
  obtain ⟨_, _, _, rfl⟩ := hst
  rintro r hr rfl
  rw [h r hr _ _ _ _ hc]
  exact Call.ofTenant_iff.mp ht t' rfl

theorem of_rename {st : Stmt} (h : st.Of T) : (st.rename f).Of T := by
  cases st <;> exact h

theorem rename_createTicket {st : Stmt} {id : Uuid} {t' : TenantId} {subject : Str}
    {ttl until' : ℕ} (h : st.rename f = .createStreamTicket id t' subject ttl until') :
    st = .createStreamTicket id t' subject ttl until' := by
  cases st <;> first | exact h | cases h

theorem tenantHiding_sound {sd : Serde} (hf : Renamed last drawn f) (hlast : 0 ≤ last)
    (hmade : Serves made) : (tenantHiding sd T f last drawn made).Sound where
  program {c} _ _ := program_echoes hf hlast sd c
  sends := program_issues sd
  commits st := by cases st <;> rfl
  draws st := by cases st <;> rfl
  configure st rd conn := by cases st <;> rfl
  idle _ := Or.inl rfl
  settles {c st rd conn} hst h := by
    cases st with
    | setTenantContext t => exact Or.inr (Eq.symm hst)
    | _ => exact h
  eval {c st conn db db' rd} hc ht hst hconn h hdrawn := by
    have hof := hst.of (hmade.served c hc) ht
    have hconn' := settles_conn ht hconn
    have hwhole : st.eval conn (db.slice T) rd = st.eval conn db rd :=
      eval_slice hof hconn' (owned_ticket hc hst ht h.owned)
    have hwhole' : (st.rename f).eval conn (db'.slice T) (rd.rename f) =
        (st.rename f).eval conn db' (rd.rename f) :=
      eval_slice (of_rename hof) hconn' fun id t' subject ttl until' heq =>
        owned_ticket hc hst ht h.owned' id t' subject ttl until' (rename_createTicket heq)
    change (st.rename f).eval conn db' (rd.rename f) = _
    rw [← hwhole', h.slice, eval_rename hf hlast h.placed st hdrawn, hwhole]
    rfl
  locks {c st conn db db' rd} hc ht hst hconn h hdrawn := by
    have hof := hst.of (hmade.served c hc) ht
    have hconn' := settles_conn ht hconn
    change (st.rename f).locks conn db' (rd.rename f) = st.locks conn db rd
    rw [← locks_slice (of_rename hof) hconn', h.slice, locks_rename hf hlast st hdrawn,
      locks_slice hof hconn']
  writes hc hst hdrawn h := writtenBy_of_eval (hmade.served _ hc) hst hdrawn h
  shown hc ht hw h := alike_shown hf hmade hc ht hw h
  hidden hc ht hw h := alike_hidden hmade hc ht hw h
  mono := hf.mono
  strict := hf.strict
  bounded {c} _ hle := by
    have hlt : c < 2 ^ 63 := Int.lt_of_le_sub_one hle
    exact Int.le_sub_one_of_lt (hf.bounded hlt)

end Hiding

/-- No call has been made, and the cursors in the tables have been handed out. -/
structure Settled (s : StoreState) : Prop where
  idle : s.Idle
  last : 0 ≤ s.past.last
  bounded : s.past.last < 2 ^ 63
  events : ∀ r ∈ s.db.events, r.cursor ≤ s.past.last
  projections : ∀ r ∈ s.db.projections, r.lastCursor ≤ s.past.last

/-- The identifier that was generated for the call that starts here. -/
def newTicket : StoreLabel → Option Uuid
  | .start _ (.createTicket id _ _ _ _) => some id
  | _ => none

section History

variable {s t : StoreState} {labels : List StoreLabel} {T : TenantId}

theorem alike_settled {f : ℤ → ℤ} {drawn : ℤ → Prop} {made : Call → Prop} (hs : Settled s)
    (hf : Renames s.past.last (2 ^ 63) drawn f) (howned : Owned made s.db) :
    Alike T f s.past.last drawn made s.db s.db := by
  have hevents : ∀ r ∈ (s.db.slice T).events, EventRow.rename f r = r := by
    intro r hr
    simp only [EventRow.rename, hf.old (hs.events r (mem_of_mem_filter hr))]
  have hprojections : ∀ r ∈ (s.db.slice T).projections, ProjectionRow.rename f r = r := by
    intro r hr
    simp only [ProjectionRow.rename, hf.old (hs.projections r (mem_of_mem_filter hr))]
  have hevents' := (map_congr_left hevents).trans (map_id' _)
  have hprojections' := (map_congr_left hprojections).trans (map_id' _)
  refine ⟨?_, fun r hr => Or.inl (hs.events r (mem_of_mem_filter hr)), howned, howned⟩
  rw [Db.rename, hevents', hprojections']

theorem serves_labels (hserved : ∀ i c, .start i c ∈ labels → c.Served)
    (hids : (labels.filterMap newTicket).Nodup) : Serves fun c => ∃ i, .start i c ∈ labels := by
  refine ⟨fun c ⟨i, hi⟩ => hserved i c hi, ?_⟩
  rintro id t t' subject subject' until' until'' ttl ttl' ⟨i, hi⟩ ⟨j, hj⟩
  have hpair := pairwise_filterMap.mp hids
  have hsymm : Std.Symm fun l l' : StoreLabel =>
      ∀ id, newTicket l = some id → ∀ id', newTicket l' = some id' → id ≠ id' :=
    ⟨fun l l' h id hid id' hid' => (h id' hid' id hid).symm⟩
  by_contra hne
  refine hpair.forall hi hj ?_ id rfl id rfl rfl
  intro heq
  cases heq
  exact hne rfl

/-- The calls of one tenant return what they return when no other tenant makes a call, but for
the values of the cursors: whatever values `g` the database then hands out in place of those the
calls have drawn, there is a renaming of the cursors that keeps their order and agrees with
them. -/
theorem tenant_noninterference (sd : Serde) (T : TenantId) (hs : Settled s)
    (hr : Runs.run (pg sd).step s labels = some t)
    (hserved : ∀ i c, .start i c ∈ labels → c.Served)
    (hids : (labels.filterMap newTicket).Nodup)
    (hnew : ∀ id ∈ labels.filterMap newTicket, ∀ r ∈ s.db.tickets, r.ticketId ≠ id) (g : ℤ → ℤ)
    (hg : Redraws s.past.last (2 ^ 63)
      ((pg sd).Drawn (hides (Call.ofTenant T) labels) s labels) g) :
    ∃ f, Renames s.past.last (2 ^ 63) ((pg sd).Drawn (hides (Call.ofTenant T) labels) s labels) f ∧
      (∀ c, (pg sd).Drawn (hides (Call.ofTenant T) labels) s labels c → f c = g c) ∧
      ∃ t', Runs.run (pg sd).step s (reduced (Call.ofTenant T) (Call.rename f) f labels) = some t' ∧
        t'.log = answers (Call.ofTenant T) (Call.rename f) (Reply.rename f) t.log := by
  have hbounds : ∀ c, (pg sd).Drawn (hides (Call.ofTenant T) labels) s labels c →
      s.past.last < c ∧ c < 2 ^ 63 := by
    intro c hc
    obtain ⟨hlt, hle⟩ := Service.drawn_bounds hr hc
    exact ⟨hlt, Int.lt_of_le_sub_one hle⟩
  obtain ⟨f, hf, hfg⟩ := Renumbering.exists_renames hg hbounds hs.bounded
  refine ⟨f, hf, hfg, ?_⟩
  have howned : Owned (fun c => ∃ i, .start i c ∈ labels) s.db := by
    rintro r hr t' subject until' ttl ⟨i, hi⟩
    exact (hnew r.ticketId (mem_filterMap.mpr ⟨_, hi, rfl⟩) r hr rfl).elim
  have hX : (tenantHiding sd T f s.past.last
      ((pg sd).Drawn (hides (Call.ofTenant T) labels) s labels)
      fun c => ∃ i, .start i c ∈ labels).Sound :=
    tenantHiding_sound hf hs.last (serves_labels hserved hids)
  exact Hiding.run_reduced hX hs.idle (alike_settled hs hf howned) (hf.old (le_refl _)).ge hr
    (fun i c hi => ⟨i, hi⟩) fun z hz => hz

end History

namespace Sample

/-- Two tenants append an event each, and the second reads its own. -/
def shared : List StoreLabel :=
  .start 1 (.append (logs tenant 1)) :: append 0 (logs neighbour 1) 1 ++
    List.replicate 12 (.exec 1 ⟨10, 2⟩) ++ [.finish 1] ++
    .start 2 (.load (.tenant tenant) ⟨0⟩ 10 1000) :: List.replicate 5 (.exec 2 ⟨10, 2⟩) ++
    [.finish 2]

theorem shared_run : (Runs.run (pg serde).step store shared).isSome := by decide +kernel

theorem shared_drawn {z : ℤ}
    (h : (pg serde).Drawn (hides (Call.ofTenant tenant) shared) store shared z) : z = 2 := by
  obtain ⟨pre, i, rd, post, u, x, st, k, hlabels, hhid, _, _, _, _, rfl⟩ := h
  have hall : (shared.all fun l => hides (Call.ofTenant tenant) shared l.session || match l with
      | .exec _ rd => rd.fresh == 2
      | _ => true) = true := by
    decide +kernel
  have hmem : (.exec i rd : StoreLabel) ∈ shared := hlabels ▸ by simp
  have hlabel := all_eq_true.mp hall _ hmem
  rw [show hides _ _ (Label.session (.exec i rd)) = false from hhid] at hlabel
  exact beq_iff_eq.mp hlabel

/-- Without the neighbour the event may be given the cursor that the neighbour's event has. -/
theorem tenant_noninterference_shared : ∃ f : ℤ → ℤ, ∃ t',
    Runs.run (pg serde).step store (reduced (Call.ofTenant tenant) (Call.rename f) f shared) =
      some t' ∧
    t'.log =
      answers (Call.ofTenant tenant) (Call.rename f) (Reply.rename f) (reached shared).log := by
  have hsettled : Settled store :=
    ⟨store_initial.idle, Int.le_refl _, by decide, forall_mem_nil _, forall_mem_nil _⟩
  have hserved : ∀ i c, .start i c ∈ shared → c.Served := by
    intro i c hi
    simp [shared, append] at hi
    rcases hi with ⟨-, rfl⟩ | ⟨-, rfl⟩ | ⟨-, rfl⟩ <;> trivial
  have hredraws : Redraws store.past.last (2 ^ 63)
      ((pg serde).Drawn (hides (Call.ofTenant tenant) shared) store shared) fun z => z - 1 := by
    constructor
    · intro c c' hc hc' hlt
      rw [shared_drawn hc, shared_drawn hc'] at hlt
      exact (lt_irrefl _ hlt).elim
    · intro c hc
      rw [shared_drawn hc]
      decide
    · intro c hc
      rw [shared_drawn hc]
      decide
  obtain ⟨f, _, _, t', hrun, hlog⟩ := tenant_noninterference serde tenant hsettled
    (run_reached shared_run) hserved (by decide +kernel) (fun _ _ => forall_mem_nil _) _
    hredraws
  exact ⟨f, t', hrun, hlog⟩

end Sample

end SkidMonitor
