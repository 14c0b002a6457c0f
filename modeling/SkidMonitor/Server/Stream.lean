import SkidMonitor.Lib.Feed
import SkidMonitor.Server.History
import SkidMonitor.Server.RoundTrip

/-! The task that streams the signals of a tenant to one client, next to the store and everyone who
uses it. -/
namespace SkidMonitor

open ReadCommitted List

/-- What a task was started with. -/
structure StreamConfig where
  tenantId : TenantId
  start : SignalCursor
  authorizedUntilUnix : ℕ
  batchSize : ℕ
  batchBytes : ℕ

/-- Where a task is: before its loop, at the head of the loop, waiting for a replay slot, before its
query, in it, before a record, with a record to serialize, in a send, and in the inner loop. -/
inductive StreamPhase where
  | starting
  | checking
  | acquiring
  | permitted
  | loading (session : ℕ)
  | sending (record : SignalRecord) (rest : List SignalRecord)
  | serializing (record : SignalRecord) (rest : List SignalRecord)
  | inFlight (record : SignalRecord) (rest : List SignalRecord)
  | waiting
  | ended

/-- `started` are the records whose send was started, `sent` those whose send has succeeded; `timer`
is the reading that the expiry timer was set by, `checks` are the readings that were compared with
the end of the authorization. -/
structure StreamTask where
  cursor : SignalCursor
  phase : StreamPhase
  started : List SignalRecord
  sent : List SignalRecord
  timer : Option ℕ
  checks : List ℕ

inductive ClientMessage where
  | closed
  | ping (answered : Bool)
  | other

inductive StreamEvent where
  | clock (now : ℕ)
  | expired
  | permit
  | capacityClosed
  | load (session : ℕ)
  | loaded
  | serialized
  | unserializable
  | delivered
  | sendFailed
  | sendTimeout
  | notified (changedTenant : TenantId)
  | lagged
  | notificationsClosed
  | tick
  | message (message : ClientMessage)

namespace StreamPhase

/-- The records of the page whose send has not been started. -/
def left : StreamPhase → List SignalRecord
  | .sending record rest | .serializing record rest => record :: rest
  | .inFlight _ rest => rest
  | _ => []

/-- The record whose send has been started and has not ended. -/
def flying : StreamPhase → List SignalRecord
  | .inFlight record _ => [record]
  | _ => []

/-- There is no page. -/
def Pageless (phase : StreamPhase) : Prop := phase.left = [] ∧ phase.flying = []

end StreamPhase

namespace StreamTask

variable (config : StreamConfig) (task : StreamTask)

def begin : StreamTask := ⟨config.start, .starting, [], [], none, []⟩

def goto (phase : StreamPhase) : StreamTask := { task with phase }

/-- The query of the task. -/
def query : Call := .load (.tenant config.tenantId) task.cursor config.batchSize config.batchBytes

/-- The clock is compared with the end of the authorization. -/
def check (now : ℕ) (phase : StreamPhase) : StreamTask :=
  { task with
    checks := task.checks ++ [now]
    phase := if now ≥ config.authorizedUntilUnix then .ended else phase }

/-- The records that are left are sent; after the last one the task asks for more. -/
def sendNext : List SignalRecord → StreamPhase
  | [] => .checking
  | record :: rest => .sending record rest

/-- What a task does by itself; `answer` is the answer to its query. -/
def step (answer : ℕ → Option (Except PgStoreError Reply)) : StreamEvent → Option StreamTask
  | .clock now => match task.phase with
    | .starting => some { task with timer := some now, phase := .checking }
    | .checking => some (task.check config now .acquiring)
    | .sending record rest => some (task.check config now (.serializing record rest))
    | _ => none
  | .expired => match task.phase with
    | .acquiring | .inFlight _ _ | .waiting => some (task.goto .ended)
    | _ => none
  | .permit => match task.phase with
    | .acquiring => some (task.goto .permitted)
    | _ => none
  | .capacityClosed => match task.phase with
    | .acquiring => some (task.goto .ended)
    | _ => none
  | .load session => match task.phase with
    | .permitted => some (task.goto (.loading session))
    | _ => none
  | .loaded => match task.phase with
    | .loading session => (answer session).map fun
      | .ok (.loaded (record :: rest)) => task.goto (.sending record rest)
      | .ok (.loaded []) => task.goto .waiting
      | _ => task.goto .ended
    | _ => none
  | .serialized => match task.phase with
    | .serializing record rest => some { task with
        cursor := record.cursor
        phase := .inFlight record rest
        started := task.started ++ [record] }
    | _ => none
  | .unserializable => match task.phase with
    | .serializing _ _ => some (task.goto .ended)
    | _ => none
  | .delivered => match task.phase with
    | .inFlight record rest => some { task with
        phase := sendNext rest
        sent := task.sent ++ [record] }
    | _ => none
  | .sendFailed | .sendTimeout => match task.phase with
    | .inFlight _ _ => some (task.goto .ended)
    | _ => none
  | .notified changedTenant => match task.phase with
    | .waiting =>
      some (if changedTenant ≠ config.tenantId then task else task.goto .checking)
    | _ => none
  | .lagged | .tick => match task.phase with
    | .waiting => some (task.goto .checking)
    | _ => none
  | .notificationsClosed => match task.phase with
    | .waiting => some (task.goto .ended)
    | _ => none
  | .message message => match task.phase with
    | .waiting => some (match message with
      | .closed | .ping false => task.goto .ended
      | .ping true | .other => task)
    | _ => none

/-- What a task can do. -/
inductive Move (answer : ℕ → Option (Except PgStoreError Reply)) :
    StreamEvent → StreamTask → Prop where
  | timed (now : ℕ) : task.phase = .starting →
      Move answer (.clock now) { task with timer := some now, phase := .checking }
  | headChecked (now : ℕ) : task.phase = .checking →
      Move answer (.clock now) (task.check config now .acquiring)
  | recordChecked (now : ℕ) (record : SignalRecord) (rest : List SignalRecord) :
      task.phase = .sending record rest →
      Move answer (.clock now) (task.check config now (.serializing record rest))
  | page (session : ℕ) (record : SignalRecord) (rest : List SignalRecord) :
      task.phase = .loading session →
      answer session = some (.ok (.loaded (record :: rest))) →
      Move answer .loaded (task.goto (.sending record rest))
  | serialized (record : SignalRecord) (rest : List SignalRecord) :
      task.phase = .serializing record rest →
      Move answer .serialized { task with
        cursor := record.cursor
        phase := .inFlight record rest
        started := task.started ++ [record] }
  | delivered (record : SignalRecord) (rest : List SignalRecord) :
      task.phase = .inFlight record rest →
      Move answer .delivered { task with phase := sendNext rest, sent := task.sent ++ [record] }
  | went (event : StreamEvent) (phase : StreamPhase) : phase.Pageless →
      phase = .ended ∨ task.phase ≠ .ended ∧ task.phase.Pageless →
      Move answer event (task.goto phase)
  | stayed (event : StreamEvent) : Move answer event task

variable {config task} {answer : ℕ → Option (Except PgStoreError Reply)} {event : StreamEvent}
  {task' : StreamTask}

theorem step_move (h : task.step config answer event = some task') :
    task.Move config answer event task' := by
  have hended : StreamPhase.ended.Pageless := ⟨rfl, rfl⟩
  have hwent {phase : StreamPhase} (hphase : task.phase ≠ .ended ∧ task.phase.Pageless)
      (hto : phase.Pageless) : task.Move config answer event (task.goto phase) :=
    .went _ _ hto (.inr hphase)
  cases event with simp only [step] at h
  | clock now =>
    split at h <;> cases h
    · exact .timed now ‹_›
    · exact .headChecked now ‹_›
    · exact .recordChecked now _ _ ‹_›
  | loaded =>
    split at h
    · rename_i hphase
      obtain ⟨result, hresult, rfl⟩ := Option.map_eq_some_iff.mp h
      split
      · exact .page _ _ _ hphase hresult
      · exact hwent (by rw [hphase]; exact ⟨nofun, rfl, rfl⟩) ⟨rfl, rfl⟩
      · exact .went _ _ hended (.inl rfl)
    · cases h
  | serialized =>
    split at h <;> cases h
    exact .serialized _ _ ‹_›
  | delivered =>
    split at h <;> cases h
    exact .delivered _ _ ‹_›
  | expired | capacityClosed | unserializable | sendFailed | sendTimeout | notificationsClosed =>
    split at h <;> cases h <;> exact .went _ _ hended (.inl rfl)
  | permit | load session | lagged | tick =>
    split at h <;> cases h
    rename_i hphase
    exact hwent (by rw [hphase]; exact ⟨nofun, rfl, rfl⟩) ⟨rfl, rfl⟩
  | notified changedTenant =>
    split at h <;> cases h
    rename_i hphase
    split_ifs
    · exact .stayed _
    · exact hwent (by rw [hphase]; exact ⟨nofun, rfl, rfl⟩) ⟨rfl, rfl⟩
  | message message =>
    split at h <;> cases h
    split
    · exact .went _ _ hended (.inl rfl)
    · exact .went _ _ hended (.inl rfl)
    · exact .stayed _
    · exact .stayed _

end StreamTask

/-- The store and one task. -/
structure Streaming where
  store : StoreState
  task : StreamTask

inductive StreamLabel where
  | store (label : StoreLabel)
  | task (event : StreamEvent)

namespace Streaming

variable (sd : Serde) (config : StreamConfig)

/-- The answer to the query of the task, once the store has logged it. -/
def answer (w : Streaming) (session : ℕ) : Option (Except PgStoreError Reply) :=
  (w.store.log.find? fun entry => entry.1 = session ∧ entry.2.1 = w.task.query config).map (·.2.2)

/-- A query of the task is a call of the store like any other. -/
def called (w : Streaming) : StreamEvent → Option StoreState
  | .load session => (pg sd).step w.store (.start session (w.task.query config))
  | _ => some w.store

def step (w : Streaming) : StreamLabel → Option Streaming
  | .store label => ((pg sd).step w.store label).map fun store => { w with store }
  | .task event => (w.task.step config (w.answer config) event).bind fun task =>
    (w.called sd config event).map fun store => ⟨store, task⟩

/-- The task is started next to a store that has been in use. -/
def Initial (w : Streaming) : Prop := SkidMonitor.Reachable sd w.store ∧ w.task = .begin config

abbrev Reachable : Streaming → Prop := Runs.Reachable (step sd config) (Initial sd config)

end Streaming

section Gapless

variable (sd : Serde) (config : StreamConfig)

/-- The records are those of the rows, in their order. -/
def Decodes (rows : List EventRow) (records : List SignalRecord) : Prop :=
  List.Forall₂ (fun row record => signalRecordFromRow sd config.tenantId row.loaded = .ok record)
    rows records

/-- The events that the client has not seen. -/
def unseen (db : Db) : List EventRow :=
  db.eventsAfter config.tenantId config.start.value.toNat

/-- What was started and what is left of the page are the first of the unseen events, and the cursor
is where the first part ends. -/
structure Gapless (db : Db) (cursor : SignalCursor) (started left : List SignalRecord)
    (read page : List EventRow) : Prop where
  first : read ++ page <+: unseen config db
  started : Decodes sd config read started
  left : Decodes sd config page left
  cursor : (cursor.value.toNat : ℤ) =
    Feed.position EventRow.cursor (config.start.value.toNat : ℤ) read

variable {sd config} {db db' : Db} {cursor : SignalCursor} {started left records : List SignalRecord}
  {read page : List EventRow} {record : SignalRecord}

theorem Gapless.grows (h : Gapless sd config db cursor started left read page)
    (hgrows : db.Grows db') : Gapless sd config db' cursor started left read page :=
  ⟨h.first.trans (hgrows.eventsAfter _ _), h.started, h.left, h.cursor⟩

/-- A page may be given up. -/
theorem Gapless.leave (h : Gapless sd config db cursor started left read page) :
    Gapless sd config db cursor started [] read [] := by
  refine ⟨?_, h.started, .nil, h.cursor⟩
  rw [append_nil]
  exact (prefix_append read page).trans h.first

theorem Gapless.send (h : Gapless sd config db cursor started (record :: left) read page) :
    ∃ row page', Gapless sd config db record.cursor (started ++ [record]) left
      (read ++ [row]) page' := by
  cases page with
  | nil => cases h.left
  | cons row page =>
    cases h.left with
    | cons hrow hleft =>
      refine ⟨row, page, ?_, rel_append h.started (.cons hrow .nil), hleft, ?_⟩
      · rw [append_assoc]
        exact h.first
      · rw [Feed.position, getLast?_append]
        exact (record_cursor hrow).symm

/-- A page that was loaded from the cursor on follows what was read. -/
theorem Gapless.load (h : Gapless sd config db cursor started left read page)
    (hsorted : (db.eventsOf config.tenantId).Pairwise fun r r' => r.cursor < r'.cursor)
    (hloaded : Loaded sd (.tenant config.tenantId) cursor records db) :
    ∃ rows, Gapless sd config db cursor started records read rows := by
  obtain ⟨t, z, rows, hscope, hz, hrows, hrecords⟩ := hloaded
  cases hscope
  have hcursor : z = cursor.value.toNat := by
    unfold toPgI64 at hz
    split_ifs at hz
    cases hz
    rfl
  have hread : read <+: unseen config db := (prefix_append read page).trans h.first
  refine ⟨rows, ?_, h.started, ?_, h.cursor⟩
  · have hsplit : unseen config db = read ++ db.eventsAfter config.tenantId z := by
      rw [hcursor, h.cursor]
      exact Feed.filter_eq_append hsorted hread
    rw [hsplit]
    exact (prefix_append_right_inj read).mpr hrows
  · exact forall₂_map_left_iff.mp (Fallible.mapM_ok hrecords)

end Gapless

namespace Streaming

variable {sd : Serde} {config : StreamConfig} {w w' : Streaming} {label : StreamLabel}

/-- What holds of the task in every state. -/
structure Holds (sd : Serde) (config : StreamConfig) (db : Db) (task : StreamTask) : Prop where
  gapless : ∃ read page, Gapless sd config db task.cursor task.started task.phase.left read page
  sent : task.sent <+: task.started
  flight : task.phase = .ended ∨ task.started = task.sent ++ task.phase.flying
  within : task.phase = .ended ∨ ∀ now ∈ task.checks, now < config.authorizedUntilUnix
  checked : ∀ record rest, task.phase = .serializing record rest → task.checks ≠ []

theorem Holds.grows {db db' : Db} {task : StreamTask} (h : Holds sd config db task)
    (hgrows : db.Grows db') : Holds sd config db' task := by
  obtain ⟨read, page, hgapless⟩ := h.gapless
  exact ⟨⟨read, page, hgapless.grows hgrows⟩, h.sent, h.flight, h.within, h.checked⟩

/-- A check lets the task go on just if the authorization has not ended. -/
theorem Holds.check {db : Db} {task : StreamTask} {now : ℕ} {phase : StreamPhase}
    (h : Holds sd config db task) (hphase : task.phase ≠ .ended)
    (hleft : phase.left = task.phase.left) (hflying : phase.flying = task.phase.flying) :
    Holds sd config db (task.check config now phase) := by
  obtain ⟨read, page, hgapless⟩ := h.gapless
  unfold StreamTask.check
  by_cases hnow : now ≥ config.authorizedUntilUnix
  · rw [if_pos hnow]
    exact ⟨⟨read, [], hgapless.leave⟩, h.sent, .inl rfl, .inl rfl, nofun⟩
  · rw [if_neg hnow]
    refine ⟨⟨read, page, ?_⟩, h.sent, .inr ?_, .inr ?_, fun _ _ _ => by simp⟩
    · rw [hleft]
      exact hgapless
    · rw [hflying]
      exact h.flight.resolve_left hphase
    · intro n hn
      rcases mem_append.mp hn with hn | hn
      · exact h.within.resolve_left hphase n hn
      · rw [mem_singleton.mp hn]
        exact not_le.mp hnow

theorem Holds.move {store : StoreState} {task task' : StreamTask} {event : StreamEvent}
    (hstore : SkidMonitor.Reachable sd store) (h : Holds sd config store.db task)
    (hmove : task.Move config (answer config ⟨store, task⟩) event task') :
    Holds sd config store.db task' := by
  obtain ⟨read, page, hgapless⟩ := h.gapless
  cases hmove with
  | timed now hphase =>
    have hleft : task.phase.left = [] := by rw [hphase]; rfl
    rw [hleft] at hgapless
    refine ⟨⟨read, page, hgapless⟩, h.sent, .inr ?_, .inr ?_, nofun⟩
    · have hflight := h.flight
      rw [hphase] at hflight
      exact hflight.resolve_left nofun
    · have hwithin := h.within
      rw [hphase] at hwithin
      exact hwithin.resolve_left nofun
  | headChecked _ hphase | recordChecked _ _ _ hphase =>
    refine h.check ?_ ?_ ?_ <;> rw [hphase]
    · nofun
    · rfl
    · rfl
  | page session record rest hphase hanswer =>
    obtain ⟨entry, hentry, hresult⟩ := Option.map_eq_some_iff.mp hanswer
    have hfound := find?_some hentry
    obtain ⟨i, c, res⟩ := entry
    obtain ⟨_, rfl⟩ : i = session ∧ c = task.query config := of_decide_eq_true hfound
    cases hresult
    obtain ⟨_, hrecords, hloaded⟩ :=
      (reachable_invariant hstore).logged _ _ _ (mem_of_find?_eq_some hentry)
    cases hrecords
    have hsorted := (reachable_consistent hstore).sorted config.tenantId
    obtain ⟨rows, hpage⟩ := hgapless.load hsorted hloaded
    have hflight := h.flight
    have hwithin := h.within
    rw [hphase] at hflight hwithin
    exact ⟨⟨read, rows, hpage⟩, h.sent, .inr (hflight.resolve_left nofun),
      .inr (hwithin.resolve_left nofun), nofun⟩
  | serialized record rest hphase =>
    have hflight := h.flight
    have hwithin := h.within
    rw [hphase] at hgapless hflight hwithin
    obtain ⟨row, page', hsend⟩ := hgapless.send
    have hstarted := hflight.resolve_left nofun
    refine ⟨⟨read ++ [row], page', hsend⟩, h.sent.trans (prefix_append _ _), .inr ?_,
      .inr (hwithin.resolve_left nofun), nofun⟩
    rw [hstarted]
    simp [StreamPhase.flying]
  | delivered record rest hphase =>
    have hflight := h.flight
    have hwithin := h.within
    rw [hphase] at hgapless hflight hwithin
    have hstarted : task.started = task.sent ++ [record] := hflight.resolve_left nofun
    have hnext : (StreamTask.sendNext rest).left = rest ∧
        (StreamTask.sendNext rest).flying = [] := by
      cases rest <;> exact ⟨rfl, rfl⟩
    refine ⟨⟨read, page, ?_⟩, ?_, .inr ?_, .inr (hwithin.resolve_left nofun), ?_⟩
    · rw [hnext.1]
      exact hgapless
    · exact ⟨[], by rw [append_nil, hstarted]⟩
    · rw [hnext.2, hstarted, append_nil]
    · cases rest <;> nofun
  | went _ phase hphase hprior =>
    refine ⟨⟨read, [], ?_⟩, h.sent, ?_, ?_, ?_⟩
    · change Gapless sd config store.db task.cursor task.started phase.left read []
      rw [hphase.1]
      exact hgapless.leave
    · refine hprior.imp id fun ⟨hopen, hpageless⟩ => ?_
      have hstarted := h.flight.resolve_left hopen
      rw [hpageless.2] at hstarted
      change task.started = task.sent ++ phase.flying
      rw [hphase.2, hstarted]
    · exact hprior.imp id fun ⟨hopen, _⟩ => h.within.resolve_left hopen
    · intro record rest heq
      change phase = _ at heq
      rw [heq] at hphase
      cases hphase.1
  | stayed => exact h

theorem step_cases (h : step sd config w label = some w') :
    (w'.store = w.store ∨ ∃ l, (pg sd).step w.store l = some w'.store) ∧
      (w'.task = w.task ∨ ∃ event, w.task.Move config (answer config w) event w'.task) := by
  cases label with
  | store l =>
    obtain ⟨store, hstore, rfl⟩ := Option.map_eq_some_iff.mp h
    exact ⟨.inr ⟨l, hstore⟩, .inl rfl⟩
  | task event =>
    obtain ⟨task, htask, hrest⟩ := Option.bind_eq_some_iff.mp h
    obtain ⟨store, hstore, rfl⟩ := Option.map_eq_some_iff.mp hrest
    refine ⟨?_, .inr ⟨event, StreamTask.step_move htask⟩⟩
    unfold called at hstore
    split at hstore
    · exact .inr ⟨_, hstore⟩
    · exact .inl (Option.some.inj hstore).symm

theorem holds_step (hw : SkidMonitor.Reachable sd w.store ∧ Holds sd config w.store.db w.task)
    (h : step sd config w label = some w') :
    SkidMonitor.Reachable sd w'.store ∧ Holds sd config w'.store.db w'.task := by
  obtain ⟨hstore, htask⟩ := step_cases h
  have hholds : Holds sd config w.store.db w'.task := by
    rcases htask with heq | ⟨event, hmove⟩
    · rw [heq]
      exact hw.2
    · exact hw.2.move hw.1 hmove
  rcases hstore with heq | ⟨l, hl⟩
  · rw [heq]
    exact ⟨hw.1, hholds⟩
  · exact ⟨Runs.reachable_step hw.1 hl, hholds.grows (grows_step hl)⟩

theorem reachable_holds (h : Reachable sd config w) :
    SkidMonitor.Reachable sd w.store ∧ Holds sd config w.store.db w.task := by
  refine Runs.reachable_invariant (I := fun w => SkidMonitor.Reachable sd w.store ∧
    Holds sd config w.store.db w.task) ?_ (fun _ _ _ hw hstep => holds_step hw hstep) h
  rintro ⟨store, task⟩ ⟨hstore, rfl⟩
  refine ⟨hstore, ⟨[], [], ?_⟩, prefix_rfl, .inr rfl, .inr nofun, nofun⟩
  exact ⟨⟨_, rfl⟩, .nil, .nil, rfl⟩

/-- What a task has sent, and what it has started to send, are the first events of its tenant past
the start, in the order of their cursors; and no send starts after a check has found the
authorization at its end, nor, unless the clock is set back, after the expiry timer was set then. -/
theorem stream_sends_in_order (h : Reachable sd config w) :
    (∃ rows, rows <+: unseen config w.store.db ∧ Decodes sd config rows w.task.started) ∧
    w.task.sent <+: w.task.started ∧
    ((unseen config w.store.db).Pairwise fun r r' => r.cursor < r'.cursor) ∧
    ∀ w', step sd config w (.task .serialized) = some w' →
      (∀ now ∈ w.task.checks, now < config.authorizedUntilUnix) ∧
      ∀ first ∈ w.task.timer, (∀ now ∈ w.task.checks, first ≤ now) →
        first < config.authorizedUntilUnix := by
  obtain ⟨hstore, hholds⟩ := reachable_holds h
  obtain ⟨read, page, hgapless⟩ := hholds.gapless
  refine ⟨⟨read, (prefix_append read page).trans hgapless.first, hgapless.started⟩,
    hholds.sent, ((reachable_consistent hstore).sorted config.tenantId).filter _, ?_⟩
  intro w' hstep
  obtain ⟨task, htask, _⟩ := Option.bind_eq_some_iff.mp hstep
  have hphase : ∃ record rest, w.task.phase = .serializing record rest := by
    simp only [StreamTask.step] at htask
    split at htask
    · exact ⟨_, _, by assumption⟩
    · cases htask
  obtain ⟨record, rest, hphase⟩ := hphase
  have hwithin := hholds.within.resolve_left (by rw [hphase]; nofun)
  refine ⟨hwithin, fun first _ hlater => ?_⟩
  obtain ⟨now, hnow⟩ := exists_mem_of_ne_nil _ (hholds.checked record rest hphase)
  exact (hlater now hnow).trans_lt (hwithin now hnow)

section Sample

open Sample

def sampleConfig : StreamConfig := ⟨tenant, ⟨0⟩, 100, 10, 1000⟩

/-- Labels by which the small store gets two events, and a task finds them that sets its timer when
the clock shows `first`. -/
def sampleLabels (first : ℕ) : List StreamLabel :=
  (Sample.append 0 (logs tenant 3) 1 ++ Sample.append 1 (logs tenant 4) 2).map .store ++
    [.task (.clock first), .task (.clock 99), .task .permit, .task (.load 2)] ++
    List.replicate 5 (.store (.exec 2 ⟨10, 0⟩)) ++
    [.store (.finish 2), .task .loaded, .task (.clock 99)]

def sampleRun (labels : List StreamLabel) : Option Streaming :=
  Runs.run (step serde sampleConfig) ⟨Sample.store, .begin sampleConfig⟩ labels

theorem sampleRun_reachable {labels : List StreamLabel} (h : sampleRun labels = some w) :
    Reachable serde sampleConfig w :=
  ⟨_, labels, ⟨⟨Sample.store, [], store_initial, rfl⟩, rfl⟩, h⟩

theorem stream_sends_in_order_sample : ∃ w, Reachable serde sampleConfig w ∧
    w.task.started.length = 2 ∧ ∃ rows, rows <+: unseen sampleConfig w.store.db ∧
      Decodes serde sampleConfig rows w.task.started := by
  have hlength : (sampleRun (sampleLabels 50 ++ [.task .serialized, .task .delivered,
      .task (.clock 99), .task .serialized])).map (·.task.started.length) = some 2 := by
    decide +kernel
  obtain ⟨w, hw, htwo⟩ := Option.map_eq_some_iff.mp hlength
  exact ⟨w, sampleRun_reachable hw, htwo, (stream_sends_in_order (sampleRun_reachable hw)).1⟩

/-- The clock shows the end of the authorization when the timer is set, and is then set back: a
record is sent. -/
theorem send_after_clock_set_back : sampleConfig.authorizedUntilUnix = 100 ∧
    (sampleRun (sampleLabels 100)).map (fun w => (w.task.timer, w.task.started.length)) =
      some (some 100, 0) ∧
    (sampleRun (sampleLabels 100 ++ [.task .serialized])).map
      (fun w => (w.task.timer, w.task.started.length)) = some (some 100, 1) :=
  ⟨rfl, by decide +kernel, by decide +kernel⟩

end Sample

end Streaming

end SkidMonitor
