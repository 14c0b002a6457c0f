import SkidMonitor.Lib.Ledger
import SkidMonitor.Server.Protocol

/-! What the calls of the store leave behind once they have committed: audit rows, new
tickets and redeemed ones. -/
namespace SkidMonitor

open Fallible List
open ReadCommitted
open Uuids (Uuid)

inductive Entry where
  | audit (row : AuditRow)
  | issued (id : Uuid)
  | redeemed (t : TenantId) (id : Uuid)
  deriving DecidableEq

def Write.entries : Write → List Entry
  | .insertAudit row => [.audit row]
  | .insertTicket row => [.issued row.ticketId]
  | .consumeTicket t id _ => [.redeemed t id]
  | _ => []

/-- What a statement enters, as its answer tells. -/
def Stmt.entries : (st : Stmt) → st.Resp → List Entry
  | .insertAudit row, _ => [.audit row]
  | .createStreamTicket id _ _ _ _, (inserted : ℕ) => if inserted = 0 then [] else [.issued id]
  | .consumeStreamTicket t id, (row : Option (Str × ℤ)) => if row.isSome then [.redeemed t id] else []
  | _, _ => []

/-- The audit rows that go with an answer. -/
def Call.audits : Call → Reply → List AuditRow
  | .upsertTenant t slug displayName actorId, .tenant _ =>
    [⟨t, "user", Text.trim actorId, "tenant.upsert", "tenant", Uuids.print t.uuid,
      .tenant (Text.trim slug) (Text.trim displayName)⟩]
  | .enroll t a displayName actorId, .enrolled _ =>
    [⟨t, "user", Text.trim actorId, "agent.enroll", "agent", a.text,
      .enroll (normalizedDisplayName displayName)⟩]
  | .setEnabled t a enabled actorId, .enabled (some _) =>
    [⟨t, "user", Text.trim actorId, "agent.set_enabled", "agent", a.text, .setEnabled enabled⟩]
  | _, _ => []

/-- Everything that goes with an answer. -/
def Call.due (c : Call) (reply : Reply) : List Entry :=
  match c, reply with
  | .createTicket id _ _ _ _, .ticket _ => [.issued id]
  | .consumeTicket t id, .grant (some _) => [.redeemed t id]
  | c, reply => (c.audits reply).map .audit

/-- A statement enters what its answer tells. -/
theorem eval_entries {st : Stmt} {conn : Conn} {db : Db} {rd : Reading} {r : st.Resp}
    {ws : List Write} (h : st.eval conn db rd = .ok (r, ws)) :
    ws.flatMap Write.entries = st.entries r := by
  have hw := eval_writes h
  cases st with
  | insertAudit row =>
    iterate 3 obtain ⟨_, _, h⟩ := bind_ok h
    cases h
    rfl
  | createStreamTicket id t subject ttlMillis authorizedUntilUnix =>
    obtain ⟨_, _, h⟩ := bind_ok h
    by_cases hlate : authorizedUntilUnix * 1000000 ≤ rd.now
    · rw [if_pos hlate] at h
      cases h
      rfl
    · rw [if_neg hlate] at h
      obtain ⟨_, _, h⟩ := bind_ok h
      obtain ⟨_, _, h⟩ := bind_ok h
      split at h <;> cases h
      rfl
  | consumeStreamTicket t id =>
    simp only [Stmt.eval] at h
    split at h <;> cases h <;> rfl
  | _ =>
    refine flatMap_eq_nil_iff.mpr fun wr hwr => ?_
    have := hw wr hwr
    cases wr <;> first | rfl | exact this.elim

abbrev Balanced (c : Call) (p : StoreM Reply) (acc : List Entry) : Prop :=
  p.Balanced Stmt.commits Stmt.entries c.due acc

section Programs

open Prog (balanced_quiet balanced_enter balanced_commit balanced_check)

theorem actor_ok {actorId actor : Str} (h : requiredActorId actorId = .ok actor) :
    actor = Text.trim actorId := by
  unfold requiredActorId at h
  simp only at h
  split at h
  · cases h
  · exact (Except.ok.inj h).symm

theorem beginFor_enters (t : TenantId) :
    (beginFor t).All fun st => st.commits = false ∧ ∀ r, st.entries r = [] := by
  refine ⟨⟨rfl, fun _ => rfl⟩, fun _ => ⟨⟨rfl, fun _ => rfl⟩, fun _ => ⟨⟨rfl, fun _ => rfl⟩, ?_⟩⟩⟩
  rintro (_ | _ | _) <;> trivial

theorem enroll_balanced (sd : Serde) (t : TenantId) (a : AgentId) (displayName : Option Str)
    (actorId : Str) : Balanced (.enroll t a displayName actorId)
      (Call.program sd (.enroll t a displayName actorId)) [] := by
  refine Prog.Balanced.map (balanced_check fun actor hactor => ?_)
  refine (beginFor_enters t).bind_balanced fun _ => ?_
  refine balanced_quiet fun _ => balanced_quiet fun count => balanced_check fun _ _ => ?_
  refine balanced_quiet fun row => balanced_check fun record _ => ?_
  refine balanced_enter fun _ => ?_
  refine balanced_commit fun _ => ⟨record, rfl, ?_⟩
  simp [Call.due, Call.audits, Stmt.entries, actor_ok hactor]

theorem setEnabled_balanced (sd : Serde) (t : TenantId) (a : AgentId) (enabled : Bool)
    (actorId : Str) : Balanced (.setEnabled t a enabled actorId)
      (Call.program sd (.setEnabled t a enabled actorId)) [] := by
  refine Prog.Balanced.map (balanced_check fun actor hactor => ?_)
  refine (beginFor_enters t).bind_balanced fun _ => ?_
  refine balanced_quiet ?_
  rintro (_ | row)
  · exact balanced_commit fun _ => ⟨none, rfl, rfl⟩
  · refine balanced_check fun record _ => balanced_enter fun _ => ?_
    refine balanced_commit fun _ => ⟨some record, rfl, ?_⟩
    simp [Call.due, Call.audits, Stmt.entries, actor_ok hactor]

theorem upsertTenant_balanced (sd : Serde) (t : TenantId) (slug displayName actorId : Str) :
    Balanced (.upsertTenant t slug displayName actorId)
      (Call.program sd (.upsertTenant t slug displayName actorId)) [] := by
  refine Prog.Balanced.map (balanced_check fun actor hactor => ?_)
  refine balanced_quiet fun _ => balanced_quiet fun _ => ?_
  refine balanced_quiet fun row => balanced_check fun record _ => ?_
  cases henabled : record.enabled with
  | false =>
    simp only [Bool.not_false, if_true]
    trivial
  | true =>
    simp only [Bool.not_true, Bool.false_eq_true, if_false]
    refine balanced_enter fun _ => ?_
    refine balanced_commit fun _ => ⟨record, rfl, ?_⟩
    simp [Call.due, Call.audits, Stmt.entries, actor_ok hactor]

theorem createTicket_balanced (sd : Serde) (id : Uuid) (t : TenantId) (subject : Str)
    (authorizedUntilUnix : UInt64) (ttlNanos : ℕ) :
    Balanced (.createTicket id t subject authorizedUntilUnix ttlNanos)
      (Call.program sd (.createTicket id t subject authorizedUntilUnix ttlNanos)) [] := by
  refine Prog.Balanced.map (balanced_check fun _ _ => balanced_check fun _ _ => ?_)
  refine balanced_check fun _ _ => (beginFor_enters t).bind_balanced fun _ => ?_
  refine balanced_quiet fun _ => ?_
  refine balanced_enter fun inserted => ?_
  rcases inserted with _ | n
  · trivial
  · exact balanced_commit fun _ => ⟨id, rfl, rfl⟩

theorem consumeTicket_balanced (sd : Serde) (t : TenantId) (id : Uuid) :
    Balanced (.consumeTicket t id) (Call.program sd (.consumeTicket t id)) [] := by
  refine Prog.Balanced.map ((beginFor_enters t).bind_balanced fun _ => ?_)
  refine balanced_enter ?_
  rintro (_ | row)
  · exact balanced_commit fun _ => ⟨none, rfl, rfl⟩
  · refine balanced_check fun until' _ => ?_
    exact balanced_commit fun _ => ⟨some ⟨row.1, until'⟩, rfl, rfl⟩

theorem append_balanced (sd : Serde) (envelope : SignalEnvelope) :
    Balanced (.append envelope) (Call.program sd (.append envelope)) [] := by
  refine Prog.Balanced.map (balanced_check fun t _ => balanced_check fun payload _ => ?_)
  refine (beginFor_enters t).bind_balanced fun _ => ?_
  refine balanced_quiet fun _ => ?_
  refine balanced_quiet ?_
  rintro (_ | _ | _)
  · trivial
  · trivial
  refine balanced_quiet ?_
  rintro (_ | cursor)
  · refine balanced_quiet ?_
    rintro (_ | row)
    · trivial
    · refine balanced_check fun existing _ => ?_
      split
      · trivial
      · exact balanced_check fun c _ => balanced_commit fun _ => ⟨_, rfl, rfl⟩
  · refine balanced_check fun c _ => balanced_check fun z _ => ?_
    refine balanced_quiet fun _ => ?_
    refine balanced_quiet ?_
    rintro (_ | p)
    · trivial
    · refine balanced_quiet fun _ => balanced_quiet fun _ => balanced_quiet fun _ => ?_
      exact balanced_commit fun _ => ⟨_, rfl, rfl⟩

/-- Every call commits last, and leaves behind what its answer says. -/
theorem program_balanced (sd : Serde) (c : Call) : Balanced c (Call.program sd c) [] := by
  cases c with
  | append envelope => exact append_balanced sd envelope
  | load scope after rowLimit maxJsonBytes =>
    refine Prog.Balanced.map (balanced_check fun t _ => balanced_check fun z _ => ?_)
    refine (beginFor_enters t).bind_balanced fun _ => ?_
    refine balanced_quiet fun rows => balanced_check fun records _ => ?_
    exact balanced_commit fun _ => ⟨records, rfl, rfl⟩
  | upsertTenant t slug displayName actorId =>
    exact upsertTenant_balanced sd t slug displayName actorId
  | listAgents t =>
    refine Prog.Balanced.map ((beginFor_enters t).bind_balanced fun _ => ?_)
    refine balanced_quiet fun rows => balanced_check fun agents _ => ?_
    exact balanced_commit fun _ => ⟨agents, rfl, rfl⟩
  | loadProjection t =>
    refine Prog.Balanced.map ((beginFor_enters t).bind_balanced fun _ => ?_)
    refine balanced_quiet ?_
    rintro (_ | row)
    · exact balanced_commit fun _ => ⟨none, rfl, rfl⟩
    · refine balanced_check fun cursor _ => ?_
      exact balanced_commit fun _ => ⟨_, rfl, rfl⟩
  | enroll t a displayName actorId => exact enroll_balanced sd t a displayName actorId
  | setEnabled t a enabled actorId => exact setEnabled_balanced sd t a enabled actorId
  | createTicket id t subject authorizedUntilUnix ttlNanos =>
    exact createTicket_balanced sd id t subject authorizedUntilUnix ttlNanos
  | consumeTicket t id => exact consumeTicket_balanced sd t id
  | cleanupTickets t =>
    refine Prog.Balanced.map ((beginFor_enters t).bind_balanced fun _ => ?_)
    refine balanced_quiet fun removed => ?_
    exact balanced_commit fun _ => ⟨removed, rfl, rfl⟩

end Programs

section Run

variable {sd : Serde} {s t : StoreState} {labels : List StoreLabel}

theorem store_accounted (hs : s.Idle) (hr : Runs.run (pg sd).step s labels = some t) :
    ∃ closed, (pg sd).Accounted Call.due Write.entries s labels t closed :=
  Service.accounted_run (program_balanced sd) (fun _ he => eval_entries he) answers hs hr

def Entry.audit? : Entry → Option AuditRow
  | .audit row => some row
  | _ => none

theorem audits_of_due (c : Call) (reply : Reply) :
    (c.due reply).filterMap Entry.audit? = c.audits reply := by
  have hmap : ∀ rows : List AuditRow, (rows.map Entry.audit).filterMap Entry.audit? = rows := by
    intro rows
    rw [filterMap_map]
    exact filterMap_some
  unfold Call.due
  split
  · rfl
  · rfl
  · exact hmap _

theorem audits_view {db : Db} {ws : List Write} : ((pg sd).view db ws).audits =
    db.audits ++ (ws.flatMap Write.entries).filterMap Entry.audit? := by
  induction ws generalizing db with
  | nil => simp
  | cons wr ws ih =>
    rw [Service.view_cons, ih]
    cases wr <;> simp [pg, Db.apply, Write.entries, Entry.audit?, filterMap_cons]

/-- An audited call of the tenant, with the answer it has to have. -/
def Call.audited (T : TenantId) : Call → Except PgStoreError Reply → Bool
  | .upsertTenant t _ _ _, .ok (.tenant _) => t = T
  | .enroll t _ _ _, .ok (.enrolled _) => t = T
  | .setEnabled t _ _ _, .ok (.enabled (some _)) => t = T
  | _, _ => false

theorem length_audits (T : TenantId) (c : Call) (reply : Reply) :
    ((c.audits reply).filter fun row => row.tenantId = T).length =
      if c.audited T (.ok reply) then 1 else 0 := by
  have hone : ∀ row : AuditRow, ([row].filter fun row => row.tenantId = T).length =
      if decide (row.tenantId = T) then 1 else 0 := by
    intro row
    by_cases h : row.tenantId = T <;> simp [h]
  cases c with
  | upsertTenant =>
    cases reply with
    | tenant => exact hone _
    | _ => rfl
  | enroll =>
    cases reply with
    | enrolled => exact hone _
    | _ => rfl
  | setEnabled =>
    cases reply with
    | enabled record =>
      cases record with
      | none => rfl
      | some _ => exact hone _
    | _ => rfl
  | _ => rfl

/-- The calls of a log that returned `Ok`. -/
def returned (log : List (ℕ × Call × Except PgStoreError Reply)) : List (ℕ × Call × Reply) :=
  log.filterMap fun e => match e.2.2 with
    | .ok reply => some (e.1, e.2.1, reply)
    | .error _ => none

theorem mem_returned {log : List (ℕ × Call × Except PgStoreError Reply)} {i : ℕ} {c : Call}
    {reply : Reply} : (i, c, reply) ∈ returned log ↔ (i, c, .ok reply) ∈ log := by
  simp only [returned, mem_filterMap]
  constructor
  · rintro ⟨⟨j, c', res⟩, hmem, he⟩
    cases res with
    | error e => cases he
    | ok r =>
      cases he
      exact hmem
  · exact fun hmem => ⟨_, hmem, rfl⟩

theorem nodup_returned {log : List (ℕ × Call × Except PgStoreError Reply)}
    (h : (log.map Prod.fst).Nodup) : ((returned log).map Prod.fst).Nodup := by
  refine List.Sublist.nodup ?_ h
  induction log with
  | nil => exact List.Sublist.refl _
  | cons e log ih =>
    obtain ⟨i, c, res⟩ := e
    have hlog := (nodup_cons.mp h).2
    cases res with
    | error e => exact (ih hlog).cons i
    | ok r => exact (ih hlog).cons_cons i

theorem count_returned (T : TenantId) (log : List (ℕ × Call × Except PgStoreError Reply)) :
    (((returned log).flatMap fun e => e.2.1.audits e.2.2).filter
      fun row => row.tenantId = T).length = (log.filter fun e => e.2.1.audited T e.2.2).length := by
  induction log with
  | nil => rfl
  | cons e log ih =>
    obtain ⟨i, c, res⟩ := e
    cases res with
    | error e =>
      have hno : c.audited T (.error e) = false := by
        unfold Call.audited
        split <;> simp_all
      rw [filter_cons_of_neg (by simp [hno])]
      exact ih
    | ok r =>
      change ((c.audits r ++ (returned log).flatMap fun e => e.2.1.audits e.2.2).filter _).length = _
      rw [filter_append, length_append, length_audits, ih, filter_cons]
      simp only
      split <;> simp [Nat.add_comm]

/-- A call that returns an error has left all tables as they were; the audit rows are those
of the calls that came to an `Ok`, in the order of their commits, so a tenant gains as many
as audited calls of it have returned once none is left between commit and return. -/
theorem store_atomic_audited (hs : s.Idle) (hr : Runs.run (pg sd).step s labels = some t)
    (hack : ∀ i, .lostAck i ∉ labels) :
    (∀ pre l post u v c e, labels = pre ++ l :: post → Runs.run (pg sd).step s pre = some u →
      (pg sd).step u l = some v → (l.session, c, .error e) ∈ t.log → v.db = u.db) ∧
    (∃ closed : List (ℕ × Call × Reply), (closed.map Prod.fst).Nodup ∧
      (∀ i c reply, (i, c, reply) ∈ closed ↔ Service.Answered t i c reply) ∧
      t.db.audits = s.db.audits ++ closed.flatMap fun e => e.2.1.audits e.2.2) ∧
    ((∀ i x reply, t.sessions i = some x → x.prog ≠ .ok reply) → ∀ T,
      (t.db.audits.filter fun row => row.tenantId = T).length =
        (s.db.audits.filter fun row => row.tenantId = T).length +
          (t.log.filter fun e => e.2.1.audited T e.2.2).length) := by
  obtain ⟨closed, hacc⟩ := store_accounted hs hr
  have hall : ∀ e ∈ closed, e.acknowledged = true := by
    rintro ⟨i, c, reply, _ | _⟩ he
    · exact (hack i (hacc.lost i c reply he)).elim
    · rfl
  set done := closed.map fun e => (e.session, e.call, e.answer) with hdone
  have honce : (done.map Prod.fst).Nodup := by
    rw [hdone, map_map]
    exact hacc.once
  have hmem : ∀ i c reply, (i, c, reply) ∈ done ↔ Service.Answered t i c reply := by
    intro i c reply
    rw [← hacc.answered, hdone, mem_map]
    constructor
    · rintro ⟨⟨_, _, _, b⟩, he, heq⟩
      obtain rfl : b = true := hall _ he
      cases heq
      exact he
    · exact fun he => ⟨_, he, rfl⟩
  have haudits : t.db.audits = s.db.audits ++ done.flatMap fun e => e.2.1.audits e.2.2 := by
    rw [Service.db_committed hr, audits_view, hacc.entered, filterMap_flatMap, hdone,
      flatMap_map]
    simp only [audits_of_due]
  refine ⟨?_, ⟨done, honce, hmem, haudits⟩, ?_⟩
  · intro pre l post u v c e hsplit hpre hl herr
    have hpost : Runs.run (pg sd).step v post = some t := by
      rw [hsplit] at hr
      obtain ⟨u', hu', hrest⟩ := Runs.run_append.mp hr
      obtain ⟨v', hv', hrest⟩ := Runs.run_cons.mp hrest
      obtain rfl := Option.some.inj (hpre.symm.trans hu')
      obtain rfl := Option.some.inj (hl.symm.trans hv')
      exact hrest
    obtain ⟨hknown, hwaiting⟩ := Service.once_run hs hpre
    refine Service.db_of_error hknown hwaiting (Service.tallied_run (program_balanced sd)
      (fun _ he => eval_entries he) hs hpre) hl rfl (fun hlost => ?_) hpost herr
    exact hack l.session (hsplit ▸ hlost ▸ by simp)
  · intro hready T
    have hperm : done.Perm (returned t.log) := by
      refine (perm_ext_iff_of_nodup (List.Nodup.of_map _ honce) (List.Nodup.of_map _
        (nodup_returned (Service.once_run hs hr).2.single))).mpr ?_
      rintro ⟨i, c, reply⟩
      rw [hmem, mem_returned, Service.Answered, or_iff_left]
      rintro ⟨x, hx, _, hp⟩
      exact hready i x reply hx hp
    rw [haudits, filter_append, length_append, ← count_returned T]
    exact congrArg _ ((hperm.flatMap_right _).filter _).length_eq

section Sample

open Sample

/-- A tenant is renamed, an agent enrolled and then switched off, and an agent that does not
exist switched on. -/
def audited : List StoreLabel :=
  .start 0 (.upsertTenant tenant ['t'] ['U'] [' ', 'u']) :: List.replicate 5 (.exec 0 ⟨10, 0⟩) ++
    .start 1 (.enroll tenant agent none ['v', ' ']) :: List.replicate 8 (.exec 1 ⟨10, 0⟩) ++
    .start 2 (.setEnabled neighbour .sampleB true ['w']) ::
    List.replicate 5 (.exec 2 ⟨10, 0⟩) ++ [.finish 0, .finish 1, .finish 2]

theorem store_atomic_audited_sample : (returned (reached audited).log).length = 3 ∧
    ((reached audited).db.audits.filter fun row => row.tenantId = tenant).length =
      (store.db.audits.filter fun row => row.tenantId = tenant).length +
        ((reached audited).log.filter fun e => e.2.1.audited tenant e.2.2).length ∧
    (reached audited).db.audits.map (fun row => (row.actorId, row.targetId)) =
      [(['u'], Uuids.print tenant.uuid), (['v'], ['a'])] := by
  have hrun : (Runs.run (pg serde).step store audited).isSome := by decide
  have hclosed := quiet_reached hrun (by decide)
  refine ⟨by decide, (store_atomic_audited store_initial.idle (run_reached hrun) ?_).2.2
    (fun i x reply hx => ?_) tenant, by decide⟩
  · simp [audited]
  · simp [hclosed] at hx

end Sample

end Run

end SkidMonitor
