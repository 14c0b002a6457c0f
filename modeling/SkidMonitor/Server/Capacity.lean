import SkidMonitor.Server.Protocol

/-! The bound on the agents of a tenant. An enrolment counts the agents and adds one in two
statements; the lock of the tenant keeps the count good until it commits. -/
namespace SkidMonitor

open Fallible List
open ReadCommitted

def Db.agentsOf (db : Db) (t : TenantId) : List AgentRow := db.agents.filter fun r => r.tenantId = t

/-- The identities enrolled with a tenant. -/
def Db.roster (db : Db) (t : TenantId) : List Str := (db.agentsOf t).map (·.agentId)

/-- Writes that may add an agent. -/
def Write.Enrolls (t : TenantId) (a : Str) : Write → Prop
  | .upsertAgent row => row.tenantId = t ∧ row.agentId = a
  | _ => False

section Roster

variable {sd : Serde} {db : Db} {t : TenantId} {a : Str}

theorem mem_roster : a ∈ db.roster t ↔ (db.agent? t a).isSome := by
  simp [Db.roster, Db.agentsOf, Db.agent?, AgentRow.isFor, find?_isSome, and_assoc]

theorem agentCardinality_slice :
    ((db.slice t).agents.filter fun r => r.tenantId = t).length = (db.roster t).length ∧
      (((db.slice t).agents.filter fun r => r.tenantId = t).any fun r => r.agentId = a) =
        decide (a ∈ db.roster t) := by
  have hself : (db.slice t).agents.filter (fun r => decide (r.tenantId = t)) = db.agentsOf t := by
    simp [Db.slice, Db.agentsOf]
  rw [hself]
  refine ⟨(length_map _).symm, ?_⟩
  rw [Bool.eq_iff_iff]
  simp [Db.roster]

theorem roster_apply {wr : Write} (h : ∀ a, ¬ wr.Enrolls t a) :
    (db.apply wr).roster t = db.roster t := by
  cases wr with
  | upsertAgent row =>
    have hne : row.tenantId ≠ t := fun ht => h row.agentId ⟨ht, rfl⟩
    exact congrArg (List.map (·.agentId) ∘ Db.agents)
      (Db.slice_apply_ne (w := .upsertAgent row) hne : (db.apply _).slice t = _)
  | setAgentEnabled | touchAgent =>
    simp only [Db.roster, Db.agentsOf, Db.apply]
    rw [Table.filter_modify (by intro; rfl), Table.map_modify (by intro; rfl)]
  | _ => rfl

/-- Enrolling an agent again leaves the roster as it is. -/
theorem roster_upsertAgent (row : AgentRow) :
    (db.apply (.upsertAgent row)).roster row.tenantId =
      if row.agentId ∈ db.roster row.tenantId then db.roster row.tenantId
      else db.roster row.tenantId ++ [row.agentId] := by
  have hany : (db.agentsOf row.tenantId).any (AgentRow.isFor row.tenantId row.agentId) = true ↔
      row.agentId ∈ db.roster row.tenantId := by
    simp +contextual [Db.roster, Db.agentsOf, AgentRow.isFor, and_assoc]
  have hagents : (db.apply (.upsertAgent row)).agentsOf row.tenantId =
      Table.upsert (AgentRow.isFor row.tenantId row.agentId)
        (fun r => { r with displayName := row.displayName, enabled := true }) row
        (db.agentsOf row.tenantId) :=
    Table.filter_upsert (by intro; rfl) (by simp_all [AgentRow.isFor]) (by simp)
  rw [Db.roster, hagents, Table.upsert]
  by_cases hmem : row.agentId ∈ db.roster row.tenantId
  · rw [if_pos (hany.mpr hmem), if_pos hmem, Table.map_modify (by intro; rfl)]
    rfl
  · rw [if_neg (mt hany.mp hmem), if_neg hmem, map_append]
    rfl

/-- Writes that enroll one agent at most add it to the roster or leave the roster alone. -/
theorem roster_view {ws : List Write} (h : ∀ wr ∈ ws, ∀ b, wr.Enrolls t b → b = a) :
    ((pg sd).view db ws).roster t = db.roster t ∨
      a ∉ db.roster t ∧ ((pg sd).view db ws).roster t = db.roster t ++ [a] := by
  induction ws generalizing db with
  | nil => exact Or.inl rfl
  | cons wr ws ih =>
    have hrest := @ih (db.apply wr) fun v hv => h v (mem_cons_of_mem wr hv)
    rw [Service.view_cons]
    by_cases hen : ∃ b, wr.Enrolls t b
    · obtain ⟨b, hb⟩ := hen
      obtain rfl := h wr mem_cons_self b hb
      cases wr with
      | upsertAgent row =>
        obtain ⟨rfl, rfl⟩ := hb
        have happly : (db.apply (.upsertAgent row)).roster row.tenantId = _ :=
          roster_upsertAgent row
        by_cases hmem : row.agentId ∈ db.roster row.tenantId
        · rw [if_pos hmem] at happly
          rw [happly] at hrest
          exact Or.inl (hrest.resolve_right fun hnew => hnew.1 hmem)
        · rw [if_neg hmem] at happly
          rw [happly] at hrest
          exact Or.inr ⟨hmem, hrest.resolve_right fun hnew => hnew.1 (by simp)⟩
      | _ => exact hb.elim
    · rw [roster_apply fun b hb => hen ⟨b, hb⟩] at hrest
      exact hrest

theorem roster_view_eq {ws : List Write} (h : ∀ wr ∈ ws, ∀ b, ¬ wr.Enrolls t b) :
    ((pg sd).view db ws).roster t = db.roster t :=
  Service.view_eq _ (Db.roster · t) fun wr hwr _ => roster_apply (h wr hwr)

/-- An agent is never taken off the roster. -/
theorem mem_roster_view {ws : List Write} (h : a ∈ db.roster t) :
    a ∈ ((pg sd).view db ws).roster t := by
  induction ws generalizing db with
  | nil => exact h
  | cons wr ws ih =>
    refine ih ?_
    change a ∈ (db.apply wr).roster t
    by_cases hen : ∃ b, wr.Enrolls t b
    · obtain ⟨b, hb⟩ := hen
      cases wr with
      | upsertAgent row =>
        obtain ⟨rfl, rfl⟩ := hb
        rw [roster_upsertAgent]
        split
        · exact h
        · exact mem_append_left _ h
      | _ => exact hb.elim
    · rw [roster_apply fun b hb => hen ⟨b, hb⟩]
      exact h

end Roster

/-- The stages of an enrolment. All other calls are bystanders. -/
inductive Seat where
  | bystander
  | opening (t : TenantId) (a : Str)
  | entered (t : TenantId) (a : Str)
  | locked (t : TenantId) (a : Str)
  | roomy (t : TenantId) (a : Str)
  | seated (t : TenantId) (a : Str)
  | full (t : TenantId) (a : Str)
  | done

def Call.Enrolls (t : TenantId) (a : Str) : Call → Prop
  | .enroll t' agentId _ _ => t' = t ∧ agentId.text = a
  | _ => False

namespace Seat

inductive Move : Seat → (st : Stmt) → st.Resp → Seat → Prop
  | other (st r) (hst : ∀ wr t a, st.Writes wr → ¬ wr.Enrolls t a) : Move .bystander st r .bystander
  | begin (t a) : Move (.opening t a) .begin () (.opening t a)
  | context (t a) : Move (.opening t a) (.setTenantContext t) () (.entered t a)
  | admits (t a r) : Move (.entered t a) (.requireEnabledTenant t) r (.entered t a)
  | lock (t a) : Move (.entered t a) (.advisoryLock (tenantLockKey t)) () (.locked t a)
  | count (t a) (n : ℤ) (enrolled : Bool) (hok : validateAgentCapacity t n enrolled = .ok ()) :
      Move (.locked t a) (.agentCardinality t a) (n, enrolled) (.roomy t a)
  | refuse (t a) (n : ℤ) (enrolled : Bool) (e) (he : validateAgentCapacity t n enrolled = .error e) :
      Move (.locked t a) (.agentCardinality t a) (n, enrolled) (.full t a)
  | upsert (t a displayName r) : Move (.roomy t a) (.upsertAgent t a displayName) r (.seated t a)
  | audit (t a row) : Move (.seated t a) (.insertAudit row) () (.seated t a)
  | commit (t a) : Move (.seated t a) .commit () .done

/-- Only a full tenant refuses an enrolment for its number of agents. -/
def Ends : Seat → Except PgStoreError Reply → Prop
  | .bystander, _ => True
  | .full t _, .error e => e = .agentLimitReached t maxAgentsPerTenant
  | .full _ _, .ok _ => False
  | _, .error e => ∀ t n, e ≠ .agentLimitReached t n
  | _, .ok _ => True

/-- The tenant has the agent already, or a place for it. -/
def Room (db : Db) (t : TenantId) (a : Str) : Prop :=
  a ∈ db.roster t ∨ (db.roster t).length < maxAgentsPerTenant

structure Locked (t : TenantId) (a : Str) (x : StoreTxn) : Prop where
  call : x.call.Enrolls t a
  context : x.conn.tenantId = some t
  held : ⟨.advisory (tenantLockKey t), true⟩ ∈ x.held

def Local : Seat → StoreTxn → Db → Past Call → Prop
  | .bystander, x, _, _ =>
      (∀ t a, ¬ x.call.Enrolls t a) ∧ ∀ wr ∈ x.writes, ∀ t a, ¬ wr.Enrolls t a
  | .opening t a, x, _, _ => x.writes = [] ∧ x.call.Enrolls t a
  | .entered t a, x, _, _ => x.writes = [] ∧ x.call.Enrolls t a ∧ x.conn.tenantId = some t
  | .locked t a, x, _, _ => x.writes = [] ∧ Locked t a x
  | .roomy t a, x, db, _ => x.writes = [] ∧ Locked t a x ∧ Room db t a
  | .seated t a, x, db, _ => Locked t a x ∧ Room db t a ∧
      ∀ wr ∈ x.writes, ∀ t' a', wr.Enrolls t' a' → t' = t ∧ a' = a
  | .full t a, x, db, _ => x.writes = [] ∧ Locked t a x ∧ a ∉ db.roster t ∧
      maxAgentsPerTenant ≤ (db.roster t).length
  | .done, x, _, _ => x.writes = []

variable {sd : Serde} {db : Db} {t : TenantId} {a : Str} {x y : StoreTxn} {past : Past Call}
  {g g' : Seat}
  {st : Stmt} {rd : Reading} {ws : List Write}

theorem Locked.extend (h : Locked t a x) (hst : st.configure rd x.conn = x.conn) :
    Locked t a ((pg sd).extend x db rd st ws) :=
  ⟨h.call, (congrArg Conn.tenantId hst).trans h.context, mem_append_left _ h.held⟩

/-- What an enrolment counts is the roster of its tenant. -/
theorem cardinality_eq {n : ℤ} {enrolled : Bool} (h : Locked t a x)
    (he : (Stmt.agentCardinality t a).eval x.conn db rd = .ok ((n, enrolled), ws)) :
    n = (db.roster t).length ∧ enrolled = decide (a ∈ db.roster t) ∧ ws = [] := by
  have hr := congrArg Prod.fst (Except.ok.inj he)
  have hws := congrArg Prod.snd (Except.ok.inj he)
  rw [h.context] at hr
  have hn := congrArg Prod.fst hr
  have hb := congrArg Prod.snd hr
  refine ⟨hn.symm.trans ?_, hb.symm.trans agentCardinality_slice.2, hws.symm⟩
  exact congrArg Nat.cast (agentCardinality_slice (a := a)).1

theorem capacity_ok {n : ℤ} {enrolled : Bool} (h : validateAgentCapacity t n enrolled = .ok ()) :
    enrolled = true ∨ n < maxAgentsPerTenant := by
  unfold validateAgentCapacity at h
  split at h
  · cases h
  · rename_i hn
    cases enrolled with
    | true => exact Or.inl rfl
    | false =>
      simp only [Bool.not_false, Bool.true_and, decide_eq_true_eq] at hn
      exact Or.inr (by omega)

theorem capacity_error {n : ℤ} {enrolled : Bool} {e : PgStoreError}
    (h : validateAgentCapacity t n enrolled = .error e) :
    enrolled = false ∧ (maxAgentsPerTenant : ℤ) ≤ n ∧
      e = .agentLimitReached t maxAgentsPerTenant := by
  unfold validateAgentCapacity at h
  split at h
  · rename_i hn
    cases h
    simp only [Bool.and_eq_true, Bool.not_eq_true', decide_eq_true_eq, ge_iff_le] at hn
    exact ⟨hn.1, hn.2, rfl⟩
  · cases h

theorem record_error {row : AgentColumns} {e : PgStoreError}
    (h : agentRecordFromRow t row = .error e) : ∀ t' n, e ≠ .agentLimitReached t' n := by
  have hint : ∀ {field z e}, fromPgI64 field z = .error e → ∀ t' n, e ≠ .agentLimitReached t' n := by
    intro field z e he
    unfold fromPgI64 at he
    split at he <;> cases he
    exact nofun
  rcases bind_error h with hid | ⟨_, _, h⟩
  · unfold agentIdFromRow at hid
    split at hid <;> cases hid
    exact nofun
  rcases bind_error h with henrolled | ⟨_, _, h⟩
  · exact hint henrolled
  rcases bind_error h with hseen | ⟨_, _, h⟩
  · cases hlast : row.lastSeenAtUnixNano with
    | none =>
      rw [hlast] at hseen
      cases hseen
    | some seen =>
      rw [hlast] at hseen
      rcases bind_error hseen with hz | ⟨_, _, hz⟩
      · exact hint hz
      · cases hz
  · cases h

theorem actor_error {actorId : Str} {e : PgStoreError} (h : requiredActorId actorId = .error e) :
    e = .invalidActorId := by
  unfold requiredActorId at h
  simp only at h
  split at h
  · cases h
    rfl
  · cases h

theorem enroll_follows (t : TenantId) (agentId : AgentId) (displayName : Option Str)
    (actorId : Str) : (Call.program sd (.enroll t agentId displayName actorId)).Follows
      Move Ends (.opening t agentId.text) := by
  simp only [Call.program, enrollAgentAs, beginFor, requireEnabledTenant, Prog.liftM_eq,
    Prog.map_eq, Prog.bind_assoc, Prog.send_bind]
  refine Prog.follows_check (fun e he => actor_error he ▸ by simp [Ends]) fun actor _ => ?_
  refine fun _ => ⟨_, .begin t _, fun _ => ⟨_, .context t _, ?_⟩⟩
  rintro (_ | _ | _)
  · exact ⟨_, .admits t _ _, fun _ _ h => by cases h⟩
  · exact ⟨_, .admits t _ _, fun _ _ h => by cases h⟩
  refine ⟨_, .admits t _ _, fun _ => ⟨_, .lock t _, ?_⟩⟩
  rintro ⟨n, enrolled⟩
  cases hroom : validateAgentCapacity t n enrolled with
  | error e =>
    refine ⟨_, .refuse t _ n enrolled e hroom, ?_⟩
    simp only [Prog.bind_eq, hroom, Prog.ofExcept_error, Prog.err_bind]
    exact (capacity_error hroom).2.2
  | ok u =>
    refine ⟨_, .count t _ n enrolled hroom, ?_⟩
    simp only [Prog.bind_eq, hroom, Prog.ofExcept_ok, Prog.ok_bind, Prog.query_bind,
      Prog.bind_assoc]
    refine fun row => ⟨_, .upsert t _ _ row, ?_⟩
    refine Prog.follows_check (fun e he => record_error he) fun record _ => ?_
    exact fun _ => ⟨_, .audit t _ _, fun _ => ⟨_, .commit t _, trivial⟩⟩

theorem other_follows {p : StoreM Reply}
    (hp : p.All fun st => ∀ wr t a, st.Writes wr → ¬ wr.Enrolls t a) :
    p.Follows Move Ends .bystander := by
  induction p with
  | ok | err => trivial
  | query st k ih => exact fun r => ⟨_, .other st r hp.1, ih r (hp.2 r)⟩

/-- Only enrolments write agents. -/
theorem enrolls_of_issues {c : Call} {wr : Write} (hst : c.Issues st) (hw : st.Writes wr)
    (hen : wr.Enrolls t a) : c.Enrolls t a := by
  cases wr with
  | upsertAgent row =>
    cases st with
    | upsertAgent t' a' displayName =>
      obtain ⟨agentId, _, _, rfl, rfl⟩ := hst
      obtain ⟨ht, ha, _⟩ := hw
      exact ⟨ht.symm.trans hen.1, ha.symm.trans hen.2⟩
    | _ => exact hw.elim
  | _ => exact hen.elim

theorem local_start (c : Call) :
    ∃ g, (Call.program sd c).Follows Move Ends g ∧ Local g ((pg sd).blank c) db past := by
  by_cases hc : ∃ t a, c.Enrolls t a
  · obtain ⟨t, a, hc⟩ := hc
    cases c with
    | enroll t' agentId displayName actorId =>
      obtain ⟨rfl, rfl⟩ := hc
      exact ⟨_, enroll_follows t' agentId displayName actorId, rfl, rfl, rfl⟩
    | _ => exact hc.elim
  · refine ⟨.bystander, other_follows ((program_issues sd c).mono fun st hst wr t a hw hen => ?_), ?_⟩
    · exact hc ⟨t, a, enrolls_of_issues hst hw hen⟩
    · exact ⟨fun t a hen => hc ⟨t, a, hen⟩, fun wr hwr => by simp [Service.blank] at hwr⟩

theorem local_advance {r : st.Resp} (h : Local g x db past) (hn : st.commits = false)
    (hm : Move g st r g') (he : st.eval x.conn ((pg sd).view db x.writes) rd = .ok (r, ws)) :
    Local g' ((pg sd).extend x db rd st ws) db ((pg sd).after st rd past) := by
  have hkeep : ws = [] → x.writes = [] → ((pg sd).extend x db rd st ws).writes = [] := by
    rintro rfl hx
    simp [Service.extend, hx]
  cases hm with
  | other st r hst =>
    refine ⟨h.1, fun wr hwr => ?_⟩
    rcases mem_append.mp hwr with hwr | hwr
    · exact h.2 wr hwr
    · exact fun t a => hst wr t a (eval_writes he wr hwr)
  | begin t a =>
    cases he
    exact ⟨hkeep rfl h.1, h.2⟩
  | context t a =>
    cases he
    exact ⟨hkeep rfl h.1, h.2, rfl⟩
  | admits t a r =>
    cases he
    exact ⟨hkeep rfl h.1, h.2⟩
  | lock t a =>
    cases he
    exact ⟨hkeep rfl h.1, h.2.1, h.2.2, mem_append_right _ mem_cons_self⟩
  | count t a n enrolled hok =>
    rw [h.1] at he
    obtain ⟨hn, hb, hws⟩ := cardinality_eq h.2 he
    refine ⟨hkeep hws h.1, h.2.extend rfl, (capacity_ok hok).imp (fun hen => ?_) fun hlt => ?_⟩
    · exact of_decide_eq_true (hb.symm.trans hen)
    · change n = ((db.roster t).length : ℤ) at hn
      omega
  | refuse t a n enrolled e herr =>
    rw [h.1] at he
    obtain ⟨hn, hb, hws⟩ := cardinality_eq h.2 he
    obtain ⟨hfalse, hle, _⟩ := capacity_error herr
    refine ⟨hkeep hws h.1, h.2.extend rfl, of_decide_eq_false (hb.symm.trans hfalse), ?_⟩
    change n = ((db.roster t).length : ℤ) at hn
    omega
  | upsert t a displayName r =>
    refine ⟨h.2.1.extend rfl, h.2.2, fun wr hwr t' a' hen => ?_⟩
    rw [show ((pg sd).extend x db rd (.upsertAgent t a displayName) ws).writes = ws by
      simp [Service.extend, h.1]] at hwr
    have hw := eval_writes he wr hwr
    cases wr with
    | upsertAgent row => exact ⟨hen.1.symm.trans hw.1, hen.2.symm.trans hw.2.1⟩
    | _ => exact hw.elim
  | audit t a row =>
    refine ⟨h.1.extend rfl, h.2.1, fun wr hwr t' a' hen => ?_⟩
    rcases mem_append.mp hwr with hwr | hwr
    · exact h.2.2 wr hwr t' a' hen
    · have hw := eval_writes he wr hwr
      cases wr with
      | upsertAgent row => exact hw.elim
      | _ => exact hen.elim
  | commit t a => cases hn

/-- A transaction that adds an agent holds the lock of the tenant. -/
theorem locked_of_enrolls {wr : Write} (h : Local g x db past) (hwr : wr ∈ x.writes)
    (hen : wr.Enrolls t a) : ⟨.advisory (tenantLockKey t), true⟩ ∈ x.held := by
  have hnil : x.writes = [] → ⟨.advisory (tenantLockKey t), true⟩ ∈ x.held := by
    intro hx
    simp [hx] at hwr
  cases g with
  | bystander => exact (h.2 wr hwr t a hen).elim
  | seated t' a' =>
    obtain ⟨rfl, rfl⟩ := h.2.2 wr hwr t a hen
    exact h.1.held
  | done => exact hnil h
  | opening | entered | locked | roomy | full => exact hnil h.1

/-- While a transaction holds the lock of a tenant, no other one adds an agent to it. -/
theorem roster_frame (hx : Local g x db past)
    (hfree : ∀ a ∈ x.held, ∀ b ∈ y.held, Lock.conflicts a b = false) (hy : Locked t a y) :
    ((pg sd).view db x.writes).roster t = db.roster t := by
  refine roster_view_eq fun wr hwr b hen => ?_
  simpa [Lock.conflicts] using hfree _ (locked_of_enrolls hx hwr hen) _ hy.held

theorem local_frame {h : Seat} (hx : Local g x db past) (hy : Local h y db past)
    (hfree : ∀ a ∈ x.held, ∀ b ∈ y.held, Lock.conflicts a b = false) :
    Local h y ((pg sd).view db x.writes) past := by
  cases h with
  | bystander | opening | entered | locked | done => exact hy
  | roomy t a =>
    refine ⟨hy.1, hy.2.1, ?_⟩
    rw [Room, roster_frame hx hfree hy.2.1]
    exact hy.2.2
  | seated t a =>
    refine ⟨hy.1, ?_, hy.2.2⟩
    rw [Room, roster_frame hx hfree hy.1]
    exact hy.2.1
  | full t a =>
    refine ⟨hy.1, hy.2.1, ?_⟩
    rw [roster_frame hx hfree hy.2.1]
    exact hy.2.2

def Bounded (db : Db) (_ : Past Call) : Prop :=
  ∀ t, (db.roster t).length ≤ maxAgentsPerTenant

theorem bounded_commit {r : st.Resp} (hpre : Bounded db past) (h : Local g x db past)
    (hn : st.commits = true) (hm : Move g st r g') :
    Bounded ((pg sd).view db x.writes) past := by
  intro t'
  cases hm with
  | other st r hst =>
    rw [roster_view_eq fun wr hwr b => h.2 wr hwr t' b]
    exact hpre t'
  | commit t a =>
    obtain ⟨_, hroom, hw⟩ := h
    by_cases ht : t' = t
    · subst ht
      have hseat := @roster_view sd db t' a x.writes fun wr hwr b hen => (hw wr hwr t' b hen).2
      rcases hseat with he | ⟨hnew, he⟩
      · rw [he]
        exact hpre t'
      · have hlt := hroom.resolve_left hnew
        rw [he, length_append, length_singleton]
        omega
    · rw [roster_view_eq fun wr hwr b hen => ht (hw wr hwr t' b hen).1]
      exact hpre t'
  | _ => cases hn

def protocol (sd : Serde) : Protocol (pg sd) Seat where
  Move := Move
  Fin := Ends
  Pre := Bounded
  Local := Local
  Raised _ := True
  answers := answers
  advance _ h hn hm _ he := local_advance h hn hm he
  commit _ h hn hm := by
    cases hm with
    | other st r hst => exact ⟨h.1, by simp [Service.blank]⟩
    | commit t a => exact rfl
    | _ => cases hn
  refuse _ _ _ _ _ := trivial
  later {g} _ _ _ _ h _ := by cases g <;> exact h
  Logged _ _ _ := True
  symm := conflicts_symm sd
  outage := trivial
  start _ _ := local_start _
  pre_later h _ := h
  pre_commit := bounded_commit
  frame _ hx _ _ hy hfree := local_frame hx hy hfree
  finish _ _ := trivial
  raised _ _ _ _ := trivial
  stable _ _ := trivial

end Seat

section Capacity

variable {sd : Serde} {s u : StoreState} {l : StoreLabel} {labels : List StoreLabel}
  {t : TenantId} {a : Str}

/-- No call has been made and no agent enrolled. -/
def Unenrolled (s : StoreState) : Prop := s.Idle ∧ s.db.agents = []

theorem seat_invariant (hs : Runs.Reachable (pg sd).step Unenrolled s) :
    (Seat.protocol sd).Invariant s := by
  refine Runs.reachable_invariant (fun s₀ hs => Protocol.invariant_idle hs.1 fun t => ?_)
    (fun _ _ _ hs h => Protocol.invariant_step h hs) hs
  simp [Db.roster, Db.agentsOf, hs.2]

theorem mem_roster_step (h : (pg sd).step s l = some u) (ha : a ∈ s.db.roster t) :
    a ∈ u.db.roster t := by
  rcases Service.step_db (Service.step_cases h) with he | ⟨x, _, _, _, _, _, he⟩
  · exact he ▸ ha
  · rw [he]
    exact mem_roster_view ha

/-- An enrolment that is refused for the number of agents returns while the tenant is full
and does not have the agent. -/
theorem refused_when_full {i n : ℕ} {agentId : AgentId} {displayName : Option Str}
    {actorId : Str} {t' : TenantId} (hs : (Seat.protocol sd).Invariant s)
    (h : (pg sd).step s l = some u)
    (hnew : (i, .enroll t agentId displayName actorId, .error (.agentLimitReached t' n)) ∈ u.log)
    (hold : (i, .enroll t agentId displayName actorId, .error (.agentLimitReached t' n)) ∉ s.log) :
    t' = t ∧ n = maxAgentsPerTenant ∧ agentId.text ∉ s.db.roster t ∧
      (s.db.roster t).length = maxAgentsPerTenant := by
  have hstep := Service.step_cases h
  rcases Service.step_log hstep with he | ⟨j, rfl⟩
  · exact (hold (he ▸ hnew)).elim
  · obtain ⟨x, res, _, hlog, hans⟩ := Outline.answer_finish hstep (hs.tracked j)
    rw [hlog, mem_append, mem_singleton] at hnew
    have hentry := hnew.resolve_left hold
    simp only [Prod.mk.injEq] at hentry
    obtain ⟨rfl, hcall, rfl⟩ := hentry
    rcases hans with ⟨e, _, he⟩ | ⟨g, y, hend, hlocal, hy⟩
    · cases he
    rw [← hcall] at hy
    have hbound := hs.pre t
    cases g with
    | bystander => exact (hlocal.1 t agentId.text (by rw [hy]; exact ⟨rfl, rfl⟩)).elim
    | full t₀ a₀ =>
      obtain ⟨_, hlocked, hmem, hle⟩ := hlocal
      obtain ⟨rfl, rfl⟩ : t = t₀ ∧ agentId.text = a₀ := by
        have := hlocked.call
        rwa [hy] at this
      cases hend
      exact ⟨rfl, rfl, hmem, le_antisymm hbound hle⟩
    | _ => exact (hend t' n rfl).elim

/-- From a store without agents, no tenant ever has more than `maxAgentsPerTenant` agents. An
enrolment is refused for the number of agents only while the tenant has that many and the
agent is none of them, so an agent that is enrolled can be enrolled again. -/
theorem agents_bounded (hs : Runs.Reachable (pg sd).step Unenrolled s) :
    (∀ t, (s.db.agentsOf t).length ≤ maxAgentsPerTenant) ∧
    (∀ l u i t agentId displayName actorId t' n, (pg sd).step s l = some u →
      (i, .enroll t agentId displayName actorId, .error (.agentLimitReached t' n)) ∈ u.log →
      (i, .enroll t agentId displayName actorId, .error (.agentLimitReached t' n)) ∉ s.log →
      t' = t ∧ n = maxAgentsPerTenant ∧ s.db.agent? t agentId.text = none ∧
        (s.db.agentsOf t).length = maxAgentsPerTenant) ∧
    (∀ labels u i t agentId displayName actorId t' n, Runs.run (pg sd).step s labels = some u →
      (s.db.agent? t agentId.text).isSome →
      (i, .enroll t agentId displayName actorId, .error (.agentLimitReached t' n)) ∈ u.log →
      (i, .enroll t agentId displayName actorId, .error (.agentLimitReached t' n)) ∈ s.log) := by
  have hlen : ∀ z : StoreState, ∀ t, (z.db.agentsOf t).length = (z.db.roster t).length :=
    fun z t => (length_map _).symm
  refine ⟨fun t => (hlen s t).trans_le ((seat_invariant hs).pre t), ?_, ?_⟩
  · intro l u i t agentId displayName actorId t' n h hnew hold
    obtain ⟨ht, hn, hmem, hfull⟩ := refused_when_full (seat_invariant hs) h hnew hold
    rw [mem_roster, Option.not_isSome_iff_eq_none] at hmem
    exact ⟨ht, hn, hmem, (hlen s t).trans hfull⟩
  · intro labels u i t agentId displayName actorId t' n hr hsome hu
    by_contra hold
    -- The agent is still there when the refusal is returned.
    obtain ⟨pre, m, post, v, v', _, hpre, hm, _, hv, hv'⟩ := Runs.run_change (P := fun z =>
      (i, .enroll t agentId displayName actorId, .error (.agentLimitReached t' n)) ∉ z.log)
      hr hold (not_not.mpr hu)
    have hmem : agentId.text ∈ v.db.roster t :=
      Runs.run_invariant (I := fun z => agentId.text ∈ z.db.roster t)
        (fun _ _ _ ha h => mem_roster_step h ha) hpre (mem_roster.mpr hsome)
    exact (refused_when_full (seat_invariant (Runs.reachable_run hs hpre)) hm
      (not_not.mp hv') hv).2.2.1 hmem

section Sample

open Sample

/-- The small store before its agents are enrolled. -/
def emptyStore : StoreState := { store with db := { store.db with agents := [] } }

/-- Two enrolments of one agent and one of another, one statement each in turn. -/
def enrolling : List StoreLabel :=
  [.start 0 (.enroll tenant agent none ['u']), .start 1 (.enroll tenant agent none ['u']),
    .start 2 (.enroll tenant .sampleB none ['u'])] ++
    List.replicate 3 (.exec 0 ⟨10, 0⟩) ++ List.replicate 3 (.exec 1 ⟨10, 0⟩) ++
    List.replicate 3 (.exec 2 ⟨10, 0⟩) ++ List.replicate 5 (.exec 1 ⟨10, 0⟩) ++
    List.replicate 5 (.exec 0 ⟨10, 0⟩) ++ List.replicate 5 (.exec 2 ⟨10, 0⟩)

theorem agents_bounded_sample : ∃ s, Runs.run (pg serde).step emptyStore enrolling = some s ∧
    s.db.roster tenant = [['a'], ['b']] ∧ (s.db.agentsOf tenant).length ≤ maxAgentsPerTenant := by
  have hrun : (Runs.run (pg serde).step emptyStore enrolling).map (·.db.roster tenant) =
      some [['a'], ['b']] := by decide
  obtain ⟨s, hs, hroster⟩ := Option.map_eq_some_iff.mp hrun
  exact ⟨s, hs, hroster, (agents_bounded
    ⟨emptyStore, enrolling, ⟨⟨rfl, fun _ => rfl, rfl⟩, rfl⟩, hs⟩).1 tenant⟩

end Sample

end Capacity

end SkidMonitor
