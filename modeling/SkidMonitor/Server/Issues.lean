import SkidMonitor.Server.Answers
import SkidMonitor.Server.System

/-! Which statements each call of the store sends. -/
namespace SkidMonitor

def Call.tenant? : Call → Option TenantId
  | .append envelope => envelope.scope.tenantId
  | .load scope _ _ _ => scope.tenantId
  | .upsertTenant t _ _ _ | .listAgents t | .loadProjection t | .enroll t _ _ _
  | .setEnabled t _ _ _ | .createTicket _ t _ _ _ | .consumeTicket t _ | .cleanupTickets t => some t

/-- Calls other than appends and loads. -/
def Call.Plain : Call → Prop
  | .append _ | .load _ _ _ _ => False
  | _ => True

/-- The statements a call may send. -/
def Call.Issues (c : Call) : Stmt → Prop
  | .begin | .commit => True
  | .setTenantContext t | .requireEnabledTenant t => c.tenant? = some t
  | .advisoryLock key => ∃ t, c.tenant? = some t ∧ key = tenantLockKey t
  | .selectAgentEnabled t a | .touchAgent t a => ∃ envelope,
      c = .append envelope ∧ envelope.scope = .tenant t ∧ envelope.agentId.text = a
  | .insertEvent event => ∃ envelope, c = .append envelope ∧ envelope.scope = .tenant event.tenantId
  | .selectEvent t _ _ | .insertProjection t _ | .selectProjectionForUpdate t
  | .updateProjection t _ _ | .notify t _ => ∃ envelope,
      c = .append envelope ∧ envelope.scope = .tenant t
  | .loadEnvelopesBounded t _ _ _ => ∃ after rowLimit maxJsonBytes,
      c = .load (.tenant t) after rowLimit maxJsonBytes
  | .listAgents t => c = .listAgents t
  | .selectProjection t => c = .loadProjection t
  | .agentCardinality t a | .upsertAgent t a _ => ∃ agentId displayName actorId,
      c = .enroll t agentId displayName actorId ∧ agentId.text = a
  | .setAgentEnabled t a enabled => ∃ agentId actorId,
      c = .setEnabled t agentId enabled actorId ∧ agentId.text = a
  | .upsertTenant t _ _ => ∃ slug displayName actorId, c = .upsertTenant t slug displayName actorId
  | .insertAudit row => c.Plain ∧ c.tenant? = some row.tenantId
  | .cleanupStreamTickets t => c.Plain ∧ c.tenant? = some t
  | .createStreamTicket id t _ _ _ => ∃ subject authorizedUntilUnix ttlNanos,
      c = .createTicket id t subject authorizedUntilUnix ttlNanos
  | .consumeStreamTicket t id => c = .consumeTicket t id

section Programs

variable {c : Call} {t : TenantId}

theorem beginFor_issues (h : c.tenant? = some t) : (beginFor t).All c.Issues :=
  ⟨trivial, fun _ => ⟨h, fun _ => ⟨h, by rintro (_ | _ | _) <;> trivial⟩⟩⟩

theorem confirmExisting_issues (sd : Serde) {envelope : SignalEnvelope}
    (h : envelope.scope = .tenant t) (payload : Value) :
    (confirmExisting sd t envelope payload).All (Call.append envelope).Issues := by
  refine ⟨⟨envelope, rfl, h⟩, ?_⟩
  rintro (_ | row)
  · trivial
  · refine Prog.all_check fun existing => ?_
    split
    · trivial
    · exact Prog.all_check fun _ => ⟨trivial, fun _ => trivial⟩

theorem recordInserted_issues {envelope : SignalEnvelope} (h : envelope.scope = .tenant t)
    (cursor : ℤ) : (recordInserted t envelope cursor).All (Call.append envelope).Issues := by
  refine Prog.all_check fun _ => Prog.all_check fun _ => ?_
  refine ⟨⟨envelope, rfl, h⟩, fun _ => ⟨⟨envelope, rfl, h⟩, ?_⟩⟩
  rintro (_ | p)
  · trivial
  · exact ⟨⟨envelope, rfl, h⟩, fun _ => ⟨⟨envelope, rfl, h, rfl⟩, fun _ =>
      ⟨⟨envelope, rfl, h⟩, fun _ => ⟨trivial, fun _ => trivial⟩⟩⟩⟩

theorem append_issues (sd : Serde) (envelope : SignalEnvelope) :
    (appendEnvelope sd envelope).All (Call.append envelope).Issues := by
  unfold appendEnvelope
  cases h : envelope.scope with
  | solo => trivial
  | tenant t =>
    have ht : (Call.append envelope).tenant? = some t := by
      simp only [Call.tenant?, h, SignalScope.tenantId]
    simp only [tenantScope, Prog.liftM_eq, Prog.ofExcept_ok, Prog.ok_bind]
    refine Prog.all_check fun payload => (beginFor_issues ht).bind fun _ => ?_
    refine ⟨⟨t, ht, rfl⟩, fun _ => ⟨⟨envelope, rfl, h, rfl⟩, ?_⟩⟩
    rintro (_ | _ | _)
    · trivial
    · trivial
    · refine ⟨⟨envelope, rfl, h⟩, ?_⟩
      rintro (_ | cursor)
      · exact confirmExisting_issues sd h _
      · exact recordInserted_issues h cursor

theorem load_issues (sd : Serde) (scope : SignalScope) (after : SignalCursor)
    (rowLimit maxJsonBytes : ℕ) :
    (loadEnvelopesAfterBounded sd scope after rowLimit maxJsonBytes).All
      (Call.load scope after rowLimit maxJsonBytes).Issues := by
  cases scope with
  | solo => trivial
  | tenant t =>
    simp only [loadEnvelopesAfterBounded, tenantScope, Prog.liftM_eq, Prog.ofExcept_ok,
      Prog.ok_bind]
    refine Prog.all_check fun _ => (beginFor_issues rfl).bind fun _ => ?_
    refine ⟨⟨_, _, _, rfl⟩, fun _ => Prog.all_check fun _ => ?_⟩
    exact ⟨trivial, fun _ => trivial⟩

theorem upsertTenant_issues (t : TenantId) (slug displayName actorId : Str) :
    (upsertTenantAs t slug displayName actorId).All
      (Call.upsertTenant t slug displayName actorId).Issues := by
  refine Prog.all_check fun _ => ?_
  refine ⟨trivial, fun _ => ⟨rfl, fun _ => ⟨⟨_, _, _, rfl⟩, fun row => ?_⟩⟩⟩
  refine Prog.all_check fun tenant => ?_
  cases tenant.enabled
  · trivial
  · exact ⟨⟨trivial, rfl⟩, fun _ => ⟨trivial, fun _ => trivial⟩⟩

theorem listAgents_issues (t : TenantId) : (listAgents t).All (Call.listAgents t).Issues := by
  refine (beginFor_issues rfl).bind fun _ => ⟨rfl, fun rows => ?_⟩
  exact Prog.all_check fun _ => ⟨trivial, fun _ => trivial⟩

theorem loadProjection_issues (t : TenantId) :
    (loadProjection t).All (Call.loadProjection t).Issues := by
  refine (beginFor_issues rfl).bind fun _ => ⟨rfl, ?_⟩
  rintro (_ | row)
  · exact ⟨trivial, fun _ => trivial⟩
  · exact Prog.all_check fun _ => ⟨trivial, fun _ => trivial⟩

theorem enroll_issues (t : TenantId) (a : AgentId) (displayName : Option Str)
    (actorId : Str) : (enrollAgentAs t a displayName actorId).All
      (Call.enroll t a displayName actorId).Issues := by
  refine Prog.all_check fun _ => (beginFor_issues rfl).bind fun _ => ?_
  refine ⟨⟨t, rfl, rfl⟩, fun _ => ⟨⟨_, _, _, rfl, rfl⟩, fun _ => ?_⟩⟩
  refine Prog.all_check fun _ => ⟨⟨_, _, _, rfl, rfl⟩, fun _ => ?_⟩
  refine Prog.all_check fun _ => ⟨⟨trivial, rfl⟩, fun _ => ?_⟩
  exact ⟨trivial, fun _ => trivial⟩

theorem setEnabled_issues (t : TenantId) (a : AgentId) (enabled : Bool) (actorId : Str) :
    (setAgentEnabledAs t a enabled actorId).All (Call.setEnabled t a enabled actorId).Issues := by
  refine Prog.all_check fun _ => (beginFor_issues rfl).bind fun _ => ?_
  refine ⟨⟨_, _, rfl, rfl⟩, ?_⟩
  rintro (_ | row)
  · exact ⟨trivial, fun _ => trivial⟩
  · refine Prog.all_check fun _ => ?_
    exact ⟨⟨trivial, rfl⟩, fun _ => ⟨trivial, fun _ => trivial⟩⟩

theorem createTicket_issues (id : Uuids.Uuid) (t : TenantId) (subject : Str)
    (authorizedUntilUnix : UInt64) (ttlNanos : ℕ) :
    (createStreamTicket id t subject authorizedUntilUnix ttlNanos).All
      (Call.createTicket id t subject authorizedUntilUnix ttlNanos).Issues := by
  refine Prog.all_check fun _ => Prog.all_check fun _ => ?_
  refine Prog.all_check fun _ => (beginFor_issues rfl).bind fun _ => ?_
  refine ⟨⟨trivial, rfl⟩, fun _ => ⟨⟨_, _, _, rfl⟩, fun inserted => ?_⟩⟩
  rcases inserted with _ | n
  · trivial
  · exact ⟨trivial, fun _ => trivial⟩

theorem consumeTicket_issues (t : TenantId) (id : Uuids.Uuid) :
    (consumeStreamTicket t id).All (Call.consumeTicket t id).Issues := by
  refine (beginFor_issues rfl).bind fun _ => ⟨rfl, ?_⟩
  rintro (_ | row)
  · exact ⟨trivial, fun _ => trivial⟩
  · exact Prog.all_check fun _ => ⟨trivial, fun _ => trivial⟩

theorem cleanupTickets_issues (t : TenantId) :
    (cleanupStreamTickets t).All (Call.cleanupTickets t).Issues :=
  (beginFor_issues rfl).bind fun _ => ⟨⟨trivial, rfl⟩, fun _ => ⟨trivial, fun _ => trivial⟩⟩

end Programs

/-- Every call sends only the statements it may send. -/
theorem program_issues (sd : Serde) (c : Call) : (Call.program sd c).All c.Issues := by
  cases c with
  | append envelope => exact (append_issues sd envelope).bind fun _ => trivial
  | load scope after rowLimit maxJsonBytes =>
    exact (load_issues sd scope after rowLimit maxJsonBytes).bind fun _ => trivial
  | upsertTenant t slug displayName actorId =>
    exact (upsertTenant_issues t slug displayName actorId).bind fun _ => trivial
  | listAgents t => exact (listAgents_issues t).bind fun _ => trivial
  | loadProjection t => exact (loadProjection_issues t).bind fun _ => trivial
  | enroll t a displayName actorId =>
    exact (enroll_issues t a displayName actorId).bind fun _ => trivial
  | setEnabled t a enabled actorId =>
    exact (setEnabled_issues t a enabled actorId).bind fun _ => trivial
  | createTicket id t subject authorizedUntilUnix ttlNanos =>
    exact (createTicket_issues id t subject authorizedUntilUnix ttlNanos).bind fun _ => trivial
  | consumeTicket t id => exact (consumeTicket_issues t id).bind fun _ => trivial
  | cleanupTickets t => exact (cleanupTickets_issues t).bind fun _ => trivial

/-- Only appends write events. -/
theorem Call.Issues.quiet {c : Call} {st : Stmt} (h : c.Issues st) (hc : c.Plain) : st.Quiet := by
  cases st with
  | insertEvent | insertProjection | updateProjection =>
    obtain ⟨_, rfl, _⟩ := h
    exact hc.elim
  | _ => trivial

end SkidMonitor
