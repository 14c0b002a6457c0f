import SkidMonitor.Lib.Fallible
import SkidMonitor.Server.Sql

/-! What the answer to a statement says about the tables it was asked of. -/
namespace SkidMonitor

open Fallible
open ReadCommitted (Reading)

variable {conn : Conn} {db : Db} {rd : Reading} {ws : List Write} {t : TenantId} {a : Str}

theorem requireTenant_ok {u : Unit} (h : requireTenant conn t = .ok u) :
    conn.tenantId = some t := by
  unfold requireTenant at h
  split at h
  · assumption
  · cases h

theorem requireChecks_ok {checks : List (String × Bool)} :
    requireChecks checks = .ok () ↔ ∀ c ∈ checks, c.2 = true := by
  induction checks with
  | nil => simp [requireChecks]
  | cons c checks ih =>
    obtain ⟨name, holds⟩ := c
    cases holds <;> simp [requireChecks, ih]

theorem requireText_ok {text : Str} {u : Unit} :
    requireText text = .ok u ↔ hasNul text = false := by
  unfold requireText
  split <;> simp_all

theorem requireNumeral_ok {text : Str} {n : ℕ} :
    requireNumeral text = .ok n ↔ Numeral.read text = some n := by
  unfold requireNumeral
  split <;> simp_all

/-- What an event must meet to become a row, and the row. -/
theorem row_ok {event : EventInsert} {cursor : ℤ} {row : EventRow} :
    event.row cursor = .ok row ↔ event.payload.allTexts (fun s => !hasNul s.toList) = true ∧
      hasNul event.agentId = false ∧ ∃ sequence receivedAt,
        Numeral.read event.sequence = some sequence ∧
        Numeral.read event.receivedAtUnixNano = some receivedAt ∧
        row = ⟨cursor, event.tenantId, event.eventId, event.agentId, sequence, receivedAt,
          event.signalKind, toJsonb event.payload, event.payloadBytes⟩ ∧
        ∀ c ∈ row.checks, c.2 = true := by
  constructor
  · intro h
    unfold EventInsert.row at h
    split at h
    · cases h
    · rename_i htexts
      obtain ⟨_, hagent, h⟩ := bind_ok h
      obtain ⟨sequence, hseq, h⟩ := bind_ok h
      obtain ⟨receivedAt, hrec, h⟩ := bind_ok h
      obtain ⟨_, hchecks, h⟩ := bind_ok h
      cases h
      exact ⟨by simpa using htexts, requireText_ok.mp hagent, sequence, receivedAt,
        requireNumeral_ok.mp hseq, requireNumeral_ok.mp hrec, rfl, requireChecks_ok.mp hchecks⟩
  · rintro ⟨htexts, hagent, sequence, receivedAt, hseq, hrec, rfl, hchecks⟩
    have htext : requireText event.agentId = .ok () := requireText_ok.mpr hagent
    rw [← requireChecks_ok] at hchecks
    simp only [EventInsert.row, htexts, htext, requireNumeral_ok.mpr hseq,
      requireNumeral_ok.mpr hrec]
    simp only [Bool.not_true, Bool.false_eq_true, if_false]
    change (requireChecks _ >>= fun _ => _) = _
    rw [hchecks]
    rfl

theorem eval_insertEvent {event : EventInsert} {r : Option ℤ}
    (h : Stmt.eval conn db rd (.insertEvent event) = .ok (r, ws)) :
    ∃ row, event.row rd.fresh = .ok row ∧ conn.tenantId = some row.tenantId ∧
      ((r = none ∧ ws = [] ∧ (db.event? row.tenantId row.agentId row.sequence).isSome) ∨
        (r = some rd.fresh ∧ ws = [.insertEvent row] ∧
          db.event? row.tenantId row.agentId row.sequence = none)) := by
  simp only [Stmt.eval] at h
  obtain ⟨row, hrow, h⟩ := bind_ok h
  obtain ⟨_, ht, h⟩ := bind_ok h
  refine ⟨row, hrow, requireTenant_ok ht, ?_⟩
  split at h
  · cases h
    exact Or.inl ⟨rfl, rfl, ‹_›⟩
  · rename_i hnone
    split at h
    · cases h
    · cases h
      exact Or.inr ⟨rfl, rfl, by simpa using hnone⟩

/-- Why an event is refused: it is no row, it is another tenant's, or its identifier is
taken. -/
theorem eval_insertEvent_error {event : EventInsert} {e : DbError}
    (h : Stmt.eval conn db rd (.insertEvent event) = .error e) :
    (∀ row, event.row rd.fresh ≠ .ok row) ∨ conn.tenantId ≠ some event.tenantId ∨
      ∃ row, event.row rd.fresh = .ok row ∧
        db.event? row.tenantId row.agentId row.sequence = none ∧
        ∃ r ∈ db.events, r.tenantId = row.tenantId ∧ r.eventId = row.eventId := by
  simp only [Stmt.eval] at h
  cases hrow : event.row rd.fresh with
  | error e' => exact Or.inl (by simp)
  | ok row =>
    obtain ⟨_, _, _, _, _, _, hr, _⟩ := row_ok.mp hrow
    have ht : row.tenantId = event.tenantId := by rw [hr]
    by_cases hconn : conn.tenantId = some event.tenantId
    · refine Or.inr (Or.inr ⟨row, rfl, ?_⟩)
      have hreq : requireTenant conn row.tenantId = .ok () := by
        rw [requireTenant, ht, if_pos hconn]
      rw [hrow] at h
      simp only [bind, Except.bind, hreq] at h
      split at h
      · cases h
      · rename_i hnone
        split at h
        · rename_i hclash
          refine ⟨by simpa using hnone, ?_⟩
          simpa using hclash
        · cases h
    · exact Or.inr (Or.inl hconn)

/-- The bounded load returns a first part of the events it selects. -/
theorem loadBounded_prefix {events : List EventRow} {after : ℤ} {limit maxBytes : ℕ}
    (h : (events.filter fun r => r.tenantId = t ∧ after < r.cursor).Pairwise
      fun r r' => r.cursor < r'.cursor) :
    loadBounded events t after limit maxBytes <+:
      events.filter fun r => r.tenantId = t ∧ after < r.cursor := by
  have hsort : byCursor (events.filter fun r => r.tenantId = t ∧ after < r.cursor) =
      events.filter fun r => r.tenantId = t ∧ after < r.cursor :=
    List.Pairwise.insertionSort_eq (h.imp fun hlt => hlt.le)
  simp only [loadBounded, hsort]
  split
  · exact List.nil_prefix
  · exact Table.filter_le_prefix _ _ h

/-- The writes a statement may make. -/
def Stmt.Writes : Stmt → Write → Prop
  | .insertEvent event, .insertEvent row => row.tenantId = event.tenantId
  | .insertProjection t p, .insertProjection row => row = ⟨t, 0, p⟩
  | .updateProjection t cursor p, .updateProjection t' cursor' p' =>
    t' = t ∧ cursor' = cursor ∧ p' = p
  | .touchAgent t a, .touchAgent t' a' _ => t' = t ∧ a' = a
  | .upsertAgent t a _, .upsertAgent row =>
    row.tenantId = t ∧ row.agentId = a ∧ row.enabled = true
  | .setAgentEnabled t a enabled, .setAgentEnabled t' a' enabled' =>
    t' = t ∧ a' = a ∧ enabled' = enabled
  | .upsertTenant t _ _, .upsertTenant row => row.id = t
  | .insertAudit row, .insertAudit row' => row' = row
  | .cleanupStreamTickets t, .deleteTickets t' _ _ => t' = t
  | .createStreamTicket id t _ _ _, .insertTicket row => row.tenantId = t ∧ row.ticketId = id
  | .consumeStreamTicket t id, .consumeTicket t' id' _ => t' = t ∧ id' = id
  | _, _ => False

theorem eval_writes {st : Stmt} {r : st.Resp} (h : st.eval conn db rd = .ok (r, ws)) :
    ∀ wr ∈ ws, st.Writes wr := by
  have hone : ∀ {wr' : Write}, ws = [wr'] → st.Writes wr' → ∀ wr ∈ ws, st.Writes wr := by
    rintro wr' rfl hw wr hwr
    rwa [List.mem_singleton.mp hwr]
  have hnone : ws = [] → ∀ wr ∈ ws, st.Writes wr := by
    rintro rfl wr hwr
    cases hwr
  cases st with
  | begin | setTenantContext | requireEnabledTenant | advisoryLock | selectAgentEnabled | notify
  | selectProjectionForUpdate | loadEnvelopesBounded | selectProjection | agentCardinality
  | commit =>
    cases h
    exact hnone rfl
  | insertEvent event =>
    obtain ⟨row, hrow, _, ⟨_, hws, _⟩ | ⟨_, hws, _⟩⟩ := eval_insertEvent h
    · exact hnone hws
    · obtain ⟨_, _, _, _, _, _, rfl, _⟩ := row_ok.mp hrow
      exact hone hws rfl
  | selectEvent t a sequence =>
    obtain ⟨_, _, h⟩ := bind_ok h
    cases h
    exact hnone rfl
  | insertProjection t p =>
    obtain ⟨_, _, h⟩ := bind_ok h
    split at h
    · cases h
      exact hnone rfl
    · cases h
      exact hone rfl rfl
  | updateProjection t cursor p =>
    have hws := congrArg Prod.snd (Except.ok.inj h)
    by_cases hp : ((db.visible conn.tenantId).projection? t).isSome
    · exact hone (hws.symm.trans (if_pos hp)) ⟨rfl, rfl, rfl⟩
    · exact hnone (hws.symm.trans (if_neg hp))
  | touchAgent t a =>
    have hws := congrArg Prod.snd (Except.ok.inj h)
    by_cases ha : ((db.visible conn.tenantId).agent? t a).isSome
    · exact hone (hws.symm.trans (if_pos ha)) ⟨rfl, rfl⟩
    · exact hnone (hws.symm.trans (if_neg ha))
  | listAgents t =>
    obtain ⟨_, _, h⟩ := bind_ok h
    cases h
    exact hnone rfl
  | upsertAgent t a displayName =>
    iterate 5 obtain ⟨_, _, h⟩ := bind_ok h
    cases h
    exact hone rfl ⟨rfl, rfl, rfl⟩
  | setAgentEnabled t a enabled =>
    simp only [Stmt.eval] at h
    split at h
    · cases h
      exact hnone rfl
    · obtain ⟨_, _, h⟩ := bind_ok h
      cases h
      exact hone rfl ⟨rfl, rfl, rfl⟩
  | upsertTenant t slug displayName =>
    iterate 4 obtain ⟨_, _, h⟩ := bind_ok h
    by_cases hslug : db.tenants.any fun r => r.slug = slug ∧ r.id ≠ t
    · rw [if_pos hslug] at h
      cases h
    · rw [if_neg hslug] at h
      obtain ⟨_, _, h⟩ := bind_ok h
      cases h
      exact hone rfl rfl
  | insertAudit row =>
    iterate 3 obtain ⟨_, _, h⟩ := bind_ok h
    cases h
    exact hone rfl rfl
  | cleanupStreamTickets t =>
    cases h
    exact hone rfl rfl
  | createStreamTicket id t subject ttlMillis authorizedUntilUnix =>
    obtain ⟨_, _, h⟩ := bind_ok h
    by_cases hlate : authorizedUntilUnix * 1000000 ≤ rd.now
    · rw [if_pos hlate] at h
      cases h
      exact hnone rfl
    · rw [if_neg hlate] at h
      obtain ⟨_, _, h⟩ := bind_ok h
      obtain ⟨_, _, h⟩ := bind_ok h
      split at h
      · cases h
      · cases h
        exact hone rfl ⟨rfl, rfl⟩
  | consumeStreamTicket t id =>
    simp only [Stmt.eval] at h
    split at h
    · cases h
      exact hnone rfl
    · cases h
      exact hone rfl ⟨rfl, rfl⟩

/-- Statements that write neither events nor projections. -/
def Stmt.Quiet : Stmt → Prop
  | .insertEvent _ | .insertProjection _ _ | .updateProjection _ _ _ => False
  | _ => True

theorem Stmt.Writes.quiet {st : Stmt} {wr : Write} (hst : st.Quiet) (h : st.Writes wr) :
    wr.Quiet := by
  cases st <;> cases wr <;> first | exact hst | exact h | trivial

/-- A statement that switches an agent holds its row. -/
theorem eval_switches {st : Stmt} {r : st.Resp} {wr : Write}
    (h : st.eval conn db rd = .ok (r, ws)) (hwr : wr ∈ ws) (hs : wr.Switches t a) :
    ⟨.agentRow t a, true⟩ ∈ st.locks conn db rd := by
  have hw := eval_writes h wr hwr
  cases wr with
  | upsertAgent row =>
    cases st with
    | upsertAgent t' a' displayName =>
      obtain ⟨rfl, rfl⟩ := hs
      obtain ⟨ht, ha, _⟩ := hw
      simp [Stmt.locks, ht, ha]
    | _ => exact hw.elim
  | setAgentEnabled t' a' enabled' =>
    cases st with
    | setAgentEnabled t'' a'' enabled =>
      obtain ⟨rfl, rfl⟩ := hs
      obtain ⟨rfl, rfl, rfl⟩ := hw
      simp only [Stmt.eval] at h
      split at h
      · cases h
        cases hwr
      · rename_i row hrow
        simp [Stmt.locks, hrow]
    | _ => exact hw.elim
  | _ => exact hs.elim

end SkidMonitor
