import SkidMonitor.Lib.Discipline
import SkidMonitor.Lib.Trace
import SkidMonitor.Server.Books

/-! The life of a stream ticket: issued once, redeemed at most once and in time, removed
only when it is spent. -/
namespace SkidMonitor

open Fallible List
open ReadCommitted
open Uuids (Uuid)

variable {sd : Serde} {db db' : Db} {id : Uuid} {t : TenantId}

def Db.ticketsOf (db : Db) (id : Uuid) : List TicketRow := db.tickets.filter fun r => r.ticketId = id

section Discipline

/-- What must hold of the tables when a write on tickets is made. -/
def TicketLegal (db : Db) : Write → Prop
  | .insertTicket row => db.ticketsOf row.ticketId = []
  | .consumeTicket t id now => ∃ r ∈ db.ticketsOf id, r.tenantId = t ∧ r.spent now = false
  | .deleteTickets t ids now => ∀ id ∈ ids, ∃ r ∈ db.ticketsOf id, r.tenantId = t ∧ r.spent now = true
  | _ => True

def TicketGuards : Write → Lock → Prop
  | .insertTicket row, lock => lock = ⟨.ticket row.ticketId, true⟩
  | .consumeTicket _ id _, lock => lock = ⟨.ticket id, true⟩
  | .deleteTickets _ ids _, lock => ∃ id ∈ ids, lock = ⟨.ticket id, true⟩
  | _, _ => False

/-- The rows a lock is about. -/
def ticketPart (lock : Lock) (db : Db) : List TicketRow :=
  match lock with
  | ⟨.ticket id, true⟩ => db.ticketsOf id
  | _ => []

theorem ticketsOf_congr {wr : Write} (h : db'.ticketsOf id = db.ticketsOf id) :
    (db'.apply wr).ticketsOf id = (db.apply wr).ticketsOf id := by
  unfold Db.ticketsOf at h ⊢
  cases wr with
  | insertTicket row => simp only [Db.apply, filter_append, h]
  | consumeTicket t' id' now =>
    simp only [Db.apply]
    rw [Table.filter_modify (by intro; rfl), Table.filter_modify (by intro; rfl), h]
  | deleteTickets t' ids now =>
    simp only [Db.apply]
    rw [filter_comm, h, filter_comm]
  | _ => exact h

theorem ticketsOf_other {wr : Write} (h : ¬ TicketGuards wr ⟨.ticket id, true⟩) :
    (db.apply wr).ticketsOf id = db.ticketsOf id := by
  unfold Db.ticketsOf
  cases wr with
  | insertTicket row =>
    have hne : row.ticketId ≠ id := fun he => h (by simp [TicketGuards, he])
    simp [Db.apply, hne]
  | consumeTicket t' id' now =>
    have hne : id' ≠ id := fun he => h (by simp [TicketGuards, he])
    refine Table.filter_modify_ne (by intro; rfl) fun r hr => ?_
    simp only [decide_eq_true_eq] at hr
    simp [hr.2, hne]
  | deleteTickets t' ids now =>
    have hnot : id ∉ ids := fun hmem => h ⟨id, hmem, rfl⟩
    simp only [Db.apply, filter_filter]
    refine filter_congr fun r _ => ?_
    by_cases hr : r.ticketId = id <;> simp [hr, hnot]
  | _ => rfl

/-- The row a statement on a ticket selects is there. -/
theorem mem_ticketsOf_visible {conn : Conn} {r : TicketRow}
    (h : r ∈ (db.visible conn.tenantId).tickets) : r ∈ db.ticketsOf r.ticketId := by
  cases hc : conn.tenantId with
  | none => simp [hc, Db.visible] at h
  | some t =>
    rw [hc] at h
    exact mem_filter.mpr ⟨mem_of_mem_filter h, decide_eq_true rfl⟩

theorem eval_createTicket {conn : Conn} {rd : Reading} {subject : Str}
    {ttlMillis authorizedUntilUnix n : ℕ} {ws : List Write}
    (h : (Stmt.createStreamTicket id t subject ttlMillis authorizedUntilUnix).eval conn db rd =
      .ok (n, ws)) : (n = 0 ∧ ws = []) ∨ n = 1 ∧ rd.now < authorizedUntilUnix * 1000000 ∧
        db.ticketsOf id = [] ∧
        ws = [.insertTicket ⟨id, t, subject, conn.startedAt, authorizedUntilUnix * 1000000,
          min (rd.now + ttlMillis * 1000) (authorizedUntilUnix * 1000000), none⟩] := by
  obtain ⟨_, _, h⟩ := bind_ok h
  by_cases hlate : authorizedUntilUnix * 1000000 ≤ rd.now
  · rw [if_pos hlate] at h
    cases h
    exact Or.inl ⟨rfl, rfl⟩
  · rw [if_neg hlate] at h
    obtain ⟨_, _, h⟩ := bind_ok h
    obtain ⟨_, _, h⟩ := bind_ok h
    split at h
    · cases h
    · rename_i hfree
      cases h
      refine Or.inr ⟨rfl, Nat.lt_of_not_le hlate, ?_, rfl⟩
      simpa [Db.ticketsOf] using hfree

theorem eval_consumeTicket {conn : Conn} {rd : Reading} {r : Option (Str × ℤ)}
    {ws : List Write} (h : (Stmt.consumeStreamTicket t id).eval conn db rd = .ok (r, ws)) :
    (r = none ∧ ws = []) ∨ ∃ row ∈ (db.visible conn.tenantId).tickets, row.tenantId = t ∧
      row.ticketId = id ∧ row.spent rd.now = false ∧
      r = some (row.subject, ((row.authorizedUntil : ℤ) + 500000) / 1000000) ∧
      ws = [.consumeTicket t id rd.now] := by
  simp only [Stmt.eval] at h
  split at h
  · cases h
    exact Or.inl ⟨rfl, rfl⟩
  · rename_i row hrow
    have hmem := mem_of_find?_eq_some hrow
    have hrow := find?_some hrow
    simp only [decide_eq_true_eq] at hrow
    cases h
    exact Or.inr ⟨row, hmem, hrow.1, hrow.2.1, hrow.2.2, rfl, rfl⟩

theorem eval_cleanup {conn : Conn} {rd : Reading} {n : ℕ} {ws : List Write}
    (h : (Stmt.cleanupStreamTickets t).eval conn db rd = .ok (n, ws)) :
    ∃ ids, ws = [.deleteTickets t ids rd.now] ∧
      (Stmt.cleanupStreamTickets t).locks conn db rd = ids.map (fun id => ⟨.ticket id, true⟩) ∧
      ∀ id ∈ ids, ∃ r ∈ db.ticketsOf id, r.tenantId = t ∧ r.spent rd.now = true := by
  cases h
  refine ⟨_, rfl, by simp only [Stmt.locks, map_map, Function.comp_def], fun id hid => ?_⟩
  obtain ⟨r, hr, rfl⟩ := mem_map.mp hid
  obtain ⟨hmem, hsel⟩ := mem_filter.mp hr
  simp only [Bool.and_eq_true, decide_eq_true_eq] at hsel
  exact ⟨r, mem_ticketsOf_visible hmem, hsel⟩

theorem ticket_locked {conn : Conn} {rd : Reading} {st : Stmt} {r : st.Resp} {ws : List Write}
    (h : st.eval conn db rd = .ok (r, ws)) :
    ∀ wr ∈ ws, ∀ lock, TicketGuards wr lock → lock ∈ st.locks conn db rd := by
  intro wr hwr lock hguard
  have hw := eval_writes h wr hwr
  cases st with
  | createStreamTicket id t subject ttlMillis authorizedUntilUnix =>
    rcases eval_createTicket h with ⟨_, rfl⟩ | ⟨_, hnow, _, rfl⟩
    · cases hwr
    · cases mem_singleton.mp hwr
      simp only [TicketGuards] at hguard
      simp [Stmt.locks, hguard, Nat.not_le_of_lt hnow]
  | consumeStreamTicket t id =>
    rcases eval_consumeTicket h with ⟨_, rfl⟩ | ⟨row, hrow, ht, hid, hspent, _, rfl⟩
    · cases hwr
    · cases mem_singleton.mp hwr
      have hany : ((db.visible conn.tenantId).tickets.any fun r =>
          r.tenantId = t ∧ r.ticketId = id ∧ r.spent rd.now = false) = true :=
        any_eq_true.mpr ⟨row, hrow, decide_eq_true ⟨ht, hid, hspent⟩⟩
      simp only [Stmt.locks, hany, if_true]
      exact mem_singleton.mpr hguard
  | cleanupStreamTickets t =>
    obtain ⟨ids, rfl, hlocks, _⟩ := eval_cleanup h
    cases mem_singleton.mp hwr
    obtain ⟨id, hid, rfl⟩ := hguard
    rw [hlocks]
    exact mem_map_of_mem hid
  | _ => cases wr <;> first | exact hw.elim | exact hguard.elim

theorem ticket_legal {conn : Conn} {rd : Reading} {st : Stmt} {r : st.Resp} {ws : List Write}
    (h : st.eval conn db rd = .ok (r, ws)) : (pg sd).Legally TicketLegal db ws := by
  have hw := eval_writes h
  -- Statements on other tables make writes about which nothing is asked.
  have hall : ∀ {db : Db} {vs : List Write}, (∀ wr ∈ vs, ∀ db, TicketLegal db wr) →
      (pg sd).Legally TicketLegal db vs := by
    intro db vs hvs
    induction vs generalizing db with
    | nil => trivial
    | cons wr vs ih =>
      exact ⟨hvs wr mem_cons_self db, ih fun v hv => hvs v (mem_cons_of_mem wr hv)⟩
  cases st with
  | createStreamTicket id t subject ttlMillis authorizedUntilUnix =>
    rcases eval_createTicket h with ⟨_, rfl⟩ | ⟨_, _, hfree, rfl⟩
    · trivial
    · exact ⟨hfree, trivial⟩
  | consumeStreamTicket t id =>
    rcases eval_consumeTicket h with ⟨_, rfl⟩ | ⟨row, hrow, ht, hid, hspent, _, rfl⟩
    · trivial
    · exact ⟨⟨row, hid ▸ mem_ticketsOf_visible hrow, ht, hspent⟩, trivial⟩
  | cleanupStreamTickets t =>
    obtain ⟨ids, rfl, _, hids⟩ := eval_cleanup h
    exact ⟨hids, trivial⟩
  | _ =>
    refine hall fun wr hwr db => ?_
    have := hw wr hwr
    cases wr <;> trivial

/-- Writes on tickets are made under the locks of the tickets. -/
def ticketDiscipline (sd : Serde) : Discipline (pg sd) (List TicketRow) where
  Legal := TicketLegal
  Guards := TicketGuards
  part := ticketPart
  exclusive {wr lock} h := by
    cases wr with
    | insertTicket | consumeTicket =>
      cases h
      simp [pg, Lock.conflicts]
    | deleteTickets =>
      obtain ⟨id, _, rfl⟩ := h
      simp [pg, Lock.conflicts]
    | _ => exact h.elim
  legal_congr {wr db db'} h hlegal := by
    cases wr with
    | insertTicket row => exact (h _ rfl).trans hlegal
    | consumeTicket t id now =>
      have hpart : db'.ticketsOf id = db.ticketsOf id := h _ rfl
      simpa only [TicketLegal, hpart] using hlegal
    | deleteTickets t ids now =>
      intro id hid
      have hpart : db'.ticketsOf id = db.ticketsOf id := h _ ⟨id, hid, rfl⟩
      rw [hpart]
      exact hlegal id hid
    | _ => trivial
  part_congr {wr lock db db'} h := by
    obtain ⟨target, _ | _⟩ := lock
    · cases target <;> rfl
    cases target with
    | ticket id => exact ticketsOf_congr h
    | _ => rfl
  part_other {wr lock db} h := by
    obtain ⟨target, _ | _⟩ := lock
    · cases target <;> rfl
    cases target with
    | ticket id => exact ticketsOf_other h
    | _ => rfl
  locked := ticket_locked
  legal := ticket_legal

end Discipline

section Writes

variable {ws : List Write}

def Entry.issues (id : Uuid) : Entry → Bool
  | .issued id' => id' = id
  | _ => false

def Entry.redeems (id : Uuid) : Entry → Bool
  | .redeemed _ id' => id' = id
  | _ => false

/-- The tickets of an identifier that can still be redeemed. -/
def Db.openTickets (db : Db) (id : Uuid) : List TicketRow :=
  db.tickets.filter fun r => r.ticketId = id && r.consumedAt.isNone

theorem open_apply {wr : Write} (h : TicketLegal db wr) :
    wr.entries.countP (Entry.redeems id) + ((db.apply wr).openTickets id).length ≤
      (db.openTickets id).length + wr.entries.countP (Entry.issues id) := by
  cases wr with
  | insertTicket row =>
    simp only [Db.openTickets, Db.apply, filter_append, length_append, Write.entries]
    have hrow : ([row].filter fun r => r.ticketId = id && r.consumedAt.isNone).length ≤
        [Entry.issued row.ticketId].countP (Entry.issues id) := by
      by_cases hid : row.ticketId = id
      · simpa [Entry.issues, hid] using length_filter_le _ [row]
      · simp [Entry.issues, hid]
    simp only [countP_cons, countP_nil, Entry.redeems] at hrow ⊢
    simp only [Bool.false_eq_true, if_false]
    omega
  | consumeTicket t' id' now =>
    obtain ⟨r, hr, ht, hspent⟩ := h
    obtain ⟨hmem, hid⟩ := mem_filter.mp hr
    simp only [decide_eq_true_eq] at hid
    simp only [TicketRow.spent, Bool.or_eq_false_iff, Option.isSome_eq_false_iff] at hspent
    simp only [Db.openTickets, Db.apply, Write.entries, countP_cons, countP_nil,
      Entry.redeems, Entry.issues]
    by_cases he : id' = id
    · subst he
      have hlt := Table.length_filter_modify_lt
        (p := fun r => r.tenantId = t' ∧ r.ticketId = id')
        (f := fun r => { r with consumedAt := some now })
        (q := fun r => r.ticketId = id' && r.consumedAt.isNone) (by simp) hmem
        (by simp [ht, hid]) (by simp [hid, hspent.1])
      simp only [decide_true, if_true, Bool.false_eq_true, if_false]
      omega
    · have hsame : ((Table.modify (fun r => r.tenantId = t' ∧ r.ticketId = id')
          (fun r => { r with consumedAt := some now }) db.tickets).filter
            fun r => r.ticketId = id && r.consumedAt.isNone).length ≤
          (db.tickets.filter fun r => r.ticketId = id && r.consumedAt.isNone).length :=
        Table.length_filter_modify_le (by simp)
      simp only [he, decide_false, Bool.false_eq_true, if_false]
      omega
  | deleteTickets t' ids now =>
    simp only [Db.openTickets, Db.apply, Write.entries, countP_nil]
    have hle := ((filter_sublist (l := db.tickets) (p := fun r =>
      !(r.tenantId = t' && ids.contains r.ticketId))).filter fun r =>
        r.ticketId = id && r.consumedAt.isNone).length_le
    omega
  | _ => simp [Db.openTickets, Db.apply, Write.entries, Entry.redeems, Entry.issues]

/-- A ticket is redeemed no more often than it is issued. -/
theorem redeemed_le (h : (pg sd).Legally TicketLegal db ws) :
    (ws.flatMap Write.entries).countP (Entry.redeems id) +
        (((pg sd).view db ws).openTickets id).length ≤
      (db.openTickets id).length + (ws.flatMap Write.entries).countP (Entry.issues id) := by
  induction ws generalizing db with
  | nil => simp
  | cons wr ws ih =>
    have hfirst := @open_apply db id wr h.1
    have hrest := @ih (db.apply wr) h.2
    rw [flatMap_cons, countP_append, countP_append]
    change _ + (((pg sd).view (db.apply wr) ws).openTickets id).length ≤ _
    omega

theorem keys_apply {wr : Write} (h : TicketLegal db wr) (hkeys : (db.tickets.map (·.ticketId)).Nodup) :
    ((db.apply wr).tickets.map (·.ticketId)).Nodup := by
  cases wr with
  | insertTicket row =>
    simp only [Db.apply, map_append, map_singleton]
    refine nodup_append.mpr ⟨hkeys, pairwise_singleton _ _, fun a ha b hb hab => ?_⟩
    obtain ⟨r, hr, rfl⟩ := mem_map.mp ha
    rw [mem_singleton.mp hb] at hab
    exact filter_eq_nil_iff.mp h r hr (decide_eq_true hab)
  | consumeTicket t' id' now =>
    simp only [Db.apply]
    rw [Table.map_modify (by intro; rfl)]
    exact hkeys
  | deleteTickets t' ids now => exact (filter_sublist.map _).nodup hkeys
  | _ => exact hkeys

theorem keys_view (h : (pg sd).Legally TicketLegal db ws)
    (hkeys : (db.tickets.map (·.ticketId)).Nodup) :
    (((pg sd).view db ws).tickets.map (·.ticketId)).Nodup := by
  induction ws generalizing db with
  | nil => exact hkeys
  | cons wr ws ih => exact ih h.2 (keys_apply h.1 hkeys)

/-- All of a ticket but whether it is consumed. -/
def TicketRow.issue (r : TicketRow) : TicketRow := { r with consumedAt := none }

theorem issue_fields {r r' : TicketRow} (h : r'.issue = r.issue) : r'.ticketId = r.ticketId ∧
    r'.tenantId = r.tenantId ∧ r'.subject = r.subject ∧ r'.authorizedUntil = r.authorizedUntil ∧
    r'.expiresAt = r.expiresAt := by
  cases r
  cases r'
  cases h
  exact ⟨rfl, rfl, rfl, rfl, rfl⟩

/-- A ticket is there from the start or was inserted. -/
theorem ticket_of_view {r : TicketRow} (h : r ∈ ((pg sd).view db ws).tickets) :
    ∃ r', r'.issue = r.issue ∧ (r' ∈ db.tickets ∨ .insertTicket r' ∈ ws) := by
  induction ws generalizing db with
  | nil => exact ⟨r, rfl, Or.inl h⟩
  | cons wr ws ih =>
    obtain ⟨r', hissue, hr' | hr'⟩ := ih h
    · have hold : r' ∈ db.tickets → ∃ r'', r''.issue = r.issue ∧
          (r'' ∈ db.tickets ∨ .insertTicket r'' ∈ wr :: ws) := fun hm => ⟨r', hissue, Or.inl hm⟩
      change r' ∈ (db.apply wr).tickets at hr'
      cases wr with
      | insertTicket row =>
        rcases mem_append.mp hr' with hr' | hr'
        · exact hold hr'
        · rw [mem_singleton.mp hr'] at hissue
          exact ⟨row, hissue, Or.inr mem_cons_self⟩
      | consumeTicket t' id' now =>
        obtain ⟨o, ho, he⟩ := Table.mem_modify.mp hr'
        refine ⟨o, Eq.trans ?_ hissue, Or.inl ho⟩
        rw [← he]
        split <;> rfl
      | deleteTickets t' ids now => exact hold (mem_of_mem_filter hr')
      | _ => exact hold hr'
    · exact ⟨r', hissue, Or.inr (mem_cons_of_mem wr hr')⟩

/-- Writes that redeem nothing remove a ticket only if a cleanup has found it spent. -/
theorem removed_spent {r : TicketRow} (h : (pg sd).Legally TicketLegal db ws)
    (hkeys : (db.tickets.map (·.ticketId)).Nodup) (hr : r ∈ db.tickets)
    (hredeem : ∀ t id now, .consumeTicket t id now ∉ ws)
    (hgone : ∀ r' ∈ ((pg sd).view db ws).tickets, r'.ticketId ≠ r.ticketId) :
    ∃ ids now, .deleteTickets r.tenantId ids now ∈ ws ∧ r.spent now = true := by
  induction ws generalizing db with
  | nil => exact (hgone r hr rfl).elim
  | cons wr ws ih =>
    have hstay : r ∈ (db.apply wr).tickets → ∃ ids now,
        .deleteTickets r.tenantId ids now ∈ wr :: ws ∧ r.spent now = true := by
      intro hmem
      obtain ⟨ids, now, hdel, hspent⟩ := ih h.2 (keys_apply h.1 hkeys) hmem
        (fun t id now hc => hredeem t id now (mem_cons_of_mem wr hc)) hgone
      exact ⟨ids, now, mem_cons_of_mem wr hdel, hspent⟩
    cases wr with
    | insertTicket row => exact hstay (mem_append_left _ hr)
    | consumeTicket t id now => exact (hredeem t id now mem_cons_self).elim
    | deleteTickets t ids now =>
      by_cases hsel : r.tenantId = t ∧ r.ticketId ∈ ids
      · obtain ⟨rfl, hid⟩ := hsel
        obtain ⟨o, ho, _, hspent⟩ := h.1 r.ticketId hid
        obtain ⟨homem, hoid⟩ := mem_filter.mp ho
        obtain rfl : o = r := inj_on_of_nodup_map hkeys homem hr (of_decide_eq_true hoid)
        exact ⟨ids, now, mem_cons_self, hspent⟩
      · refine hstay (mem_filter.mpr ⟨hr, ?_⟩)
        simpa [imp_iff_not_or] using hsel
    | _ => exact hstay hr

theorem kept_without_cleanup {r : TicketRow} (hr : r ∈ db.tickets)
    (hdelete : ∀ t ids now, .deleteTickets t ids now ∉ ws) :
    ∃ r' ∈ ((pg sd).view db ws).tickets, r'.ticketId = r.ticketId := by
  induction ws generalizing db r with
  | nil => exact ⟨r, hr, rfl⟩
  | cons wr ws ih =>
    have hrest : ∀ t ids now, .deleteTickets t ids now ∉ ws :=
      fun t ids now hc => hdelete t ids now (mem_cons_of_mem wr hc)
    cases wr with
    | insertTicket row => exact ih (mem_append_left _ hr) hrest
    | consumeTicket t id now =>
      have hkept : (if decide (r.tenantId = t ∧ r.ticketId = id) = true
          then { r with consumedAt := some now } else r) ∈
          (db.apply (.consumeTicket t id now)).tickets := Table.mem_modify.mpr ⟨r, hr, rfl⟩
      obtain ⟨r', hr', hid⟩ := ih hkept hrest
      refine ⟨r', hr', hid.trans ?_⟩
      split <;> rfl
    | deleteTickets t ids now => exact (hdelete t ids now mem_cons_self).elim
    | _ => exact ih hr hrest

end Writes

section Calls

/-- What the calls ask of tickets. -/
def Call.Handles (c : Call) : Stmt → Prop
  | .cleanupStreamTickets _ => ∀ t id, c ≠ .consumeTicket t id
  | .consumeStreamTicket t id => c = .consumeTicket t id
  | .createStreamTicket id t subject ttlMillis unix => ∃ text authorizedUntilUnix ttlNanos,
      c = .createTicket id t text authorizedUntilUnix ttlNanos ∧
      requiredStreamTicketSubject text = .ok subject ∧
      streamTicketAuthorizationUnix authorizedUntilUnix = .ok unix ∧
      streamTicketTtlMillis ttlNanos = .ok ttlMillis
  | _ => True

theorem beginFor_handles (c : Call) (t : TenantId) : (beginFor t).All c.Handles :=
  ⟨trivial, fun _ => ⟨trivial, fun _ => ⟨trivial, by rintro (_ | _ | _) <;> trivial⟩⟩⟩

theorem createTicket_handles (id : Uuid) (t : TenantId) (subject : Str)
    (authorizedUntilUnix : UInt64) (ttlNanos : ℕ) :
    (createStreamTicket id t subject authorizedUntilUnix ttlNanos).All
      (Call.createTicket id t subject authorizedUntilUnix ttlNanos).Handles := by
  unfold createStreamTicket
  cases hsubject : requiredStreamTicketSubject subject with
  | error e => trivial
  | ok text =>
    cases hunix : streamTicketAuthorizationUnix authorizedUntilUnix with
    | error e => trivial
    | ok unix =>
      cases httl : streamTicketTtlMillis ttlNanos with
      | error e => trivial
      | ok millis =>
        simp only [Prog.liftM_eq, Prog.ofExcept_ok, Prog.ok_bind]
        refine (beginFor_handles _ t).bind fun _ => ⟨nofun, fun _ => ⟨?_, fun inserted => ?_⟩⟩
        · exact ⟨subject, authorizedUntilUnix, ttlNanos, rfl, hsubject, hunix, httl⟩
        · rcases inserted with _ | n
          · trivial
          · exact ⟨trivial, fun _ => trivial⟩

theorem program_handles (sd : Serde) (c : Call) : (Call.program sd c).All c.Handles := by
  have hother : (∀ id t subject unix ttl, c ≠ .createTicket id t subject unix ttl) →
      (∀ t id, c ≠ .consumeTicket t id) → (Call.program sd c).All c.Handles := by
    intro hcreate hconsume
    refine (program_issues sd c).mono fun st hst => ?_
    cases st with
    | cleanupStreamTickets => exact hconsume
    | consumeStreamTicket t id => exact hst
    | createStreamTicket id t _ _ _ =>
      obtain ⟨_, _, _, hc⟩ := hst
      exact (hcreate _ _ _ _ _ hc).elim
    | _ => trivial
  cases c with
  | createTicket id t subject authorizedUntilUnix ttlNanos =>
    exact (createTicket_handles id t subject authorizedUntilUnix ttlNanos).bind fun _ => trivial
  | consumeTicket t id =>
    refine Prog.All.bind ?_ fun _ => trivial
    refine (beginFor_handles _ t).bind fun _ => ⟨rfl, ?_⟩
    rintro (_ | row)
    · exact ⟨trivial, fun _ => trivial⟩
    · exact Prog.all_check fun _ => ⟨trivial, fun _ => trivial⟩
  | _ => exact hother nofun nofun

/-- What backs a grant: the ticket was found unspent, with this subject and end. -/
def Granted (t : TenantId) (id : Uuid) (grant : StreamTicketGrant) : (st : Stmt) → st.Resp → Prop
  | .consumeStreamTicket t' id', (row : Option (Str × ℤ)) => t' = t ∧ id' = id ∧
      ∃ z, row = some (grant.subject, z) ∧
        fromPgI64 "authorized_until_unix" z = .ok grant.authorizedUntilUnix
  | _, _ => False

theorem consumeTicket_backed (sd : Serde) (t : TenantId) (id : Uuid) (grant : StreamTicketGrant) :
    (Call.program sd (.consumeTicket t id)).Backed (Granted t id grant)
      (· = .grant (some grant)) := by
  refine Prog.Backed.map (Prog.backed_bind fun _ => ?_)
  rintro (_ | ⟨subject, z⟩)
  · exact Or.inr fun _ => Or.inr nofun
  · by_cases hz : subject = grant.subject ∧
        fromPgI64 "authorized_until_unix" z = .ok grant.authorizedUntilUnix
    · obtain ⟨rfl, hz⟩ := hz
      exact Or.inl ⟨rfl, rfl, z, rfl, hz⟩
    · refine Or.inr ?_
      change (Prog.ofExcept (fromPgI64 "authorized_until_unix" z) >>= _).Backed _ _
      cases hok : fromPgI64 "authorized_until_unix" z with
      | error e => trivial
      | ok u =>
        refine fun _ => Or.inr ?_
        rintro ⟨rfl⟩
        exact hz ⟨rfl, hok⟩

end Calls

section Run

variable {s u v : StoreState} {l : StoreLabel} {labels : List StoreLabel}

theorem idle_handles (hs : s.Idle) (hr : Runs.run (pg sd).step s labels = some u) :
    ∀ i x, u.sessions i = some x → (pg sd).Issued Call.Handles x := by
  refine Runs.run_invariant (I := fun u => ∀ i x, u.sessions i = some x →
    (pg sd).Issued Call.Handles x) (fun _ _ _ hs h => ?_) hr fun i x hx => ?_
  · exact Service.issued_step (program_handles sd) (Service.step_cases h) hs
  · simp [hs.sessions] at hx

/-- A statement that was executed is one its call makes. -/
theorem sent_handles {i : ℕ} {c : Call} {rd : Reading} {st : Stmt} {r : st.Resp} {ws : List Write}
    (hs : s.Idle) (h : (pg sd).Sent s labels i c rd u st r ws) : c.Handles st := by
  obtain ⟨⟨pre, _, _, hpre⟩, x, k, hx, rfl, hp, _⟩ := h
  have hrest := (idle_handles hs hpre i x hx).rest
  rw [hp] at hrest
  exact hrest.1

/-- Where an inserted ticket comes from. -/
theorem issued_by {r : TicketRow} (hs : s.Idle) (hr : Runs.run (pg sd).step s labels = some u)
    (hmem : .insertTicket r ∈ (pg sd).committed s labels) :
    ∃ j subject authorizedUntilUnix ttlNanos rd,
      (j, .createTicket r.ticketId r.tenantId subject authorizedUntilUnix ttlNanos) ∈ u.past.calls ∧
      (pg sd).Executed s labels j (.createStreamTicket r.ticketId r.tenantId (Text.trim subject)
        (ttlNanos / 1000000) authorizedUntilUnix.toNat) rd ∧
      r.subject = Text.trim subject ∧ r.authorizedUntil = authorizedUntilUnix.toNat * 1000000 ∧
      r.expiresAt = min (rd.now + ttlNanos / 1000000 * 1000) r.authorizedUntil ∧
      authorizedUntilUnix.toNat ≤ maxStreamTicketAuthorizationUnix := by
  obtain ⟨j, c, rd, z, st, ans, ws, hcall, hsent, hws⟩ := Service.committed_sent hs hr hmem
  have hhandles := sent_handles hs hsent
  obtain ⟨x, k, _, _, _, heval⟩ := hsent.call
  have hwrites := eval_writes heval _ hws
  cases st with
  | createStreamTicket id t subject ttlMillis unix =>
    obtain ⟨text, until', ttl, rfl, hsubject, hunix, httl⟩ := hhandles
    rcases eval_createTicket heval with ⟨_, rfl⟩ | ⟨_, _, _, rfl⟩
    · cases hws
    cases mem_singleton.mp hws
    obtain rfl : Text.trim text = subject := by
      unfold requiredStreamTicketSubject at hsubject
      simp only at hsubject
      split at hsubject
      · cases hsubject
      · exact Except.ok.inj hsubject
    obtain ⟨rfl, hmax⟩ : until'.toNat = unix ∧ until'.toNat ≤ maxStreamTicketAuthorizationUnix := by
      unfold streamTicketAuthorizationUnix at hunix
      split at hunix
      · cases hunix
      · exact ⟨Except.ok.inj hunix, Nat.le_of_not_lt ‹_›⟩
    obtain rfl : ttl / 1000000 = ttlMillis := by
      unfold streamTicketTtlMillis at httl
      split at httl
      · cases httl
      · split at httl
        · cases httl
        · exact Except.ok.inj httl
    exact ⟨j, text, until', ttl, rd, hcall, ⟨_, _, _, _, hsent⟩, rfl, rfl, rfl, hmax⟩
  | _ => exact hwrites.elim

/-- Seconds survive their way through the microseconds of the table. -/
theorem grant_until {seconds micros : ℕ} {unix : UInt64} (h : micros = seconds * 1000000)
    (hmax : seconds ≤ maxStreamTicketAuthorizationUnix)
    (hok : fromPgI64 "authorized_until_unix" (((micros : ℤ) + 500000) / 1000000) = .ok unix) :
    unix.toNat = seconds := by
  have hz : ((micros : ℤ) + 500000) / 1000000 = seconds := by omega
  rw [hz] at hok
  unfold maxStreamTicketAuthorizationUnix at hmax
  unfold fromPgI64 at hok
  split at hok
  · cases hok
    simp only [Int.toNat_natCast, UInt64.toNat_ofNat']
    omega
  · cases hok

/-- A grant goes back to the ticket it was given for, while that could be redeemed. -/
theorem grant_origin {i : ℕ} {T : TenantId} {grant : StreamTicketGrant} (hs : s.Idle)
    (hr : Runs.run (pg sd).step s labels = some u) (hnew : ∀ r ∈ s.db.tickets, r.ticketId ≠ id)
    (hlog : (i, .consumeTicket T id, .ok (.grant (some grant))) ∈ u.log) :
    ∃ j subject authorizedUntilUnix ttlNanos rd rd',
      (j, .createTicket id T subject authorizedUntilUnix ttlNanos) ∈ u.past.calls ∧
      grant = ⟨Text.trim subject, authorizedUntilUnix⟩ ∧
      (pg sd).Executed s labels j (.createStreamTicket id T (Text.trim subject)
        (ttlNanos / 1000000) authorizedUntilUnix.toNat) rd ∧
      (pg sd).Executed s labels i (.consumeStreamTicket T id) rd' ∧
      rd'.now * 1000 < rd.now * 1000 + ttlNanos ∧
      rd'.now < authorizedUntilUnix.toNat * 1000000 := by
  obtain ⟨rd', z, st, ans, ws, hsent, hgranted⟩ :=
    Service.backed_run (consumeTicket_backed sd T id grant) hs hr hlog
  have hexec : (pg sd).Executed s labels i st rd' := ⟨_, _, _, _, hsent⟩
  cases st with
  | consumeStreamTicket t' id' =>
    obtain ⟨rfl, rfl, secs, rfl, hunix⟩ := hgranted
    obtain ⟨⟨pre, post, rfl, hpre⟩, x, k, hx, hcall, hp, heval⟩ := hsent
    rcases eval_consumeTicket heval with ⟨hnone, _⟩ | ⟨row, hrow, rfl, rfl, hspent, hans, _⟩
    · cases hnone
    obtain ⟨hsub', rfl⟩ := Prod.mk.inj (Option.some.inj hans)
    have hmem := mem_of_mem_filter (mem_ticketsOf_visible hrow)
    have hz := Service.db_committed hpre
    rw [hz, ← Service.view_append] at hmem
    obtain ⟨r, hissue, horigin⟩ := ticket_of_view hmem
    obtain ⟨hid, ht, hs', ha', he'⟩ := issue_fields hissue
    rcases horigin with hstart | hins
    · exact (hnew r hstart hid).elim
    rcases mem_append.mp hins with hins | hins
    · obtain ⟨j, subject, until', ttl, rd, hcreate, hrun, hsub, hauth, hexp, hmax⟩ :=
        issued_by hs hpre hins
      rw [hid, ht] at hcreate hrun
      have hpast : z.past.calls ⊆ u.past.calls := by
        obtain ⟨z', hz', hrest⟩ := Runs.run_append.mp hr
        obtain rfl := Option.some.inj (hpre.symm.trans hz')
        exact Service.calls_run hrest
      simp only [TicketRow.spent, Bool.or_eq_false_iff, decide_eq_false_iff_not, Nat.not_le] at hspent
      have hlt : rd'.now < min (rd.now + ttl / 1000000 * 1000) (until'.toNat * 1000000) := by
        rw [← hauth, ← hexp, he']
        exact hspent.2
      refine ⟨j, subject, until', ttl, rd, rd', hpast hcreate, ?_, hrun.later _, hexec, ?_, ?_⟩
      · have hnat := grant_until (hauth ▸ ha'.symm) hmax hunix
        obtain ⟨gsub, gunix⟩ := grant
        obtain rfl : gunix = until' := UInt64.toNat_inj.mp hnat
        simp only [StreamTicketGrant.mk.injEq, and_true]
        exact hsub'.trans (hs'.symm.trans hsub)
      · have := hlt.trans_le (Nat.min_le_left _ _)
        have hdiv := Nat.div_mul_le_self ttl 1000000
        omega
      · exact hlt.trans_le (Nat.min_le_right _ _)
    · -- The redeeming call itself inserts no ticket.
      obtain ⟨st, _, _, _, _, _, hst, heval', hws⟩ :=
        (idle_handles hs hpre i x hx).writes _ hins
      have hw := eval_writes heval' _ hws
      cases st with
      | createStreamTicket =>
        obtain ⟨_, _, _, hc, _⟩ := hst
        rw [hcall] at hc
        cases hc
      | _ => exact hw.elim
  | _ => exact hgranted.elim

/-- Identifiers are not used twice. -/
def IssuedOnce (id : Uuid) (calls : List (ℕ × Call)) : Prop :=
  ∀ i j t t' subject subject' unix unix' ttl ttl', (i, .createTicket id t subject unix ttl) ∈ calls →
    (j, .createTicket id t' subject' unix' ttl') ∈ calls → i = j

theorem countP_due {closed : List (Service.Closing Call Reply)} (p : Entry → Bool) :
    (closed.flatMap fun e => e.call.due e.answer).countP p =
      (closed.filter fun e => (e.call.due e.answer).any p).length := by
  have hshort : ∀ (c : Call) (reply : Reply), (c.due reply).countP p =
      if (c.due reply).any p then 1 else 0 := by
    intro c reply
    have hlen : (c.due reply).length ≤ 1 := by
      unfold Call.due Call.audits
      split <;> simp
      split <;> simp
    match hdue : c.due reply with
    | [] => rfl
    | [e] => by_cases hp : p e = true <;> simp [hp]
    | _ :: _ :: _ => simp [hdue] at hlen
  induction closed with
  | nil => rfl
  | cons e closed ih =>
    rw [flatMap_cons, countP_append, hshort, ih, filter_cons]
    split <;> simp [Nat.add_comm]

theorem issues_due {c : Call} {reply : Reply} (h : (c.due reply).any (Entry.issues id) = true) :
    ∃ t subject unix ttl, c = .createTicket id t subject unix ttl := by
  unfold Call.due at h
  split at h
  · simp only [any_cons, any_nil, Entry.issues, Bool.or_false, decide_eq_true_eq] at h
    subst h
    exact ⟨_, _, _, _, rfl⟩
  · simp [Entry.issues] at h
  · simp [Entry.issues] at h

/-- One call at most is granted the ticket. -/
theorem granted_once {i j : ℕ} {T T' : TenantId} {g g' : StreamTicketGrant} (hs : s.Idle)
    (hr : Runs.run (pg sd).step s labels = some u) (hnew : ∀ r ∈ s.db.tickets, r.ticketId ≠ id)
    (honce : IssuedOnce id u.past.calls)
    (hi : (i, .consumeTicket T id, .ok (.grant (some g))) ∈ u.log)
    (hj : (j, .consumeTicket T' id, .ok (.grant (some g'))) ∈ u.log) : i = j := by
  obtain ⟨closed, hacc⟩ := store_accounted hs hr
  have hlegal := (Discipline.legally_run (K := ticketDiscipline sd) (protocol sd).symm hs hr).1
  have hcount := @redeemed_le sd s.db id _ hlegal
  have hopen : (s.db.openTickets id).length = 0 := by
    rw [length_eq_zero_iff]
    refine filter_eq_nil_iff.mpr fun r hr => ?_
    simp [hnew r hr]
  have hissued : (closed.filter fun e => (e.call.due e.answer).any (Entry.issues id)).length ≤ 1 := by
    refine Table.length_filter_le_one ?_
    have hpair : closed.Pairwise fun e e' => e ∈ closed ∧ e' ∈ closed ∧ e.session ≠ e'.session :=
      pairwise_iff_forall_sublist.mpr fun {e e'} hsub =>
        ⟨hsub.subset (by simp), hsub.subset (by simp), by
          have := (hsub.map (·.session)).nodup hacc.once
          simpa using this⟩
    refine hpair.imp fun {e e'} h he he' => h.2.2 ?_
    obtain ⟨t, subject, unix, ttl, hc⟩ := issues_due he
    obtain ⟨t', subject', unix', ttl', hc'⟩ := issues_due he'
    exact honce _ _ _ _ _ _ _ _ _ _ (hc ▸ hacc.made e h.1) (hc' ▸ hacc.made e' h.2.1)
  rw [hacc.entered, countP_due, countP_due, hopen] at hcount
  have hredeemed : ∀ {k T g}, (k, .consumeTicket T id, .ok (.grant (some g))) ∈ u.log →
      (⟨k, .consumeTicket T id, .grant (some g), true⟩ : Service.Closing Call Reply) ∈
        closed.filter fun e => (e.call.due e.answer).any (Entry.redeems id) := by
    intro k T g hk
    refine mem_filter.mpr ⟨(hacc.answered _ _ _).mpr (Or.inl hk), ?_⟩
    simp [Call.due, Entry.redeems]
  have heq := Table.eq_of_length_le_one (by omega) (hredeemed hi) (hredeemed hj)
  exact congrArg Service.Closing.session heq

/-- A ticket is taken out of the table only by a cleanup that has found it spent. -/
theorem removed_by_cleanup {r : TicketRow} (hs : s.Idle)
    (hkeys : (s.db.tickets.map (·.ticketId)).Nodup)
    (hr : Runs.run (pg sd).step s labels = some u) (hl : (pg sd).step u l = some v)
    (hmem : r ∈ u.db.tickets) (hgone : ∀ r' ∈ v.db.tickets, r'.ticketId ≠ r.ticketId) :
    ∃ rd, (pg sd).Executed s labels l.session (.cleanupStreamTickets r.tenantId) rd ∧
      (r.consumedAt.isSome ∨ r.expiresAt ≤ rd.now) := by
  obtain ⟨hlegal, _, hobeys⟩ :=
    Discipline.legally_run (K := ticketDiscipline sd) (protocol sd).symm hs hr
  have hkeys' : (u.db.tickets.map (·.ticketId)).Nodup := by
    rw [Service.db_committed hr]
    exact keys_view hlegal hkeys
  rcases Service.step_db (Service.step_cases hl) with he | ⟨x, _, _, hx, _, _, he⟩
  · exact (hgone r (he ▸ hmem) rfl).elim
  rw [he] at hgone
  -- A call that redeems a ticket cleans nothing up.
  have hcall : ∀ wr ∈ x.writes, ∃ st, x.call.Handles st ∧ st.Writes wr := by
    intro wr hwr
    obtain ⟨st, _, _, _, _, _, hst, heval, hws⟩ := (idle_handles hs hr _ x hx).writes wr hwr
    exact ⟨st, hst, eval_writes heval wr hws⟩
  have hredeem : ∀ t id now, .consumeTicket t id now ∉ x.writes := by
    intro t id now hc
    obtain ⟨st, hst, hw⟩ := hcall _ hc
    have hdelete : ∀ t ids now, .deleteTickets t ids now ∉ x.writes := by
      intro t' ids now' hd
      obtain ⟨st', hst', hw'⟩ := hcall _ hd
      cases st with
      | consumeStreamTicket =>
        cases st' with
        | cleanupStreamTickets => exact hst' _ _ hst
        | _ => exact hw'.elim
      | _ => exact hw.elim
    obtain ⟨r', hr', hid⟩ := @kept_without_cleanup sd _ _ _ hmem hdelete
    exact hgone r' hr' hid
  obtain ⟨ids, now, hdel, hspent⟩ :=
    removed_spent (hobeys _ x hx).legal hkeys' hmem hredeem hgone
  obtain ⟨rd, z, st, ans, ws, hsent, hws⟩ := Service.written_run hs hr _ x hx _ hdel
  obtain ⟨_, _, _, _, _, heval⟩ := hsent.call
  have hw := eval_writes heval _ hws
  cases st with
  | cleanupStreamTickets t =>
    obtain ⟨ids', rfl, _, _⟩ := eval_cleanup heval
    cases mem_singleton.mp hws
    refine ⟨rd, ⟨_, _, _, _, hsent⟩, ?_⟩
    simpa [TicketRow.spent] using hspent
  | _ => exact hw.elim

/-- A ticket that is created under a fresh identifier is granted to one call at most, which
names the tenant of the creator, comes before the ticket and the authorization of its
creator have run out, and gets the subject and the end of the authorization the creator has
given. A ticket that leaves the table was redeemed or had run out when the cleanup looked. -/
theorem tickets_single_use (hs : s.Idle) (hkeys : (s.db.tickets.map (·.ticketId)).Nodup)
    (hr : Runs.run (pg sd).step s labels = some u) :
    (∀ id, (∀ r ∈ s.db.tickets, r.ticketId ≠ id) → IssuedOnce id u.past.calls →
      (∀ i j T T' g g', (i, .consumeTicket T id, .ok (.grant (some g))) ∈ u.log →
        (j, .consumeTicket T' id, .ok (.grant (some g'))) ∈ u.log → i = j) ∧
      ∀ i T g, (i, .consumeTicket T id, .ok (.grant (some g))) ∈ u.log →
        ∃ j subject authorizedUntilUnix ttlNanos rd rd',
          (j, .createTicket id T subject authorizedUntilUnix ttlNanos) ∈ u.past.calls ∧
          g = ⟨Text.trim subject, authorizedUntilUnix⟩ ∧
          (pg sd).Executed s labels j (.createStreamTicket id T (Text.trim subject)
            (ttlNanos / 1000000) authorizedUntilUnix.toNat) rd ∧
          (pg sd).Executed s labels i (.consumeStreamTicket T id) rd' ∧
          rd'.now * 1000 < rd.now * 1000 + ttlNanos ∧
          rd'.now < authorizedUntilUnix.toNat * 1000000) ∧
    (∀ pre l post v w r, labels = pre ++ l :: post → Runs.run (pg sd).step s pre = some v →
      (pg sd).step v l = some w → r ∈ v.db.tickets →
      (∀ r' ∈ w.db.tickets, r'.ticketId ≠ r.ticketId) →
      ∃ rd, (pg sd).Executed s pre l.session (.cleanupStreamTickets r.tenantId) rd ∧
        (r.consumedAt.isSome ∨ r.expiresAt ≤ rd.now)) := by
  refine ⟨fun id hnew honce => ⟨?_, ?_⟩, ?_⟩
  · exact fun i j T T' g g' hi hj => granted_once hs hr hnew honce hi hj
  · exact fun i T g hi => grant_origin hs hr hnew hi
  · rintro pre l post v w r rfl hpre hl hmem hgone
    exact removed_by_cleanup hs hkeys hpre hl hmem hgone

section Sample

open Sample

/-- A ticket is created and two calls race for it; a cleanup follows. -/
def racing : List StoreLabel :=
  .start 0 (.createTicket 7 tenant [' ', 's'] 100 60000000000) ::
    List.replicate 6 (.exec 0 ⟨1000, 0⟩) ++
    [.start 1 (.consumeTicket tenant 7), .start 2 (.consumeTicket tenant 7)] ++
    List.replicate 4 (.exec 1 ⟨2000, 0⟩) ++ List.replicate 3 (.exec 2 ⟨2000, 0⟩) ++
    .exec 1 ⟨2500, 0⟩ :: List.replicate 2 (.exec 2 ⟨3000, 0⟩) ++
    .start 3 (.cleanupTickets tenant) :: List.replicate 5 (.exec 3 ⟨4000, 0⟩) ++
    [.finish 0, .finish 1, .finish 2, .finish 3]

theorem tickets_single_use_sample :
    (reached racing).log.map (·.2.2) = [.ok (.ticket 7), .ok (.grant (some ⟨['s'], 100⟩)),
      .ok (.grant none), .ok (.removed 1)] ∧
    ∀ j T g, (j, .consumeTicket T 7, .ok (.grant (some g))) ∈ (reached racing).log → 1 = j := by
  have hrun : (Runs.run (pg serde).step store racing).isSome := by decide
  have hfirst : (1, .consumeTicket tenant 7, .ok (.grant (some ⟨['s'], 100⟩))) ∈
      (reached racing).log := by decide
  have honce : IssuedOnce 7 (reached racing).past.calls := by
    have hcalls : (reached racing).past.calls = [(3, .cleanupTickets tenant),
      (2, .consumeTicket tenant 7), (1, .consumeTicket tenant 7),
      (0, .createTicket 7 tenant [' ', 's'] 100 60000000000)] := by decide
    intro i j t t' subject subject' unix unix' ttl ttl' hi hj
    simp only [hcalls, mem_cons, Prod.mk.injEq, reduceCtorEq, and_false, false_or,
      not_mem_nil, or_false] at hi hj
    exact hi.1.trans hj.1.symm
  exact ⟨by decide, fun j T g hj => ((tickets_single_use store_initial.idle (by decide)
    (run_reached hrun)).1 7 (by simp [store]) honce).1 1 j tenant T _ g hfirst hj⟩

end Sample

end Run

end SkidMonitor
