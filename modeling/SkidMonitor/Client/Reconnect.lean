import SkidMonitor.Client.Ingress
import SkidMonitor.Lib.Run
import SkidMonitor.Lib.Table

/-! The reconnect machine of a cloud endpoint: what is pending for its generation, what a
callback of an older generation can do, and how many retries are scheduled. -/
namespace SkidMonitor.Browser

open List

variable {s t u v : Page} {e e' : Endpoint} {g g' : UInt64} {c : CloudConnection}

namespace Page

theorem cloud?_iff :
    s.cloud? e = some c ↔
      (⟨e, .cloud c⟩ : Sigma fun _ => BrowserConnection) ∈ s.connections.entries := by
  rw [← AList.mem_lookup_iff, Option.mem_def, cloud?]
  split
  · rename_i h
    simp [h]
  · rename_i h
    simp only [reduceCtorEq, false_iff]
    exact h c

theorem cloud?_congr (h : s.connections = t.connections) : s.cloud? e = t.cloud? e := by
  rw [cloud?, cloud?, h]

@[simp] theorem cloud?_setCloud : (s.setCloud e c).cloud? e = some c := by
  simp [cloud?]

theorem cloud?_setCloud_ne (h : e' ≠ e) : (s.setCloud e c).cloud? e' = s.cloud? e' := by
  rw [cloud?, cloud?, setCloud_connections, AList.lookup_insert_ne h]

@[simp] theorem cloud?_retainOpen : s.retainOpen.cloud? e = s.cloud? e := by
  ext c
  rw [cloud?_iff, cloud?_iff, retainOpen_connections_entries]
  simp

theorem cloud?_of_hasCloud (h : s.hasCloud = false) : s.cloud? e = none := by
  rw [Option.eq_none_iff_forall_ne_some]
  intro c hc
  rw [hasCloud, any_eq_false] at h
  exact h _ (cloud?_iff.mp hc) rfl

/-- The signals ever queued. -/
def signals (s : Page) : List IngressMessage :=
  s.messages.filter fun
    | .signal _ _ => true
    | _ => false

/-- The connection of the endpoint is of the generation `g`. -/
def Current (s : Page) (e : Endpoint) (g : UInt64) : Prop :=
  ∃ c, s.cloud? e = some c ∧ c.generation = g

def ticketsOf (s : Page) (e : Endpoint) (g : UInt64) : ℕ := s.tickets.count (e, g)

def timersOf (s : Page) (e : Endpoint) (g : UInt64) : ℕ :=
  s.timers.countP fun timer => timer.endpoint = e && timer.generation = g

/-- The sockets of a generation that have not closed. -/
def socketsOf (s : Page) (e : Endpoint) (g : UInt64) : ℕ :=
  s.sockets.countP fun k =>
    k.endpoint = e && k.stream.map CloudStream.generation = some g && k.phase ≠ .closed

/-- What is pending for a generation of an endpoint. -/
def pending (s : Page) (e : Endpoint) (g : UInt64) : ℕ :=
  s.ticketsOf e g + s.timersOf e g + s.socketsOf e g

/-- The timers of an endpoint, of any generation. -/
def timersFor (s : Page) (e : Endpoint) : ℕ := s.timers.countP fun timer => timer.endpoint = e

/-- How many retries an endpoint may still schedule before its next socket opens. -/
def retriesLeft (s : Page) (e : Endpoint) : ℕ :=
  match s.cloud? e with
  | some c => maxReconnectAttempts - c.reconnectAttempt
  | none => 0

end Page

/-- Attempts are numbered within the limit. -/
def Page.InRange (s : Page) : Prop :=
  (∀ e c, s.cloud? e = some c → c.reconnectAttempt ≤ maxReconnectAttempts) ∧
    ∀ timer ∈ s.timers, 1 ≤ timer.attempt ∧ timer.attempt ≤ maxReconnectAttempts

/-- What a callback of the generation `g` of `e` may do, which adds at most `n` to what is
pending for it. -/
structure Callback (e : Endpoint) (g : UInt64) (n : ℕ) (s v : Page) : Prop where
  stale : ¬ s.Current e g → v.connections = s.connections ∧ v.signals = s.signals
  lookup : ∀ e' ≠ e, v.connections.lookup e' = s.connections.lookup e'
  current : ∀ g', v.Current e g' ↔ s.Current e g'
  pending : ∀ e' g', v.pending e' g' ≤ s.pending e' g' + if e' = e ∧ g' = g then n else 0
  nextGeneration : v.nextGeneration = s.nextGeneration
  inRange : s.InRange → v.InRange
  grows : s.messages <+: v.messages

/-- A retry is paid for. -/
structure Frugal (s v : Page) : Prop where
  left_le : ∀ e, v.retriesLeft e ≤ s.retriesLeft e
  left_lt : ∀ e, s.timersFor e < v.timersFor e → v.retriesLeft e < s.retriesLeft e

/-- A callback other than the opening of a stream, which starts the count of retries anew. -/
structure Paid (e : Endpoint) (g : UInt64) (n : ℕ) (s v : Page) : Prop
    extends Callback e g n s v, Frugal s v

/-- A handler runs only while it is attached. -/
theorem Page.handle_rel {R : Page → Page → Prop} {k : Socket} {handler : Page → Page}
    (hrefl : R s s) (h : R s (handler s)) : R s (s.handle k handler) := by
  rw [Page.handle]
  split
  · exact h
  · exact hrefl

section Callbacks
variable {n m : ℕ}

theorem Callback.trans (h : Callback e g n s u) (h' : Callback e g m u v) :
    Callback e g (n + m) s v where
  stale hs := by
    obtain ⟨hc, hq⟩ := h.stale hs
    obtain ⟨hc', hq'⟩ := h'.stale (mt (h.current g).mp hs)
    exact ⟨hc'.trans hc, hq'.trans hq⟩
  lookup e' he := (h'.lookup e' he).trans (h.lookup e' he)
  current g' := (h'.current g').trans (h.current g')
  pending e' g' := by
    have h₁ := h.pending e' g'
    have h₂ := h'.pending e' g'
    by_cases hp : e' = e ∧ g' = g
    · rw [if_pos hp] at h₁ h₂ ⊢
      omega
    · rw [if_neg hp] at h₁ h₂ ⊢
      omega
  nextGeneration := h'.nextGeneration.trans h.nextGeneration
  inRange := h'.inRange ∘ h.inRange
  grows := h.grows.trans h'.grows

theorem Frugal.trans (h : Frugal s u) (h' : Frugal u v) : Frugal s v where
  left_le e := Nat.le_trans (h'.left_le e) (h.left_le e)
  left_lt e hlt := by
    have h₁ := h.left_le e
    have h₂ := h'.left_le e
    rcases Nat.lt_or_ge (s.timersFor e) (u.timersFor e) with hs | hs
    · exact Nat.lt_of_le_of_lt h₂ (h.left_lt e hs)
    · exact Nat.lt_of_lt_of_le (h'.left_lt e (Nat.lt_of_le_of_lt hs hlt)) h₁

theorem Paid.trans (h : Paid e g n s u) (h' : Paid e g m u v) : Paid e g (n + m) s v :=
  ⟨h.toCallback.trans h'.toCallback, h.toFrugal.trans h'.toFrugal⟩

theorem frugal_of_eq (hc : v.connections = s.connections) (hr : v.timers = s.timers) :
    Frugal s v where
  left_le e := by
    rw [Page.retriesLeft, Page.retriesLeft, Page.cloud?_congr hc]
  left_lt e h := by
    rw [Page.timersFor, Page.timersFor, hr] at h
    exact absurd h (Nat.lt_irrefl _)

/-- A change that touches neither a connection nor a timer. -/
theorem paid_of_eq (hc : v.connections = s.connections) (hr : v.timers = s.timers)
    (hn : v.nextGeneration = s.nextGeneration) (hq : s.Current e g ∨ v.signals = s.signals)
    (hm : s.messages <+: v.messages)
    (hp : ∀ e' g', v.pending e' g' ≤ s.pending e' g' + if e' = e ∧ g' = g then n else 0) :
    Paid e g n s v where
  stale hs := ⟨hc, hq.resolve_left hs⟩
  lookup e' _ := by rw [hc]
  current g' := by simp only [Page.Current, Page.cloud?, hc]
  pending := hp
  nextGeneration := hn
  inRange h := by simpa only [Page.InRange, Page.cloud?_congr hc, hr] using h
  grows := hm
  toFrugal := frugal_of_eq hc hr

theorem Paid.refl : Paid e g n s s :=
  paid_of_eq rfl rfl rfl (.inr rfl) prefix_rfl fun _ _ => Nat.le_add_right _ _

theorem push_paid (message : IngressMessage)
    (h : s.Current e g ∨ (s.pushMessage message).signals = s.signals) :
    Paid e g 0 s (s.pushMessage message) :=
  paid_of_eq rfl rfl rfl h (prefix_append _ _) fun _ _ => Nat.le_add_right _ _

theorem report_paid (listener : Option Endpoint) (error : Str) :
    Paid e g 0 s (s.reportError listener error) :=
  push_paid _ (.inr (by simp [Page.signals]))

theorem publish_paid (scope : BrowserStorageScope) :
    Paid e g 0 s (s.publishStorageScope scope) :=
  push_paid _ (.inr (by simp [Page.signals]))

theorem setCloud_callback (c' : CloudConnection) (hc : s.cloud? e = some c)
    (hg : c'.generation = c.generation)
    (hr : c.reconnectAttempt ≤ maxReconnectAttempts → c'.reconnectAttempt ≤ maxReconnectAttempts) :
    Callback e c.generation 0 s (s.setCloud e c') where
  stale hs := absurd ⟨c, hc, rfl⟩ hs
  lookup e' he := AList.lookup_insert_ne he
  current g' := by simp [Page.Current, hc, hg]
  pending e' g' := Nat.le_add_right _ _
  nextGeneration := rfl
  inRange h := by
    refine ⟨fun e' d hd => ?_, h.2⟩
    by_cases he : e' = e
    · subst he
      rw [Page.cloud?_setCloud] at hd
      cases hd
      exact hr (h.1 _ c hc)
    · rw [Page.cloud?_setCloud_ne he] at hd
      exact h.1 e' d hd
  grows := prefix_rfl

theorem setCloud_frugal (c' : CloudConnection) (hc : s.cloud? e = some c)
    (hle : c.reconnectAttempt ≤ c'.reconnectAttempt) : Frugal s (s.setCloud e c') where
  left_le e' := by
    by_cases he : e' = e
    · subst he
      simp only [Page.retriesLeft, Page.cloud?_setCloud, hc]
      omega
    · rw [Page.retriesLeft, Page.retriesLeft, Page.cloud?_setCloud_ne he]
  left_lt e' h := absurd h (Nat.lt_irrefl _)

theorem setCloud_paid (c' : CloudConnection) (hc : s.cloud? e = some c) (hg : c.generation = g)
    (hg' : c'.generation = c.generation) (ha : c'.reconnectAttempt = c.reconnectAttempt) :
    Paid e g 0 s (s.setCloud e c') :=
  ⟨hg ▸ setCloud_callback c' hc hg' (ha ▸ id), setCloud_frugal c' hc ha.ge⟩

theorem pending_addTicket :
    (s.addTicket e g).pending e' g' = s.pending e' g' + if e' = e ∧ g' = g then 1 else 0 := by
  have htickets : (s.addTicket e g).ticketsOf e' g' =
      s.ticketsOf e' g' + if e' = e ∧ g' = g then 1 else 0 := by
    simp only [Page.ticketsOf, Page.addTicket_tickets, count_append, count_singleton,
      beq_iff_eq, Prod.mk.injEq]
    exact congrArg _ (if_congr (and_congr eq_comm eq_comm) rfl rfl)
  change (s.addTicket e g).ticketsOf e' g' + s.timersOf e' g' + s.socketsOf e' g' = _
  rw [htickets, Page.pending]
  omega

theorem pending_addTimer {attempt : ℕ} :
    (s.addTimer ⟨e, g, attempt⟩).pending e' g' =
      s.pending e' g' + if e' = e ∧ g' = g then 1 else 0 := by
  have htimers : (s.addTimer ⟨e, g, attempt⟩).timersOf e' g' =
      s.timersOf e' g' + if e' = e ∧ g' = g then 1 else 0 := by
    simp only [Page.timersOf, Page.addTimer_timers, countP_append, countP_singleton,
      Bool.and_eq_true, decide_eq_true_eq]
    exact congrArg _ (if_congr (and_congr eq_comm eq_comm) rfl rfl)
  change s.ticketsOf e' g' + (s.addTimer ⟨e, g, attempt⟩).timersOf e' g' + s.socketsOf e' g' = _
  rw [htimers, Page.pending]
  omega

theorem pending_newSocket {tenantId : TenantId} {after : UInt64} :
    (s.newSocket e (some ⟨g, tenantId, after⟩)).pending e' g' =
      s.pending e' g' + if e' = e ∧ g' = g then 1 else 0 := by
  have hsockets : (s.newSocket e (some ⟨g, tenantId, after⟩)).socketsOf e' g' =
      s.socketsOf e' g' + if e' = e ∧ g' = g then 1 else 0 := by
    simp only [Page.socketsOf, Page.newSocket_sockets, countP_append, countP_singleton]
    refine congrArg _ (if_congr ?_ rfl rfl)
    simp only [Option.map_some, Option.some.injEq, Bool.and_eq_true, decide_eq_true_eq, ne_eq,
      reduceCtorEq, not_false_eq_true, decide_true, and_true]
    exact and_congr eq_comm eq_comm
  change s.ticketsOf e' g' + s.timersOf e' g' +
    (s.newSocket e (some ⟨g, tenantId, after⟩)).socketsOf e' g' = _
  rw [hsockets, Page.pending]
  omega

theorem ticket_paid : Paid e g 1 s (s.addTicket e g) :=
  paid_of_eq rfl rfl rfl (.inr rfl) prefix_rfl fun _ _ => Nat.le_of_eq pending_addTicket

theorem socket_paid (tenantId : TenantId) (after : UInt64) :
    Paid e g 1 s (s.newSocket e (some ⟨g, tenantId, after⟩)) :=
  paid_of_eq rfl rfl rfl (.inr rfl) prefix_rfl fun _ _ => Nat.le_of_eq pending_newSocket

theorem timer_callback {attempt : ℕ} (h : 1 ≤ attempt ∧ attempt ≤ maxReconnectAttempts) :
    Callback e g 1 s (s.addTimer ⟨e, g, attempt⟩) where
  stale _ := ⟨rfl, rfl⟩
  lookup _ _ := rfl
  current _ := Iff.rfl
  pending _ _ := Nat.le_of_eq pending_addTimer
  nextGeneration := rfl
  inRange hs := by
    refine ⟨hs.1, fun timer htimer => ?_⟩
    rcases mem_append.mp htimer with hold | hnew
    · exact hs.2 timer hold
    · rw [mem_singleton.mp hnew]
      exact h
  grows := prefix_rfl

/-- Closing a socket from the page leaves it pending until it has closed. -/
theorem pending_detachAndClose (i : ℕ) : (s.detachAndClose i).pending e g = s.pending e g := by
  have hsockets : (s.detachAndClose i).socketsOf e g = s.socketsOf e g := by
    refine Table.countP_modify_eq fun k _ => ?_
    by_cases hk : k.phase = .closed <;> simp [hk]
  rw [Page.pending, hsockets]
  rfl

theorem detach_paid (i : ℕ) : Paid e g 0 s (s.detachAndClose i) :=
  paid_of_eq rfl rfl rfl (.inr rfl) prefix_rfl fun _ _ =>
    (pending_detachAndClose i).trans_le (Nat.le_add_right _ _)

theorem begin_paid : Paid e g 1 s (s.beginCloudConnect e g) := by
  rw [Page.beginCloudConnect]
  split
  · exact Paid.refl
  · rename_i c hc
    split
    · exact Paid.refl
    · rename_i hcur
      have hg : c.generation = g := not_not.mp fun hne => hcur (.inl hne)
      exact (setCloud_paid { c with connecting := true } hc hg rfl rfl).trans ticket_paid

theorem setConnecting_paid (b : Bool) : Paid e g 0 s (s.setCloudConnecting e g b) := by
  rw [Page.setCloudConnecting]
  split
  · exact Paid.refl
  · rename_i c hc
    split
    · rename_i hg
      exact setCloud_paid _ hc hg rfl rfl
    · exact Paid.refl

theorem schedule_paid (reason : Str) : Paid e g 1 s (s.scheduleCloudRetry e g reason) := by
  rw [Page.scheduleCloudRetry]
  split
  · exact Paid.refl
  · rename_i c hc
    split
    · exact Paid.refl
    · rename_i hcur
      obtain rfl : c.generation = g := not_not.mp fun hne => hcur (.inl hne)
      split
      · exact (report_paid _ _).trans (Paid.refl (n := 1))
      · rename_i hroom
        have hattempt : 1 ≤ c.reconnectAttempt + 1 ∧
            c.reconnectAttempt + 1 ≤ maxReconnectAttempts := by omega
        have hset := setCloud_callback { c with reconnectAttempt := c.reconnectAttempt + 1 } hc rfl
          fun _ => hattempt.2
        have hfrugal := setCloud_frugal { c with reconnectAttempt := c.reconnectAttempt + 1 } hc
          (Nat.le_succ _)
        refine ⟨(hset.trans (report_paid _ _).toCallback).trans (timer_callback hattempt),
          hfrugal.left_le, fun e' h => ?_⟩
        -- Only one timer is added, and its endpoint has one retry less.
        by_cases hat : e = e'
        · subst hat
          change (s.setCloud e { c with reconnectAttempt := c.reconnectAttempt + 1 }).retriesLeft e <
            s.retriesLeft e
          simp only [Page.retriesLeft, Page.cloud?_setCloud, hc]
          omega
        · simp [Page.timersFor, Page.reportError, countP_append, hat] at h

theorem retry_paid (reason : Str) :
    Paid e g 1 s ((s.setCloudConnecting e g false).scheduleCloudRetry e g reason) :=
  (setConnecting_paid false).trans (schedule_paid reason)

theorem prepare_paid (tenantId : TenantId) (access : Except Str Unit) :
    Paid e g 0 s (s.prepareCloudTenant e g tenantId access).1 := by
  rw [Page.prepareCloudTenant]
  split
  · exact Paid.refl
  · rename_i c hc
    split
    · exact Paid.refl
    · rename_i hg
      rw [ne_eq, not_not] at hg
      split
      · exact Paid.refl
      · have hset {u : Page} (hu : u.cloud? e = some c) (cursor : UInt64) :
            Paid e g 0 u (u.setCloud e
              { c with tenantId := some tenantId, persistedCursor := cursor }) :=
          setCloud_paid _ hu hg rfl rfl
        cases s.loadCursor e tenantId access with
        | ok cursor => exact (hset hc cursor).trans (publish_paid _)
        | error error =>
          have hreported : (s.reportError (some e) error).cloud? e = some c := hc
          exact ((report_paid _ _).trans (hset hreported 0)).trans (publish_paid _)

theorem closeSocket_cloud? : (s.closeSocket c).cloud? e = s.cloud? e := by
  rw [Page.closeSocket]
  split <;> rfl

theorem closeSocket_paid : Paid e g 0 s (s.closeSocket c) := by
  rw [Page.closeSocket]
  split
  · exact detach_paid _
  · exact Paid.refl

/-- A ticket either opens at most one socket or fails without leaving anything pending. -/
theorem open_cases (tenantId : TenantId) (access opens : Except Str Unit) :
    Paid e g 0 s (s.openCloudSocket e g tenantId access opens).1 ∨
      (s.openCloudSocket e g tenantId access opens).2 = .ok () ∧
        Paid e g 1 s (s.openCloudSocket e g tenantId access opens).1 := by
  have hprepared := @prepare_paid s e g tenantId access
  rw [Page.openCloudSocket]
  split
  · rename_i s' hp
    rw [hp] at hprepared
    exact .inl hprepared
  · rename_i s' after hp
    rw [hp] at hprepared
    cases opens with
    | error error => exact .inl hprepared
    | ok _ =>
      refine .inr ?_
      have hnew : Paid e g 1 s (s'.newSocket e (some ⟨g, tenantId, after⟩)) :=
        hprepared.trans (socket_paid tenantId after)
      dsimp only
      split
      · exact ⟨rfl, hnew.trans (detach_paid _)⟩
      · rename_i c hc
        split
        · exact ⟨rfl, hnew.trans (detach_paid _)⟩
        · rename_i hg
          rw [ne_eq, not_not] at hg
          have hset := setCloud_paid { c with socket := some s'.sockets.length }
            ((closeSocket_cloud? (c := c)).trans hc) hg rfl rfl
          exact ⟨rfl, (hnew.trans closeSocket_paid).trans hset⟩

theorem acquired_paid (ticket : Except Str TenantId)
    (access opens : Except Str Unit) :
    Paid e g 1 s (s.ticketAcquired e g ticket access opens) := by
  unfold Page.ticketAcquired
  cases ticket with
  | error error => exact retry_paid error
  | ok tenantId =>
    have hcases := @open_cases s e g tenantId access opens
    dsimp only
    split
    · rename_i s' _ hopen
      rw [hopen] at hcases
      exact hcases.elim (·.trans (Paid.refl (n := 1))) (·.2)
    · rename_i s' error hopen
      rw [hopen] at hcases
      exact (hcases.resolve_right nofun).trans (retry_paid error)

theorem queue_paid (tenantId : TenantId) (record : DecodedJsonSignal)
    (access : Except Str Unit) :
    Paid e g 0 s (s.queueCloudRecord e g tenantId record access) := by
  rw [Page.queueCloudRecord]
  split
  · exact report_paid _ _
  · rename_i cursor _
    split
    · exact report_paid _ _
    · split
      · rename_i hqueue
        rw [Page.shouldQueue] at hqueue
        split at hqueue
        · cases hqueue
        · rename_i c hc
          simp only [decide_eq_true_eq] at hqueue
          obtain ⟨hg, htenant, _⟩ := hqueue
          have hpush : Paid e g 0 s (s.pushMessage (.signal e record.signal)) :=
            push_paid _ (.inl ⟨c, hc, hg⟩)
          cases access with
          | error error => exact hpush.trans (report_paid _ _)
          | ok _ =>
            have hc' : ((s.pushMessage (.signal e record.signal)).persistCursor e tenantId
              cursor).cloud? e = some c := hc
            have hpersist : Paid e g 0 (s.pushMessage (.signal e record.signal))
                ((s.pushMessage (.signal e record.signal)).persistCursor e tenantId cursor) :=
              paid_of_eq rfl rfl rfl (.inr rfl) prefix_rfl fun _ _ => Nat.le_add_right _ _
            dsimp only
            rw [hc']
            dsimp only
            rw [if_pos ⟨hg, htenant⟩]
            have hset := setCloud_paid { c with persistedCursor := max c.persistedCursor cursor } hc'
              hg rfl rfl
            exact (hpush.trans hpersist).trans hset
      · exact Paid.refl

theorem opened_callback {k : Socket} {stream : CloudStream} (hk : k.stream = some stream) :
    Callback k.endpoint stream.generation 0 s (s.socketOpened k) := by
  rw [Page.socketOpened, hk]
  dsimp only
  split
  · exact Paid.refl.toCallback
  · rename_i c hc
    split
    · rename_i hg
      rw [← hg]
      exact setCloud_callback _ hc rfl fun _ => Nat.zero_le _
    · exact Paid.refl.toCallback

theorem closed_paid {k : Socket} {stream : CloudStream} (hk : k.stream = some stream)
    (wasClean : Bool) (code : ℕ) (reason : Str) :
    Paid k.endpoint stream.generation 1 s (s.socketClosed k wasClean code reason) := by
  rw [Page.socketClosed, hk]
  exact retry_paid _

theorem message_paid {k : Socket} {stream : CloudStream} (hk : k.stream = some stream)
    (data : Except Str DecodedJsonSignal) (access : Except Str Unit) :
    Paid k.endpoint stream.generation 0 s (s.socketMessage k data access) := by
  cases data with
  | ok decoded =>
    simp only [Page.socketMessage, hk]
    exact queue_paid _ _ _
  | error error =>
    simp only [Page.socketMessage, hk]
    exact report_paid _ _

end Callbacks

def Socket.owner (k : Socket) : Option (Endpoint × UInt64) :=
  k.stream.map fun stream => (k.endpoint, stream.generation)

/-- The generation of the cloud endpoint whose callback an event runs. -/
def PageEvent.owner (s : Page) : PageEvent → Option (Endpoint × UInt64)
  | .ticketDone e g _ _ _ => some (e, g)
  | .timerFired timer => some (timer.endpoint, timer.generation)
  | .socketOpened i | .socketMessage i _ _ | .socketError i | .socketClosed i _ _ _ =>
    s.sockets[i]?.bind Socket.owner
  | .add _ _ _ | .remove _ | .otherPage _ _ => none

section Events
variable {l : PageEvent}

/-- A callback that has used up what triggered it adds nothing to what is pending. -/
theorem Paid.triggered {s₀ : Page} (h : Paid e g 1 s₀ v) (hc : s₀.connections = s.connections)
    (hm : s₀.messages = s.messages) (hn : s₀.nextGeneration = s.nextGeneration)
    (hr : s₀.timers.Sublist s.timers)
    (hp : ∀ e' g', s₀.pending e' g' + (if e' = e ∧ g' = g then 1 else 0) = s.pending e' g') :
    Paid e g 0 s v where
  stale hs := by
    have hs₀ : ¬ s₀.Current e g := by
      simpa only [Page.Current, Page.cloud?_congr hc] using hs
    obtain ⟨hc', hq'⟩ := h.stale hs₀
    exact ⟨hc'.trans hc, hq'.trans (congrArg (List.filter _) hm)⟩
  lookup e' he := (h.lookup e' he).trans (by rw [hc])
  current g' := (h.current g').trans (by simp only [Page.Current, Page.cloud?_congr hc])
  pending e' g' := by
    have hle := h.pending e' g'
    rw [hp] at hle
    exact Nat.le_trans hle (Nat.le_add_right _ _)
  nextGeneration := h.nextGeneration.trans hn
  inRange hs := by
    refine h.inRange ⟨fun e' c hc' => hs.1 e' c ?_, fun timer ht => hs.2 timer (hr.subset ht)⟩
    rwa [← Page.cloud?_congr hc]
  grows := hm ▸ h.grows
  toFrugal := by
    refine Frugal.trans ⟨fun e' => ?_, fun e' hlt => ?_⟩ h.toFrugal
    · rw [Page.retriesLeft, Page.retriesLeft, Page.cloud?_congr hc]
    · exact absurd hlt (Nat.not_lt.mpr hr.countP_le)

theorem pending_ticket (h : (e, g) ∈ s.tickets) :
    Page.pending { s with tickets := s.tickets.erase (e, g) } e' g' +
      (if e' = e ∧ g' = g then 1 else 0) = s.pending e' g' := by
  simp only [Page.pending, Page.ticketsOf, Page.timersOf, Page.socketsOf]
  by_cases hat : e' = e ∧ g' = g
  · obtain ⟨rfl, rfl⟩ := hat
    have hpos := count_pos_iff.mpr h
    rw [count_erase_self, if_pos ⟨rfl, rfl⟩]
    omega
  · rw [if_neg hat, count_erase_of_ne fun heq => hat (Prod.mk.inj heq), Nat.add_zero]

theorem pending_timer {timer : RetryTimer} (h : timer ∈ s.timers) :
    Page.pending { s with timers := s.timers.erase timer } e' g' +
      (if e' = timer.endpoint ∧ g' = timer.generation then 1 else 0) = s.pending e' g' := by
  have hcount := (perm_cons_erase h).countP_eq fun other =>
    other.endpoint = e' && other.generation = g'
  rw [countP_cons] at hcount
  have hat : (if (decide (timer.endpoint = e') && decide (timer.generation = g')) = true then 1 else 0)
      = if e' = timer.endpoint ∧ g' = timer.generation then 1 else 0 := by
    refine if_congr ?_ rfl rfl
    simp only [Bool.and_eq_true, decide_eq_true_eq]
    exact and_congr eq_comm eq_comm
  rw [hat] at hcount
  simp only [Page.pending, Page.ticketsOf, Page.timersOf, Page.socketsOf]
  omega

theorem pending_closed {i : ℕ} {k : Socket} {stream : CloudStream} (hk : s.sockets[i]? = some k)
    (hs : k.stream = some stream) (hphase : k.phase ≠ .closed) :
    (s.setPhase i .closed).pending e' g' +
      (if e' = k.endpoint ∧ g' = stream.generation then 1 else 0) = s.pending e' g' := by
  have hsockets : (s.setPhase i .closed).socketsOf e' g' +
      (if e' = k.endpoint ∧ g' = stream.generation then 1 else 0) = s.socketsOf e' g' := by
    by_cases hat : e' = k.endpoint ∧ g' = stream.generation
    · rw [if_pos hat]
      refine Table.countP_modify_add_one hk ?_ ?_
      · simp [hat.1, hat.2, hs, hphase]
      · simp
    · rw [if_neg hat, Nat.add_zero]
      refine Table.countP_modify_eq fun k' hk' => ?_
      rw [hk] at hk'
      cases hk'
      have hne : ¬ (k.endpoint = e' ∧ stream.generation = g') := fun h => hat ⟨h.1.symm, h.2.symm⟩
      simp only [hs, Option.map_some, Option.some.injEq, ← Bool.decide_and, hne]
      simp
  have hrest : (s.setPhase i .closed).pending e' g' =
      s.ticketsOf e' g' + s.timersOf e' g' + (s.setPhase i .closed).socketsOf e' g' := rfl
  rw [hrest, Page.pending]
  omega

/-- A change of phase of a raw socket, or of another one short of closing it. -/
theorem pending_phase {i : ℕ} {k : Socket} {phase : SocketPhase} (hk : s.sockets[i]? = some k)
    (h : k.stream = none ∨ (k.phase ≠ .closed ∧ phase ≠ .closed)) :
    (s.setPhase i phase).pending e g = s.pending e g := by
  have hsockets : (s.setPhase i phase).socketsOf e g = s.socketsOf e g := by
    refine Table.countP_modify_eq fun k' hk' => ?_
    rw [hk] at hk'
    cases hk'
    rcases h with h | ⟨h, h'⟩
    · simp [h]
    · simp [h, h']
  rw [Page.pending, hsockets]
  rfl

theorem owner_socket {i : ℕ} {k : Socket} (hk : s.sockets[i]? = some k)
    (h : s.sockets[i]?.bind Socket.owner = some (e, g)) :
    ∃ stream, k.stream = some stream ∧ k.endpoint = e ∧ stream.generation = g := by
  rw [hk] at h
  obtain ⟨stream, hstream, hx⟩ := Option.map_eq_some_iff.mp h
  cases hx
  exact ⟨stream, hstream, rfl, rfl⟩

/-- The event of a cloud connection is a callback of its generation. Only the opening of a stream
gives retries back. -/
theorem callback_step (ho : l.owner s = some (e, g)) (h : s.step l = some v) :
    Callback e g 0 s v ∧ (Frugal s v ∨ ∃ i, l = .socketOpened i) := by
  have hpaid (hv : Paid e g 0 s v) : Callback e g 0 s v ∧ (Frugal s v ∨ ∃ i, l = .socketOpened i) :=
    ⟨hv.toCallback, .inl hv.toFrugal⟩
  cases l with
  | add | remove | otherPage => cases ho
  | ticketDone e' g' ticket access opens =>
    cases ho
    obtain ⟨hmem, ⟨⟩⟩ := Option.ite_none_right_eq_some.mp h
    exact hpaid ((acquired_paid ticket access opens).triggered rfl rfl rfl (.refl _) fun _ _ =>
      pending_ticket hmem)
  | timerFired timer =>
    cases ho
    obtain ⟨hmem, ⟨⟩⟩ := Option.ite_none_right_eq_some.mp h
    exact hpaid (begin_paid.triggered rfl rfl rfl erase_sublist fun _ _ => pending_timer hmem)
  | socketOpened i =>
    obtain ⟨k, hk, hv⟩ := Option.bind_eq_some_iff.mp h
    obtain ⟨hphase, ⟨⟩⟩ := Option.ite_none_right_eq_some.mp hv
    obtain ⟨stream, hstream, rfl, rfl⟩ := owner_socket hk ho
    have hopening : Paid k.endpoint stream.generation 0 s (s.setPhase i .opened) :=
      paid_of_eq rfl rfl rfl (.inr rfl) prefix_rfl fun _ _ =>
        (pending_phase hk (.inr ⟨by simp [hphase], by simp⟩)).trans_le (Nat.le_add_right _ _)
    have hopened : Callback k.endpoint stream.generation 0 (s.setPhase i .opened)
        ((s.setPhase i .opened).handle k (·.socketOpened k)) :=
      Page.handle_rel Paid.refl.toCallback (opened_callback hstream)
    exact ⟨hopening.toCallback.trans hopened, .inr ⟨i, rfl⟩⟩
  | socketMessage i data access =>
    obtain ⟨k, hk, _, rfl⟩ := Page.of_socket h
    obtain ⟨stream, hstream, rfl, rfl⟩ := owner_socket hk ho
    exact hpaid (Page.handle_rel Paid.refl (message_paid hstream data access))
  | socketError i =>
    obtain ⟨k, hk, _, rfl⟩ := Page.of_socket h
    exact hpaid (Page.handle_rel Paid.refl (report_paid _ _))
  | socketClosed i wasClean code reason =>
    obtain ⟨k, hk, hphase, rfl⟩ := Page.of_socket h
    obtain ⟨stream, hstream, rfl, rfl⟩ := owner_socket hk ho
    have hclosed : Paid k.endpoint stream.generation 1 (s.setPhase i .closed)
        ((s.setPhase i .closed).handle k (·.socketClosed k wasClean code reason)) :=
      Page.handle_rel Paid.refl (closed_paid hstream wasClean code reason)
    exact hpaid (hclosed.triggered rfl rfl rfl (.refl _) fun _ _ => pending_closed hk hstream hphase)

/-- An event that is no callback of a cloud connection and adds none. -/
structure Plain (s v : Page) : Prop where
  cloud : ∀ e, v.cloud? e = none ∨ v.cloud? e = s.cloud? e
  pending : ∀ e g, v.pending e g = s.pending e g
  timers : v.timers = s.timers
  nextGeneration : v.nextGeneration = s.nextGeneration
  grows : s.messages <+: v.messages

/-- A cloud connection of a new generation, whose ticket is requested. -/
structure AddsCloud (e : Endpoint) (s v : Page) : Prop where
  alone : ∀ e', s.cloud? e' = none
  cloud : v.cloud? e = some ⟨s.nextGeneration, none, none, 0, 0, true⟩
  others : ∀ e' ≠ e, v.cloud? e' = none
  pending : ∀ e' g', v.pending e' g' =
    s.pending e' g' + if e' = e ∧ g' = s.nextGeneration then 1 else 0
  timers : v.timers = s.timers
  nextGeneration : v.nextGeneration = Page.generationAfter s.nextGeneration
  grows : s.messages <+: v.messages

theorem Plain.trans (h : Plain s u) (h' : Plain u v) : Plain s v where
  cloud e := by
    rcases h'.cloud e with he | he
    · exact .inl he
    · rw [he]
      exact h.cloud e
  pending e g := (h'.pending e g).trans (h.pending e g)
  timers := h'.timers.trans h.timers
  nextGeneration := h'.nextGeneration.trans h.nextGeneration
  grows := h.grows.trans h'.grows

theorem retain_plain : Plain s s.retainOpen :=
  ⟨fun _ => .inr Page.cloud?_retainOpen, fun _ _ => rfl, rfl, rfl, prefix_rfl⟩

/-- Messages are queued, and endpoints become active or cease to be. -/
theorem queue_plain (active : List Endpoint) (messages : List IngressMessage) :
    Plain s { s with active, messages := s.messages ++ messages } :=
  ⟨fun _ => .inr rfl, fun _ _ => rfl, rfl, rfl, prefix_append _ _⟩

theorem Plain.refl : Plain s s :=
  ⟨fun _ => .inr rfl, fun _ _ => rfl, rfl, rfl, prefix_rfl⟩

/-- The page after a cloud connection has been entered, before its first ticket is requested. -/
def Page.enterCloud (s : Page) (e : Endpoint) : Page :=
  (((({ s with nextGeneration := Page.generationAfter s.nextGeneration }).setCloud e
    ⟨s.nextGeneration, none, none, 0, 0, false⟩).publishStorageScope .cloudPending).addActive
      e).publishActiveSnapshot

theorem addCloud_eq : s.addCloud e (.ok ()) =
    (((s.enterCloud e).setCloud e ⟨s.nextGeneration, none, none, 0, 0, true⟩).addTicket e
      s.nextGeneration, .ok ()) := by
  have hc : (s.enterCloud e).cloud? e = some ⟨s.nextGeneration, none, none, 0, 0, false⟩ :=
    Page.cloud?_setCloud
  change ((s.enterCloud e).beginCloudConnect e s.nextGeneration, Except.ok ()) = _
  rw [Page.beginCloudConnect, hc]
  simp

theorem addCloud_adds (h : s.hasCloud = false) : AddsCloud e s (s.addCloud e (.ok ())).1 := by
  rw [addCloud_eq]
  refine ⟨fun e' => Page.cloud?_of_hasCloud h, Page.cloud?_setCloud, fun e' he => ?_,
    fun e' g' => pending_addTicket, rfl, rfl, ?_⟩
  · have hrest : (s.enterCloud e).cloud? e' = s.cloud? e' := Page.cloud?_setCloud_ne he
    exact (Page.cloud?_setCloud_ne he).trans (hrest.trans (Page.cloud?_of_hasCloud h))
  · exact (prefix_append _ _).trans (prefix_append _ _)

theorem addRaw_plain (opens : Except Str Unit) :
    Plain s (s.addRaw e opens).1 := by
  cases opens with
  | error error => exact Plain.refl
  | ok _ =>
    refine ⟨fun e' => ?_, fun e' g' => ?_, rfl, rfl, prefix_append _ _⟩
    · by_cases he : e' = e
      · subst he
        refine .inl ?_
        simp [Page.cloud?, Page.addRaw, Page.publishStorageScope]
      · refine .inr ?_
        simp [Page.cloud?, Page.addRaw, Page.publishStorageScope, AList.lookup_insert_ne he]
    · have hsockets : (s.addRaw e (.ok ())).1.socketsOf e' g' = s.socketsOf e' g' := by
        simp [Page.socketsOf, Page.addRaw, Page.publishStorageScope, countP_append]
      exact congrArg (s.ticketsOf e' g' + s.timersOf e' g' + ·) hsockets

/-- Adding an endpoint adds one cloud connection or none. -/
theorem add_cases (endpoint : BrowserEndpoint) (opens : Except Str Unit) :
    Plain s (s.add endpoint opens).1 ∨
      ∃ e, endpoint = .cloudApi e ∧ AddsCloud e s (s.add endpoint opens).1 ∧
        (s.add endpoint opens).2 = .ok () := by
  unfold Page.add
  dsimp only
  split
  · exact .inl retain_plain
  · cases endpoint with
    | cloudApi e =>
      dsimp only
      split
      · exact .inl retain_plain
      · rename_i hnone
        cases opens with
        | error error => exact .inl retain_plain
        | ok _ =>
          simp only [Bool.or_eq_true, not_or, Bool.not_eq_true] at hnone
          have hadds : AddsCloud e s.retainOpen _ := addCloud_adds hnone.1
          exact .inr ⟨e, rfl, ⟨fun e' => Page.cloud?_retainOpen.symm.trans (hadds.alone e'),
            hadds.cloud, hadds.others, hadds.pending, hadds.timers, hadds.nextGeneration,
            hadds.grows⟩, rfl⟩
    | rawWebSocket e =>
      dsimp only
      split
      · exact .inl retain_plain
      · exact .inl (retain_plain.trans (addRaw_plain opens))

theorem detach_plain (i : ℕ) : Plain s (s.detachAndClose i) :=
  ⟨fun _ => .inr rfl, fun _ _ => pending_detachAndClose i, rfl, rfl, prefix_rfl⟩

theorem erase_plain : Plain s { s with connections := s.connections.erase e } := by
  refine ⟨fun e' => ?_, fun _ _ => rfl, rfl, rfl, prefix_rfl⟩
  by_cases he : e' = e
  · subst he
    simp [Page.cloud?]
  · simp [Page.cloud?, AList.lookup_erase_ne he]

theorem remove_plain (endpoint : BrowserEndpoint) : Plain s (s.remove endpoint).1 := by
  rw [Page.remove]
  split
  · exact Plain.refl
  · rename_i connection _
    cases connection with
    | raw socket =>
      exact (erase_plain.trans (detach_plain socket)).trans (queue_plain _ [_])
    | cloud c =>
      have hclose : Plain { s with connections := s.connections.erase endpoint.key }
          (Page.closeSocket { s with connections := s.connections.erase endpoint.key } c) := by
        rw [Page.closeSocket]
        split
        · exact detach_plain _
        · exact Plain.refl
      exact ((erase_plain.trans hclose).trans (queue_plain _ [_])).trans (queue_plain _ [_])

theorem phase_plain {i : ℕ} {k : Socket} {phase : SocketPhase} (hk : s.sockets[i]? = some k)
    (h : k.stream = none) : Plain s (s.setPhase i phase) :=
  ⟨fun _ => .inr rfl, fun _ _ => pending_phase hk (.inl h), rfl, rfl, prefix_rfl⟩

/-- What an event does that is not a callback of a cloud connection. -/
theorem plain_step (ho : l.owner s = none) (h : s.step l = some v) :
    Plain s v ∨ ∃ e opens startup, l = .add (.cloudApi e) opens startup ∧ AddsCloud e s v := by
  cases l with
  | add endpoint opens startup =>
    have hcases := @add_cases s endpoint opens
    rw [Page.step] at h
    split at h
    · rename_i s' _ hadd
      cases h
      rw [hadd] at hcases
      refine hcases.imp_right ?_
      rintro ⟨e, rfl, hadds, _⟩
      exact ⟨e, opens, startup, rfl, hadds⟩
    · rename_i s' error hadd
      cases h
      rw [hadd] at hcases
      have hreport : Plain s' (if startup then s'.reportError (some endpoint.key) error else s') := by
        split
        · exact queue_plain _ [_]
        · exact Plain.refl
      rcases hcases with hplain | ⟨_, _, _, hok⟩
      · exact .inl (hplain.trans hreport)
      · cases hok
  | remove endpoint =>
    cases h
    exact .inl (remove_plain endpoint)
  | otherPage key value =>
    cases h
    exact .inl ⟨fun _ => .inr rfl, fun _ _ => rfl, rfl, rfl, prefix_rfl⟩
  | ticketDone | timerFired => cases ho
  | socketOpened i =>
    obtain ⟨k, hk, hv⟩ := Option.bind_eq_some_iff.mp h
    obtain ⟨_, ⟨⟩⟩ := Option.ite_none_right_eq_some.mp hv
    have hraw : k.stream = none := by simpa [PageEvent.owner, hk, Socket.owner] using ho
    refine .inl ((phase_plain hk hraw).trans (Page.handle_rel Plain.refl ?_))
    rw [Page.socketOpened, hraw]
    exact queue_plain _ [_]
  | socketMessage i data access =>
    obtain ⟨k, hk, _, rfl⟩ := Page.of_socket h
    have hraw : k.stream = none := by simpa [PageEvent.owner, hk, Socket.owner] using ho
    refine .inl (Page.handle_rel Plain.refl ?_)
    cases data with
    | ok | error =>
      simp only [Page.socketMessage, hraw]
      exact queue_plain _ [_]
  | socketError i =>
    obtain ⟨k, hk, _, rfl⟩ := Page.of_socket h
    exact .inl (Page.handle_rel Plain.refl (queue_plain _ [_]))
  | socketClosed i wasClean code reason =>
    obtain ⟨k, hk, _, rfl⟩ := Page.of_socket h
    have hraw : k.stream = none := by simpa [PageEvent.owner, hk, Socket.owner] using ho
    refine .inl ((phase_plain hk hraw).trans (Page.handle_rel Plain.refl ?_))
    rw [Page.socketClosed, hraw]
    dsimp only
    split
    · exact queue_plain _ [_]
    · exact (queue_plain _ [_]).trans (queue_plain _ [_])

end Events

end SkidMonitor.Browser
