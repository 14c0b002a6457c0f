import SkidMonitor.Client.Reconnect

/-! What an event does to the records a page queues and to the scopes it announces. Everything
else an event changes (timers, tickets, attempts, reports) is quiet. -/
namespace SkidMonitor.Browser

variable {s t u v w : Page} {e : Endpoint} {c : CloudConnection}

/-- What decides which records a connection queues. -/
def CloudConnection.position (c : CloudConnection) :
    UInt64 × Option TenantId × UInt64 × Option ℕ :=
  (c.generation, c.tenantId, c.persistedCursor, c.socket)

def Socket.handlers (k : Socket) : Endpoint × Option CloudStream × Bool :=
  (k.endpoint, k.stream, k.attached)

def IngressMessage.isNotable : IngressMessage → Bool
  | .signal _ _ | .browserStorageScope _ => true
  | .listening _ | .error _ _ => false

/-- The signals and the scopes among the messages. -/
def Page.notable (s : Page) : List IngressMessage := s.messages.filter IngressMessage.isNotable

/-- A change that touches neither positions, handlers and stored values nor what is queued. Raw
connections may be dropped once their socket has closed. -/
structure Quiet (s v : Page) : Prop where
  cloud : ∀ e, (v.cloud? e).map CloudConnection.position =
    (s.cloud? e).map CloudConnection.position
  raw : ∀ e i, v.connections.lookup e = some (.raw i) → s.connections.lookup e = some (.raw i)
  rawOpen : ∀ e i (k : Socket), s.connections.lookup e = some (.raw i) → v.sockets[i]? = some k →
    k.phase ≠ .closed → v.connections.lookup e = some (.raw i)
  handlers : v.sockets.map Socket.handlers = s.sockets.map Socket.handlers
  closed : ∀ (i : ℕ) (k k' : Socket), s.sockets[i]? = some k → v.sockets[i]? = some k' →
    k.phase = .closed → k'.phase = .closed
  localStorage : v.localStorage = s.localStorage
  notable : v.notable = s.notable

section Quiet

theorem Quiet.trans (h : Quiet s u) (h' : Quiet u v) : Quiet s v where
  cloud e := (h'.cloud e).trans (h.cloud e)
  raw e i hi := h.raw e i (h'.raw e i hi)
  rawOpen e i k hs hk hopen := by
    have hlength : u.sockets.length = v.sockets.length := by
      simpa using (congrArg List.length h'.handlers).symm
    obtain ⟨hi, _⟩ := List.getElem?_eq_some_iff.mp hk
    have hu : u.sockets[i]? = some u.sockets[i] := List.getElem?_eq_getElem _
    have hnot : u.sockets[i].phase ≠ .closed := fun hclosed => hopen (h'.closed i _ k hu hk hclosed)
    exact h'.rawOpen e i k (h.rawOpen e i _ hs hu hnot) hk hopen
  handlers := h'.handlers.trans h.handlers
  closed i k k' hk hk' hclosed := by
    have hlength : u.sockets.length = v.sockets.length := by
      simpa using (congrArg List.length h'.handlers).symm
    obtain ⟨hi, _⟩ := List.getElem?_eq_some_iff.mp hk'
    have hu : u.sockets[i]? = some u.sockets[i] := List.getElem?_eq_getElem _
    exact h'.closed i _ k' hu hk' (h.closed i k _ hk hu hclosed)
  localStorage := h'.localStorage.trans h.localStorage
  notable := h'.notable.trans h.notable

theorem quiet_of_eq (hc : v.connections = s.connections) (hk : v.sockets = s.sockets)
    (hl : v.localStorage = s.localStorage) (hq : v.notable = s.notable) : Quiet s v where
  cloud e := by rw [Page.cloud?_congr hc]
  raw e i h := hc ▸ h
  rawOpen e i k h _ _ := hc ▸ h
  handlers := by rw [hk]
  closed i k k' h h' hclosed := by
    rw [hk, h] at h'
    cases h'
    exact hclosed
  localStorage := hl
  notable := hq

theorem Quiet.refl : Quiet s s := quiet_of_eq rfl rfl rfl rfl

theorem report_quiet (listener : Option Endpoint) (error : Str) :
    Quiet s (s.reportError listener error) :=
  quiet_of_eq rfl rfl rfl (by simp [Page.notable, Page.reportError, IngressMessage.isNotable])

theorem snapshot_quiet : Quiet s s.publishActiveSnapshot :=
  quiet_of_eq rfl rfl rfl
    (by simp [Page.notable, Page.publishActiveSnapshot, IngressMessage.isNotable])

theorem active_quiet (active : List Endpoint) :
    Quiet s (Page.publishActiveSnapshot { s with active }) :=
  (quiet_of_eq rfl rfl rfl rfl : Quiet s { s with active }).trans snapshot_quiet

theorem setCloud_quiet (c' : CloudConnection) (hc : s.cloud? e = some c)
    (hp : c'.position = c.position) : Quiet s (s.setCloud e c') where
  cloud e' := by
    by_cases he : e' = e
    · subst he
      simp [hc, hp]
    · rw [Page.cloud?_setCloud_ne he]
  raw e' i h := by
    by_cases he : e' = e
    · subst he
      simp at h
    · rwa [Page.setCloud_connections, AList.lookup_insert_ne he] at h
  rawOpen e' i k h _ _ := by
    have he : e' ≠ e := by
      rintro rfl
      rw [Page.cloud?, h] at hc
      cases hc
    rwa [Page.setCloud_connections, AList.lookup_insert_ne he]
  handlers := rfl
  closed i k k' h h' hclosed := by
    rw [Page.setCloud_sockets, h] at h'
    cases h'
    exact hclosed
  localStorage := rfl
  notable := rfl

theorem setPhase_quiet {i : ℕ} {k : Socket} {phase : SocketPhase} (hk : s.sockets[i]? = some k)
    (h : k.phase ≠ .closed) : Quiet s (s.setPhase i phase) where
  cloud _ := rfl
  raw _ _ h := h
  rawOpen _ _ _ h _ _ := h
  handlers := Table.map_modify_eq fun _ => rfl
  closed j k₁ k₂ h₁ h₂ hclosed := by
    by_cases hj : i = j
    · subst hj
      rw [hk] at h₁
      cases h₁
      exact absurd hclosed h
    · rw [Page.setPhase_sockets, List.getElem?_modify_ne _ _ hj, h₁] at h₂
      cases h₂
      exact hclosed
  localStorage := rfl
  notable := rfl

theorem retainOpen_quiet : Quiet s s.retainOpen where
  cloud e := by rw [Page.cloud?_retainOpen]
  raw e i h := by
    rw [← Option.mem_def, AList.mem_lookup_iff, Page.retainOpen_connections_entries] at h
    exact AList.mem_lookup_iff.mpr (List.mem_of_mem_filter h)
  rawOpen e i k h hk hopen := by
    rw [← Option.mem_def, AList.mem_lookup_iff] at h ⊢
    rw [Page.retainOpen_connections_entries]
    refine List.mem_filter.mpr ⟨h, ?_⟩
    have hk' : s.sockets[i]? = some k := hk
    simp [hk', hopen]
  handlers := rfl
  closed i k k' h h' hclosed := by
    rw [Page.retainOpen_sockets, h] at h'
    cases h'
    exact hclosed
  localStorage := rfl
  notable := rfl

theorem begin_quiet (g : UInt64) : Quiet s (s.beginCloudConnect e g) := by
  rw [Page.beginCloudConnect]
  split
  · exact Quiet.refl
  · rename_i c hc
    split
    · exact Quiet.refl
    · exact (setCloud_quiet { c with connecting := true } hc rfl).trans
        (quiet_of_eq rfl rfl rfl rfl)

theorem setConnecting_quiet (g : UInt64) (b : Bool) : Quiet s (s.setCloudConnecting e g b) := by
  rw [Page.setCloudConnecting]
  split
  · exact Quiet.refl
  · rename_i c hc
    split
    · exact setCloud_quiet _ hc rfl
    · exact Quiet.refl

theorem schedule_quiet (g : UInt64) (reason : Str) :
    Quiet s (s.scheduleCloudRetry e g reason) := by
  rw [Page.scheduleCloudRetry]
  split
  · exact Quiet.refl
  · rename_i c hc
    split
    · exact Quiet.refl
    · split
      · exact report_quiet _ _
      · have hset := setCloud_quiet { c with reconnectAttempt := c.reconnectAttempt + 1 } hc rfl
        exact (hset.trans (report_quiet _ _)).trans (quiet_of_eq rfl rfl rfl rfl)

theorem opened_quiet (k : Socket) : Quiet s (s.socketOpened k) := by
  rw [Page.socketOpened]
  split
  · exact active_quiet _
  · split
    · exact Quiet.refl
    · rename_i c hc
      split
      · exact setCloud_quiet _ hc rfl
      · exact Quiet.refl

theorem closed_quiet (k : Socket) (wasClean : Bool) (code : ℕ) (reason : Str) :
    Quiet s (s.socketClosed k wasClean code reason) := by
  rw [Page.socketClosed]
  split
  · dsimp only
    split
    · exact active_quiet _
    · exact (active_quiet _).trans (report_quiet _ _)
  · exact (setConnecting_quiet _ _).trans (schedule_quiet _ _)

end Quiet

/-- The position a connection resumes after once it turns to a tenant. -/
def Page.resumeCursor (s : Page) (e : Endpoint) (tenantId : TenantId)
    (access : Except Str Unit) : UInt64 :=
  match s.loadCursor e tenantId access with
  | .ok cursor => cursor
  | .error _ => 0

/-- A ticket for a tenant finds its connection at the tenant, or turns it to the tenant. -/
inductive Prepared (e : Endpoint) (c : CloudConnection) (tenantId : TenantId)
    (access : Except Str Unit) (s : Page) : Page → CloudConnection → Prop
  | same (h : c.tenantId = some tenantId) : Prepared e c tenantId access s s c
  | turned {u : Page} (hu : Quiet s u) (hc : u.cloud? e = some c) (h : c.tenantId ≠ some tenantId) :
    Prepared e c tenantId access s
      ((u.setCloud e { c with
        tenantId := some tenantId
        persistedCursor := s.resumeCursor e tenantId access }).publishStorageScope
          (.cloud e tenantId))
      { c with tenantId := some tenantId, persistedCursor := s.resumeCursor e tenantId access }

/-- The page once the stream of a connection has a new socket. -/
def Page.connect (s : Page) (e : Endpoint) (c : CloudConnection) (tenantId : TenantId) : Page :=
  ((s.newSocket e (some ⟨c.generation, tenantId, c.persistedCursor⟩)).closeSocket c).setCloud e
    { c with socket := some s.sockets.length }

/-- The page once a record has been queued and its cursor stored. -/
def Page.accept (s : Page) (e : Endpoint) (c : CloudConnection) (tenantId : TenantId)
    (signal : Signal) (cursor : UInt64) : Page :=
  ((s.pushMessage (.signal e signal)).persistCursor e tenantId cursor).setCloud e
    { c with persistedCursor := cursor }

/-- What an event can do to a page. -/
inductive Effect (s : Page) : PageEvent → Page → Prop
  | quiet {l : PageEvent} {v : Page} (hv : Quiet s v) : Effect s l v
  | write (key : Str) (value : Option Str) :
    Effect s (.otherPage key value)
      { s with localStorage := Function.update s.localStorage key value }
  | removeRaw {endpoint : BrowserEndpoint} {i : ℕ} {v : Page}
    (hi : s.connections.lookup endpoint.key = some (.raw i))
    (hv : Quiet (Page.detachAndClose
      { s with connections := s.connections.erase endpoint.key } i) v) :
    Effect s (.remove endpoint) v
  | removeCloud {endpoint : BrowserEndpoint} {c : CloudConnection} {v : Page}
    (hc : s.cloud? endpoint.key = some c)
    (hv : Quiet ((Page.closeSocket
      { s with connections := s.connections.erase endpoint.key } c).publishStorageScope
        .cloudPending) v) :
    Effect s (.remove endpoint) v
  | addRaw {e : Endpoint} {startup : Bool} {u : Page} (hu : Quiet s u) (hcloud : u.hasCloud = false)
    (hnone : u.connections.lookup e = none) :
    Effect s (.add (.rawWebSocket e) (.ok ()) startup) (u.addRaw e (.ok ())).1
  | addCloud {e : Endpoint} {startup : Bool} {u v : Page} (hu : Quiet s u)
    (hcloud : u.hasCloud = false) (hraw : u.hasRaw = false)
    (hv : Quiet ((u.setCloud e ⟨u.nextGeneration, none, none, 0, 0, false⟩).publishStorageScope
      .cloudPending) v) :
    Effect s (.add (.cloudApi e) (.ok ()) startup) v
  | prepare {e : Endpoint} {c c' : CloudConnection} {tenantId : TenantId}
    {access opens : Except Str Unit} {u w v : Page} (hu : Quiet s u)
    (hc : u.cloud? e = some c) (hw : Prepared e c tenantId access u w c') (hv : Quiet w v) :
    Effect s (.ticketDone e c.generation (.ok tenantId) access opens) v
  | connect {e : Endpoint} {c c' : CloudConnection} {tenantId : TenantId}
    {access : Except Str Unit} {u w : Page} (hu : Quiet s u)
    (hc : u.cloud? e = some c) (hw : Prepared e c tenantId access u w c') :
    Effect s (.ticketDone e c.generation (.ok tenantId) access (.ok ())) (w.connect e c' tenantId)
  | queueRaw {i : ℕ} {k : Socket} {record : DecodedJsonSignal} {access : Except Str Unit}
    (hk : s.sockets[i]? = some k) (hopen : k.phase ≠ .closed) (hat : k.attached)
    (hraw : k.stream = none) :
    Effect s (.socketMessage i (.ok record) access) (s.pushMessage (.signal k.endpoint record.signal))
  | queueCloud {i : ℕ} {k : Socket} {stream : CloudStream} {c : CloudConnection}
    {record : DecodedJsonSignal} {cursor : UInt64} {access : Except Str Unit} {v : Page}
    (hk : s.sockets[i]? = some k) (hat : k.attached) (hstream : k.stream = some stream)
    (hcursor : record.cursor = some cursor) (htenant : record.tenantId = some stream.tenantId)
    (hc : s.cloud? k.endpoint = some c) (hg : c.generation = stream.generation)
    (ht : c.tenantId = some stream.tenantId) (hlt : c.persistedCursor < cursor)
    (hv : (access = .ok () ∧ v = s.accept k.endpoint c stream.tenantId record.signal cursor) ∨
      (access ≠ .ok () ∧ Quiet (s.pushMessage (.signal k.endpoint record.signal)) v)) :
    Effect s (.socketMessage i (.ok record) access) v

section Steps
variable {l : PageEvent} {g : UInt64} {tenantId : TenantId} {access opens : Except Str Unit}

theorem prepare_cases (s : Page) (e : Endpoint) (g : UInt64) (tenantId : TenantId)
    (access : Except Str Unit) :
    s.prepareCloudTenant e g tenantId access = (s, none) ∨
      ∃ c c' w, s.cloud? e = some c ∧ c.generation = g ∧ Prepared e c tenantId access s w c' ∧
        w.cloud? e = some c' ∧
        s.prepareCloudTenant e g tenantId access = (w, some c'.persistedCursor) := by
  rw [Page.prepareCloudTenant]
  split
  · exact .inl rfl
  · rename_i c hc
    split
    · exact .inl rfl
    · rename_i hg
      refine .inr ?_
      split
      · rename_i htenant
        exact ⟨c, c, s, hc, not_not.mp hg, .same htenant, hc, rfl⟩
      · rename_i htenant
        have hcursor : s.resumeCursor e tenantId access =
            match s.loadCursor e tenantId access with
            | .ok cursor => cursor
            | .error _ => 0 := rfl
        cases hload : s.loadCursor e tenantId access with
        | ok cursor =>
          rw [hload] at hcursor
          have hprepared : Prepared e c tenantId access s _ _ := .turned Quiet.refl hc htenant
          rw [hcursor] at hprepared
          exact ⟨c, _, _, hc, not_not.mp hg, hprepared, Page.cloud?_setCloud, rfl⟩
        | error error =>
          rw [hload] at hcursor
          have hprepared : Prepared e c tenantId access s _ _ :=
            .turned (report_quiet (some e) error) hc htenant
          rw [hcursor] at hprepared
          exact ⟨c, _, _, hc, not_not.mp hg, hprepared, Page.cloud?_setCloud, rfl⟩

theorem retry_quiet (g : UInt64) (error : Str) :
    Quiet s ((s.setCloudConnecting e g false).scheduleCloudRetry e g error) :=
  (setConnecting_quiet g false).trans (schedule_quiet g error)

theorem ticket_effect (hu : Quiet s u) (ticket : Except Str TenantId) :
    Effect s (.ticketDone e g ticket access opens) (u.ticketAcquired e g ticket access opens) := by
  unfold Page.ticketAcquired
  cases ticket with
  | error error => exact .quiet (hu.trans (retry_quiet g error))
  | ok tenantId =>
    dsimp only
    rcases prepare_cases u e g tenantId access with hgone | ⟨c, c', w, hc, rfl, hw, hc', hprepare⟩
    · rw [Page.openCloudSocket, hgone]
      exact .quiet hu
    · rw [Page.openCloudSocket, hprepare]
      cases opens with
      | error error => exact .prepare hu hc hw (retry_quiet _ error)
      | ok _ =>
        have hg : c'.generation = c.generation := by cases hw <;> rfl
        have hnew : (w.newSocket e (some ⟨c.generation, tenantId, c'.persistedCursor⟩)).cloud? e =
            some c' := hc'
        simp only [hnew, hg, ne_eq, not_true_eq_false, if_false]
        have hconnect := Effect.connect hu hc hw
        rw [Page.connect, hg] at hconnect
        exact hconnect

theorem message_effect {i : ℕ} {k : Socket} (hk : s.sockets[i]? = some k)
    (hopen : k.phase ≠ .closed) (hat : k.attached) (data : Except Str DecodedJsonSignal) :
    Effect s (.socketMessage i data access) (s.socketMessage k data access) := by
  cases data with
  | error error =>
    have hreport : s.socketMessage k (.error error) access =
        s.reportError (some k.endpoint) error := by
      rw [Page.socketMessage.eq_def]
      cases k.stream <;> rfl
    rw [hreport]
    exact .quiet (report_quiet _ _)
  | ok record =>
    cases hstream : k.stream with
    | none =>
      simp only [Page.socketMessage, hstream]
      exact .queueRaw hk hopen hat hstream
    | some stream =>
      simp only [Page.socketMessage, hstream]
      rw [Page.queueCloudRecord]
      split
      · exact .quiet (report_quiet _ _)
      · rename_i cursor hcursor
        split
        · exact .quiet (report_quiet _ _)
        · rename_i htenant
          split
          · rename_i hqueue
            rw [Page.shouldQueue] at hqueue
            split at hqueue
            · cases hqueue
            · rename_i c hc
              simp only [decide_eq_true_eq] at hqueue
              obtain ⟨hg, ht, hlt⟩ := hqueue
              refine .queueCloud hk hat hstream hcursor (not_not.mp htenant) hc hg ht hlt ?_
              cases access with
              | error error => exact .inr ⟨by simp, report_quiet _ _⟩
              | ok _ =>
                refine .inl ⟨rfl, ?_⟩
                have hc' : ((s.pushMessage (.signal k.endpoint record.signal)).persistCursor
                  k.endpoint stream.tenantId cursor).cloud? k.endpoint = some c := hc
                dsimp only
                rw [hc']
                dsimp only
                have hmax : max c.persistedCursor cursor = cursor :=
                  if_pos (UInt64.le_of_lt hlt)
                rw [if_pos ⟨hg, ht⟩, hmax]
                rfl
          · exact .quiet Quiet.refl

theorem add_effect (endpoint : BrowserEndpoint) (startup : Bool) :
    (∃ error, (s.add endpoint opens).2 = .error error ∧ Quiet s (s.add endpoint opens).1) ∨
      (s.add endpoint opens).2 = .ok () ∧
        Effect s (.add endpoint opens startup) (s.add endpoint opens).1 := by
  unfold Page.add
  dsimp only
  split
  · exact .inl ⟨_, rfl, retainOpen_quiet⟩
  · rename_i hnone
    rw [Bool.not_eq_true, Option.isSome_eq_false_iff, Option.isNone_iff_eq_none] at hnone
    cases endpoint with
    | cloudApi e =>
      dsimp only
      split
      · exact .inl ⟨_, rfl, retainOpen_quiet⟩
      · rename_i hfree
        simp only [Bool.or_eq_true, not_or, Bool.not_eq_true] at hfree
        cases opens with
        | error error => exact .inl ⟨error, rfl, retainOpen_quiet⟩
        | ok _ =>
          refine .inr ⟨rfl, .addCloud retainOpen_quiet hfree.1 hfree.2 ?_⟩
          have hnext : Quiet ((s.retainOpen.setCloud e
              ⟨s.retainOpen.nextGeneration, none, none, 0, 0, false⟩).publishStorageScope
                .cloudPending) ((({ s.retainOpen with
                  nextGeneration := Page.generationAfter s.retainOpen.nextGeneration }.setCloud e
              ⟨s.retainOpen.nextGeneration, none, none, 0, 0, false⟩).publishStorageScope
                .cloudPending).addActive e) := quiet_of_eq rfl rfl rfl rfl
          exact (hnext.trans snapshot_quiet).trans (begin_quiet _)
    | rawWebSocket e =>
      dsimp only
      split
      · exact .inl ⟨_, rfl, retainOpen_quiet⟩
      · rename_i hcloud
        cases opens with
        | error error => exact .inl ⟨error, rfl, retainOpen_quiet⟩
        | ok _ => exact .inr ⟨rfl, .addRaw retainOpen_quiet (Bool.not_eq_true _ ▸ hcloud) hnone⟩

theorem remove_effect (endpoint : BrowserEndpoint) :
    Effect s (.remove endpoint) (s.remove endpoint).1 := by
  rw [Page.remove]
  split
  · exact .quiet Quiet.refl
  · rename_i connection hconnection
    cases connection with
    | raw i => exact .removeRaw hconnection (active_quiet _)
    | cloud c =>
      have hc : s.cloud? endpoint.key = some c := by rw [Page.cloud?, hconnection]
      exact .removeCloud hc (quiet_of_eq rfl rfl rfl (by
        simp [Page.notable, Page.publishActiveSnapshot, Page.publishStorageScope,
          IngressMessage.isNotable]))

/-- Every event has one of the effects. -/
theorem effect_step (h : s.step l = some v) : Effect s l v := by
  cases l with
  | add endpoint opens startup =>
    rw [Page.step] at h
    have hadd := @add_effect s opens endpoint startup
    rcases hadd with ⟨error, herror, hquiet⟩ | ⟨hok, heffect⟩
    · split at h
      · rename_i _ _ heq
        rw [heq] at herror
        cases herror
      · rename_i s' error' heq
        cases h
        rw [heq] at hquiet
        split
        · exact .quiet (hquiet.trans (report_quiet _ _))
        · exact .quiet hquiet
    · split at h
      · rename_i s' _ heq
        cases h
        rw [heq] at heffect
        exact heffect
      · rename_i s' error' heq
        rw [heq] at hok
        cases hok
  | remove endpoint =>
    cases h
    exact remove_effect endpoint
  | ticketDone e g ticket access opens =>
    obtain ⟨_, ⟨⟩⟩ := Option.ite_none_right_eq_some.mp h
    have hticket : Quiet s { s with tickets := s.tickets.erase (e, g) } :=
      quiet_of_eq rfl rfl rfl rfl
    exact ticket_effect hticket ticket
  | timerFired timer =>
    obtain ⟨_, ⟨⟩⟩ := Option.ite_none_right_eq_some.mp h
    have htimer : Quiet s { s with timers := s.timers.erase timer } := quiet_of_eq rfl rfl rfl rfl
    exact .quiet (htimer.trans (begin_quiet _))
  | socketOpened i =>
    obtain ⟨k, hk, hv⟩ := Option.bind_eq_some_iff.mp h
    obtain ⟨hphase, ⟨⟩⟩ := Option.ite_none_right_eq_some.mp hv
    exact .quiet ((setPhase_quiet hk (by simp [hphase])).trans
      (Page.handle_rel Quiet.refl (opened_quiet k)))
  | socketMessage i data access =>
    obtain ⟨k, hk, hphase, rfl⟩ := Page.of_socket h
    rw [Page.handle]
    split
    · rename_i hat
      exact message_effect hk hphase hat data
    · exact .quiet Quiet.refl
  | socketError i =>
    obtain ⟨k, hk, _, rfl⟩ := Page.of_socket h
    exact .quiet (Page.handle_rel Quiet.refl (report_quiet _ _))
  | socketClosed i wasClean code reason =>
    obtain ⟨k, hk, hphase, rfl⟩ := Page.of_socket h
    exact .quiet ((setPhase_quiet hk hphase).trans (Page.handle_rel Quiet.refl (closed_quiet k _ _ _)))
  | otherPage key value =>
    cases h
    exact .write key value

end Steps

end SkidMonitor.Browser
