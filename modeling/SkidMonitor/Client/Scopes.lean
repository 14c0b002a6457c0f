import SkidMonitor.Client.Events

/-! The scopes a page announces. A cloud connection is the only connection of its page, an attached
handler belongs to a connection, and the latest scope is the one of the connections. -/
namespace SkidMonitor.Browser

open List

variable {s t u v w : Page} {e : Endpoint} {c : CloudConnection} {l : PageEvent}
  {labels : List PageEvent}

/-- The scope the last of the messages that names one leaves, `initial` if none does. -/
def latestScope (initial : BrowserStorageScope) (messages : List IngressMessage) :
    BrowserStorageScope :=
  messages.foldl (fun scope message =>
    match message with
    | .browserStorageScope next => next
    | _ => scope) initial

/-- The scope of a cloud connection. -/
def CloudConnection.scope (c : CloudConnection) (e : Endpoint) : BrowserStorageScope :=
  match c.tenantId with
  | none => .cloudPending
  | some tenantId => .cloud e tenantId

structure Coherent (initial : BrowserStorageScope) (s : Page) : Prop where
  sole : ∀ e c, s.cloud? e = some c → ∀ e' ≠ e, s.connections.lookup e' = none
  cloudScope : ∀ e c, s.cloud? e = some c → latestScope initial s.notable = c.scope e
  rawScope : ∀ e i, s.connections.lookup e = some (.raw i) → latestScope initial s.notable = .legacy
  socket : ∀ e c i, s.cloud? e = some c → c.socket = some i → i < s.sockets.length
  rawSocket : ∀ (i : ℕ) k, s.sockets[i]? = some k → k.attached → k.phase ≠ .closed →
    k.stream = none → s.connections.lookup k.endpoint = some (.raw i)
  cloudSocket : ∀ (i : ℕ) k stream, s.sockets[i]? = some k → k.attached → k.stream = some stream →
    ∃ c, s.cloud? k.endpoint = some c ∧ c.generation = stream.generation ∧ c.socket = some i

variable {initial : BrowserStorageScope}

theorem latestScope_notable (messages : List IngressMessage) :
    latestScope initial (messages.filter IngressMessage.isNotable) = latestScope initial messages := by
  induction messages generalizing initial with
  | nil => rfl
  | cons message messages ih => cases message <;> exact ih

theorem notable_push (message : IngressMessage) (h : message.isNotable) :
    (s.pushMessage message).notable = s.notable ++ [message] := by
  simp [Page.notable, h]

theorem scope_publish (scope : BrowserStorageScope) :
    latestScope initial (s.publishStorageScope scope).notable = scope := by
  rw [Page.publishStorageScope, notable_push _ rfl, latestScope, foldl_append]
  rfl

theorem scope_signal (signal : Signal) :
    latestScope initial (s.pushMessage (.signal e signal)).notable =
      latestScope initial s.notable := by
  rw [notable_push _ rfl, latestScope, foldl_append]
  rfl

theorem Page.cloud?_of_lookup (h : s.connections.lookup e = some (.cloud c)) :
    s.cloud? e = some c := by
  rw [cloud?, h]

theorem Page.lookup_of_cloud? (h : s.cloud? e = some c) :
    s.connections.lookup e = some (.cloud c) := by
  rw [cloud?_iff, ← AList.mem_lookup_iff] at h
  exact h

/-- A socket before a quiet change. -/
theorem Quiet.socket {i : ℕ} {k' : Socket} (h : Quiet s v) (hk : v.sockets[i]? = some k') :
    ∃ k, s.sockets[i]? = some k ∧ k.handlers = k'.handlers ∧
      (k'.phase ≠ .closed → k.phase ≠ .closed) := by
  have hi := congrArg (·[i]?) h.handlers
  simp only [getElem?_map, hk, Option.map_some] at hi
  obtain ⟨k, hk', hhandlers⟩ := Option.map_eq_some_iff.mp hi.symm
  exact ⟨k, hk', hhandlers, fun hopen hclosed => hopen (h.closed i k k' hk' hk hclosed)⟩

theorem Quiet.cloud_some (h : Quiet s v) (hc : v.cloud? e = some c) :
    ∃ c', s.cloud? e = some c' ∧ c'.position = c.position := by
  have he := h.cloud e
  rw [hc] at he
  exact Option.map_eq_some_iff.mp he.symm

theorem Quiet.lookup_none (h : Quiet s v) (hnone : s.connections.lookup e = none) :
    v.connections.lookup e = none := by
  cases hv : v.connections.lookup e with
  | none => rfl
  | some connection =>
    cases connection with
    | raw i =>
      rw [h.raw e i hv] at hnone
      cases hnone
    | cloud c =>
      obtain ⟨c', hc', _⟩ := h.cloud_some (Page.cloud?_of_lookup hv)
      rw [Page.lookup_of_cloud? hc'] at hnone
      cases hnone

theorem Quiet.coherent (h : Quiet s v) (hs : Coherent initial s) : Coherent initial v where
  sole e c hc e' he := by
    obtain ⟨c', hc', _⟩ := h.cloud_some hc
    exact h.lookup_none (hs.sole e c' hc' e' he)
  cloudScope e c hc := by
    obtain ⟨c', hc', hposition⟩ := h.cloud_some hc
    have htenant : c'.tenantId = c.tenantId := congrArg (·.2.1) hposition
    rw [h.notable, hs.cloudScope e c' hc', CloudConnection.scope, htenant, CloudConnection.scope]
  rawScope e i hi := by
    rw [h.notable]
    exact hs.rawScope e i (h.raw e i hi)
  socket e c i hc hi := by
    obtain ⟨c', hc', hposition⟩ := h.cloud_some hc
    have hsocket : c'.socket = c.socket := congrArg (·.2.2.2) hposition
    have hlength : v.sockets.length = s.sockets.length := by
      simpa using congrArg List.length h.handlers
    rw [hlength]
    exact hs.socket e c' i hc' (hsocket.trans hi)
  rawSocket i k' hk' hat hopen hraw := by
    obtain ⟨k, hk, hhandlers, hopen'⟩ := h.socket hk'
    have hendpoint : k.endpoint = k'.endpoint := congrArg (·.1) hhandlers
    have hstream : k.stream = k'.stream := congrArg (·.2.1) hhandlers
    have hattached : k.attached = k'.attached := congrArg (·.2.2) hhandlers
    have hlookup := hs.rawSocket i k hk (hattached ▸ hat) (hopen' hopen) (hstream ▸ hraw)
    rw [hendpoint] at hlookup
    exact h.rawOpen _ i k' hlookup hk' hopen
  cloudSocket i k' stream hk' hat hstream' := by
    obtain ⟨k, hk, hhandlers, _⟩ := h.socket hk'
    have hendpoint : k.endpoint = k'.endpoint := congrArg (·.1) hhandlers
    have hstream : k.stream = k'.stream := congrArg (·.2.1) hhandlers
    have hattached : k.attached = k'.attached := congrArg (·.2.2) hhandlers
    obtain ⟨c, hc, hg, hsocket⟩ :=
      hs.cloudSocket i k stream hk (hattached ▸ hat) (hstream.trans hstream')
    have hv := h.cloud k'.endpoint
    rw [← hendpoint, hc] at hv
    obtain ⟨c', hc', hposition⟩ := Option.map_eq_some_iff.mp hv
    have hg' : c'.generation = c.generation := congrArg (·.1) hposition
    have hsocket' : c'.socket = c.socket := congrArg (·.2.2.2) hposition
    exact ⟨c', hendpoint ▸ hc', hg'.trans hg, hsocket'.trans hsocket⟩

section Effects

/-- An attached handler after a detachment belongs to another socket. -/
theorem detach_attached {i j : ℕ} {k : Socket} (hk : (s.detachAndClose i).sockets[j]? = some k)
    (hat : k.attached) : j ≠ i ∧ s.sockets[j]? = some k := by
  rw [Page.detachAndClose_sockets, getElem?_modify] at hk
  obtain ⟨k₀, hk₀, heq⟩ := Option.map_eq_some_iff.mp hk
  by_cases hij : i = j
  · rw [if_pos hij] at heq
    subst heq
    cases hat
  · rw [if_neg hij] at heq
    subst heq
    exact ⟨fun hji => hij hji.symm, hk₀⟩

theorem closeSocket_attached {j : ℕ} {k : Socket} (hk : (s.closeSocket c).sockets[j]? = some k)
    (hat : k.attached) : c.socket ≠ some j ∧ s.sockets[j]? = some k := by
  rw [Page.closeSocket] at hk
  split at hk
  · rename_i i hi
    obtain ⟨hne, hk'⟩ := detach_attached hk hat
    exact ⟨fun hj => hne (Option.some.inj (hj.symm.trans hi)), hk'⟩
  · rename_i hnone
    refine ⟨fun hj => ?_, hk⟩
    rw [hnone] at hj
    cases hj

theorem Coherent.no_raw (hs : Coherent initial s) (hc : s.cloud? e = some c) (i : ℕ) (k : Socket)
    (hk : s.sockets[i]? = some k) (hat : k.attached) (hopen : k.phase ≠ .closed) :
    k.stream ≠ none := by
  intro hraw
  have hlookup := hs.rawSocket i k hk hat hopen hraw
  by_cases he : k.endpoint = e
  · rw [he, Page.lookup_of_cloud? hc] at hlookup
    cases hlookup
  · rw [hs.sole e c hc _ he] at hlookup
    cases hlookup

theorem Coherent.only_socket (hs : Coherent initial s) (hc : s.cloud? e = some c) (i : ℕ)
    (k : Socket) (stream : CloudStream) (hk : s.sockets[i]? = some k) (hat : k.attached)
    (hstream : k.stream = some stream) :
    k.endpoint = e ∧ stream.generation = c.generation ∧ c.socket = some i := by
  obtain ⟨c', hc', hg, hsocket⟩ := hs.cloudSocket i k stream hk hat hstream
  have he : k.endpoint = e := by
    by_contra hne
    have hnone := hs.sole e c hc _ hne
    rw [Page.lookup_of_cloud? hc'] at hnone
    cases hnone
  rw [he, hc] at hc'
  cases hc'
  exact ⟨he, hg.symm, hsocket⟩

/-- A page whose only connection is a cloud connection. -/
theorem coherent_of_cloud (hc : v.cloud? e = some c)
    (hothers : ∀ e' ≠ e, v.connections.lookup e' = none)
    (hscope : latestScope initial v.notable = c.scope e)
    (hsocket : ∀ i, c.socket = some i → i < v.sockets.length)
    (hraw : ∀ (i : ℕ) k, v.sockets[i]? = some k → k.attached → k.phase ≠ .closed → k.stream ≠ none)
    (hcloud : ∀ (i : ℕ) k stream, v.sockets[i]? = some k → k.attached → k.stream = some stream →
      k.endpoint = e ∧ stream.generation = c.generation ∧ c.socket = some i) :
    Coherent initial v := by
  have honly {e' : Endpoint} {connection : BrowserConnection}
      (h : v.connections.lookup e' = some connection) : e' = e ∧ connection = .cloud c := by
    by_cases he : e' = e
    · subst he
      rw [Page.lookup_of_cloud? hc] at h
      exact ⟨rfl, (Option.some.inj h).symm⟩
    · rw [hothers e' he] at h
      cases h
  refine ⟨fun e' c' hc' => ?_, fun e' c' hc' => ?_, fun e' i hi => ?_, fun e' c' i hc' => ?_,
    fun i k hk hat hopen hstream => absurd hstream (hraw i k hk hat hopen),
    fun i k stream hk hat hstream => ?_⟩
  · obtain ⟨rfl, _⟩ := honly (Page.lookup_of_cloud? hc')
    exact hothers
  · obtain ⟨rfl, hcc⟩ := honly (Page.lookup_of_cloud? hc')
    cases hcc
    exact hscope
  · obtain ⟨_, hcc⟩ := honly hi
    cases hcc
  · obtain ⟨rfl, hcc⟩ := honly (Page.lookup_of_cloud? hc')
    cases hcc
    exact hsocket i
  · obtain ⟨rfl, hg, hi⟩ := hcloud i k stream hk hat hstream
    exact ⟨c, hc, hg.symm, hi⟩

/-- A page without connections. -/
theorem coherent_of_none (hnone : ∀ e, v.connections.lookup e = none)
    (hraw : ∀ (i : ℕ) k, v.sockets[i]? = some k → k.attached → k.phase ≠ .closed → k.stream ≠ none)
    (hcloud : ∀ (i : ℕ) k, v.sockets[i]? = some k → k.attached → k.stream = none) :
    Coherent initial v := by
  have hfree {e : Endpoint} {connection : BrowserConnection}
      (h : v.connections.lookup e = some connection) : False := by
    rw [hnone e] at h
    cases h
  refine ⟨fun e c hc => (hfree (Page.lookup_of_cloud? hc)).elim,
    fun e c hc => (hfree (Page.lookup_of_cloud? hc)).elim, fun e i hi => (hfree hi).elim,
    fun e c i hc => (hfree (Page.lookup_of_cloud? hc)).elim,
    fun i k hk hat hopen hstream => absurd hstream (hraw i k hk hat hopen),
    fun i k stream hk hat hstream => ?_⟩
  rw [hcloud i k hk hat] at hstream
  cases hstream

theorem setCloud_others (hs : Coherent initial s) (hc : s.cloud? e = some c)
    (c' : CloudConnection) : ∀ e' ≠ e, (s.setCloud e c').connections.lookup e' = none := by
  intro e' he
  rw [Page.setCloud_connections, AList.lookup_insert_ne he]
  exact hs.sole e c hc e' he

theorem Prepared.coherent {c' : CloudConnection} {tenantId : TenantId}
    {access : Except Str Unit} (h : Prepared e c tenantId access s w c')
    (hs : Coherent initial s) (hc : s.cloud? e = some c) :
    Coherent initial w ∧ w.cloud? e = some c' ∧ c'.tenantId = some tenantId := by
  cases h with
  | same htenant => exact ⟨hs, hc, htenant⟩
  | @turned u hu hcu _ =>
    have hu' := hu.coherent hs
    refine ⟨coherent_of_cloud Page.cloud?_setCloud (setCloud_others hu' hcu _) (scope_publish _)
      (fun i => hu'.socket e c i hcu) (hu'.no_raw hcu)
      (fun i k stream => hu'.only_socket hcu i k stream),
      Page.cloud?_setCloud, rfl⟩

/-- The handlers attached once a connection has a new socket are those of that socket. -/
theorem connect_attached {tenantId : TenantId} {i : ℕ} {k : Socket} (hs : Coherent initial s)
    (hc : s.cloud? e = some c) (hk : (s.connect e c tenantId).sockets[i]? = some k)
    (hat : k.attached) (hopen : k.phase ≠ .closed ∨ k.stream ≠ none) :
    i = s.sockets.length ∧ k = ⟨e, some ⟨c.generation, tenantId, c.persistedCursor⟩, true,
      .connecting⟩ := by
  obtain ⟨hne, hk'⟩ := closeSocket_attached hk hat
  rw [Page.newSocket_sockets, getElem?_append] at hk'
  split at hk'
  · have hstream : k.stream ≠ none := hopen.elim (hs.no_raw hc i k hk' hat) id
    obtain ⟨stream, hstream⟩ := Option.ne_none_iff_exists'.mp hstream
    exact absurd (hs.only_socket hc i k stream hk' hat hstream).2.2 hne
  · rename_i hi
    rw [getElem?_singleton] at hk'
    split at hk'
    · cases hk'
      exact ⟨by omega, rfl⟩
    · cases hk'

theorem connect_length {tenantId : TenantId} :
    (s.connect e c tenantId).sockets.length = s.sockets.length + 1 := by
  rw [Page.connect, Page.setCloud_sockets, Page.closeSocket]
  split <;> simp

theorem connect_coherent {tenantId : TenantId} (hs : Coherent initial s) (hc : s.cloud? e = some c)
    (ht : c.tenantId = some tenantId) : Coherent initial (s.connect e c tenantId) := by
  have hsame : ((s.newSocket e (some ⟨c.generation, tenantId, c.persistedCursor⟩)).closeSocket
      c).connections = s.connections ∧ ((s.newSocket e (some ⟨c.generation, tenantId,
        c.persistedCursor⟩)).closeSocket c).notable = s.notable := by
    rw [Page.closeSocket]
    split <;> exact ⟨rfl, rfl⟩
  refine coherent_of_cloud Page.cloud?_setCloud ?_ ?_ ?_ ?_ ?_
  · intro e' he
    rw [Page.connect, Page.setCloud_connections, AList.lookup_insert_ne he, hsame.1]
    exact hs.sole e c hc e' he
  · have hscope := hs.cloudScope e c hc
    rw [CloudConnection.scope, ht] at hscope
    change latestScope initial (Page.closeSocket _ c).notable = _
    rw [hsame.2, hscope, CloudConnection.scope, ht]
  · intro i hi
    cases hi
    rw [connect_length]
    exact Nat.lt_succ_self _
  · intro i k hk hat hopen
    rw [(connect_attached hs hc hk hat (.inl hopen)).2]
    simp
  · intro i k stream hk hat hstream
    obtain ⟨rfl, rfl⟩ := connect_attached hs hc hk hat (.inr (by simp [hstream]))
    cases hstream
    exact ⟨rfl, rfl, rfl⟩

theorem accept_coherent {tenantId : TenantId} {signal : Signal} {cursor : UInt64}
    (hs : Coherent initial s) (hc : s.cloud? e = some c) :
    Coherent initial (s.accept e c tenantId signal cursor) := by
  refine coherent_of_cloud Page.cloud?_setCloud ?_ ?_ (fun i => hs.socket e c i hc) (hs.no_raw hc)
    (fun i k stream => hs.only_socket hc i k stream)
  · intro e' he
    change AList.lookup e' (AList.insert e _ s.connections) = none
    rw [AList.lookup_insert_ne he]
    exact hs.sole e c hc e' he
  · exact (scope_signal signal).trans (hs.cloudScope e c hc)

theorem signal_coherent {signal : Signal} (hs : Coherent initial s) :
    Coherent initial (s.pushMessage (.signal e signal)) where
  sole := hs.sole
  cloudScope e' c hc := (scope_signal signal).trans (hs.cloudScope e' c hc)
  rawScope e' i hi := (scope_signal signal).trans (hs.rawScope e' i hi)
  socket := hs.socket
  rawSocket := hs.rawSocket
  cloudSocket := hs.cloudSocket

theorem no_cloud (h : s.hasCloud = false) : s.cloud? e = none := Page.cloud?_of_hasCloud h

theorem no_connection (hcloud : s.hasCloud = false) (hraw : s.hasRaw = false) :
    s.connections.lookup e = none := by
  cases hlookup : s.connections.lookup e with
  | none => rfl
  | some connection =>
    cases connection with
    | cloud c =>
      have hc := Page.cloud?_of_lookup hlookup
      rw [Page.cloud?_of_hasCloud hcloud] at hc
      cases hc
    | raw i =>
      rw [Page.hasRaw, any_eq_false] at hraw
      exact absurd rfl (hraw _ (AList.mem_lookup_iff.mp hlookup))

/-- Without connections nothing that is attached runs any more. -/
theorem Coherent.idle (hs : Coherent initial s) (hnone : ∀ e, s.connections.lookup e = none)
    (i : ℕ) (k : Socket) (hk : s.sockets[i]? = some k) (hat : k.attached) :
    k.phase = .closed ∧ k.stream = none := by
  have hstream : k.stream = none := by
    cases hstream : k.stream with
    | none => rfl
    | some stream =>
      obtain ⟨c, hc, _⟩ := hs.cloudSocket i k stream hk hat hstream
      have hlookup := Page.lookup_of_cloud? hc
      rw [hnone] at hlookup
      cases hlookup
  refine ⟨?_, hstream⟩
  by_contra hopen
  have hlookup := hs.rawSocket i k hk hat hopen hstream
  rw [hnone] at hlookup
  cases hlookup

theorem addCloud_coherent (hs : Coherent initial s) (hcloud : s.hasCloud = false)
    (hraw : s.hasRaw = false) (g : UInt64) :
    Coherent initial ((s.setCloud e ⟨g, none, none, 0, 0, false⟩).publishStorageScope
      .cloudPending) := by
  have hidle := hs.idle fun _ => no_connection hcloud hraw
  refine coherent_of_cloud Page.cloud?_setCloud ?_ (scope_publish _) nofun ?_ ?_
  · intro e' he
    change AList.lookup e' (AList.insert e _ s.connections) = none
    rw [AList.lookup_insert_ne he]
    exact no_connection hcloud hraw
  · intro i k hk hat hopen
    exact absurd (hidle i k hk hat).1 hopen
  · intro i k stream hk hat hstream
    rw [(hidle i k hk hat).2] at hstream
    cases hstream

theorem addRaw_coherent (hs : Coherent initial s) (hcloud : s.hasCloud = false)
    (hnone : s.connections.lookup e = none) : Coherent initial (s.addRaw e (.ok ())).1 := by
  have hnew : (s.addRaw e (.ok ())).1.connections = s.connections.insert e (.raw s.sockets.length) :=
    rfl
  have hno (e' : Endpoint) : (s.addRaw e (.ok ())).1.cloud? e' = none := by
    by_cases he : e' = e
    · subst he
      rw [Page.cloud?, hnew, AList.lookup_insert]
    · rw [Page.cloud?, hnew, AList.lookup_insert_ne he]
      exact no_cloud hcloud
  have hcontra {e' : Endpoint} {c : CloudConnection}
      (hc : (s.addRaw e (.ok ())).1.cloud? e' = some c) : False := by
    rw [hno e'] at hc
    cases hc
  refine ⟨fun e' c hc => (hcontra hc).elim, fun e' c hc => (hcontra hc).elim,
    fun e' i hi => scope_publish _, fun e' c i hc => (hcontra hc).elim,
    fun i k hk hat hopen hraw => ?_, fun i k stream hk hat hstream => ?_⟩
  · have hk' : (s.sockets ++ [(⟨e, none, true, .connecting⟩ : Socket)])[i]? = some k := hk
    rw [getElem?_append] at hk'
    split at hk'
    · have hlookup := hs.rawSocket i k hk' hat hopen hraw
      have he : k.endpoint ≠ e := by
        intro he
        rw [he, hnone] at hlookup
        cases hlookup
      rw [hnew, AList.lookup_insert_ne he]
      exact hlookup
    · rename_i hi
      rw [getElem?_singleton] at hk'
      split at hk'
      · cases hk'
        have hlast : i = s.sockets.length := by omega
        rw [hnew, AList.lookup_insert, hlast]
      · cases hk'
  · have hk' : (s.sockets ++ [(⟨e, none, true, .connecting⟩ : Socket)])[i]? = some k := hk
    rw [getElem?_append] at hk'
    split at hk'
    · obtain ⟨c, hc, _⟩ := hs.cloudSocket i k stream hk' hat hstream
      rw [no_cloud hcloud] at hc
      cases hc
    · rw [getElem?_singleton] at hk'
      split at hk'
      · cases hk'
        cases hstream
      · cases hk'

theorem removeCloud_coherent (hs : Coherent initial s) (hc : s.cloud? e = some c) :
    Coherent initial ((Page.closeSocket { s with connections := s.connections.erase e }
      c).publishStorageScope .cloudPending) := by
  have hconnections : (Page.closeSocket { s with connections := s.connections.erase e }
      c).connections = s.connections.erase e := by
    rw [Page.closeSocket]
    split <;> rfl
  refine coherent_of_none ?_ ?_ ?_
  · intro e'
    change (Page.closeSocket { s with connections := s.connections.erase e } c).connections.lookup
      e' = none
    rw [hconnections]
    by_cases he : e' = e
    · rw [he, AList.lookup_erase]
    · rw [AList.lookup_erase_ne he]
      exact hs.sole e c hc e' he
  · intro i k hk hat hopen
    obtain ⟨_, hk'⟩ := closeSocket_attached hk hat
    exact hs.no_raw hc i k hk' hat hopen
  · intro i k hk hat
    obtain ⟨hne, hk'⟩ := closeSocket_attached hk hat
    cases hstream : k.stream with
    | none => rfl
    | some stream => exact absurd (hs.only_socket hc i k stream hk' hat hstream).2.2 hne

theorem removeRaw_coherent {i : ℕ} (hs : Coherent initial s)
    (hi : s.connections.lookup e = some (.raw i)) :
    Coherent initial (Page.detachAndClose { s with connections := s.connections.erase e } i) := by
  have hcontra {e' : Endpoint} {c : CloudConnection}
      (hc : (Page.detachAndClose { s with connections := s.connections.erase e } i).cloud? e' =
        some c) : False := by
    have he : e' ≠ e := by
      rintro rfl
      rw [Page.cloud?, Page.detachAndClose_connections, AList.lookup_erase] at hc
      cases hc
    rw [Page.cloud?, Page.detachAndClose_connections, AList.lookup_erase_ne he] at hc
    have hnone := hs.sole e' c hc e he.symm
    rw [hi] at hnone
    cases hnone
  refine ⟨fun e' c hc => (hcontra hc).elim, fun e' c hc => (hcontra hc).elim,
    fun e' j hj => hs.rawScope e i hi, fun e' c j hc => (hcontra hc).elim,
    fun j k hk hat hopen hraw => ?_, fun j k stream hk hat hstream => ?_⟩
  · obtain ⟨hne, hk'⟩ := detach_attached hk hat
    have hlookup := hs.rawSocket j k hk' hat hopen hraw
    have he : k.endpoint ≠ e := by
      intro he
      rw [he, hi] at hlookup
      cases hlookup
      exact hne rfl
    rw [Page.detachAndClose_connections, AList.lookup_erase_ne he]
    exact hlookup
  · obtain ⟨_, hk'⟩ := detach_attached hk hat
    obtain ⟨c, hc, _⟩ := hs.cloudSocket j k stream hk' hat hstream
    have he : e = k.endpoint := by
      by_contra hne
      have hnone := hs.sole _ c hc e hne
      rw [hi] at hnone
      cases hnone
    rw [← he, Page.cloud?, hi] at hc
    cases hc

theorem coherent_step (hs : Coherent initial s) (h : s.step l = some v) : Coherent initial v := by
  cases effect_step h with
  | quiet hv => exact hv.coherent hs
  | write key value =>
    exact ⟨hs.sole, hs.cloudScope, hs.rawScope, hs.socket, hs.rawSocket, hs.cloudSocket⟩
  | removeRaw hi hv => exact hv.coherent (removeRaw_coherent hs hi)
  | removeCloud hc hv => exact hv.coherent (removeCloud_coherent hs hc)
  | addRaw hu hcloud hnone => exact addRaw_coherent (hu.coherent hs) hcloud hnone
  | addCloud hu hcloud hraw hv =>
    exact hv.coherent (addCloud_coherent (hu.coherent hs) hcloud hraw _)
  | prepare hu hc hw hv => exact hv.coherent (hw.coherent (hu.coherent hs) hc).1
  | connect hu hc hw =>
    obtain ⟨hw', hc', ht⟩ := hw.coherent (hu.coherent hs) hc
    exact connect_coherent hw' hc' ht
  | queueRaw => exact signal_coherent hs
  | queueCloud _ _ _ _ _ hc _ _ _ hv =>
    rcases hv with ⟨_, rfl⟩ | ⟨_, hv⟩
    · exact accept_coherent hs hc
    · exact hv.coherent (signal_coherent hs)

end Effects

theorem coherent_start (storage : Str → Option Str) :
    Coherent initial (Page.start storage) :=
  coherent_of_none (fun _ => rfl) nofun nofun

theorem coherent_run {storage : Str → Option Str}
    (hr : Runs.run Page.step (Page.start storage) labels = some t) : Coherent initial t :=
  Runs.run_invariant (I := Coherent initial) (fun _ _ _ hs h => coherent_step hs h) hr
    (coherent_start storage)

section Sockets

def Socket.identity (k : Socket) : Endpoint × Option CloudStream := (k.endpoint, k.stream)

theorem Quiet.identities (h : Quiet s v) :
    v.sockets.map Socket.identity = s.sockets.map Socket.identity := by
  have hmap := congrArg (List.map fun handlers => (handlers.1, handlers.2.1)) h.handlers
  rw [map_map, map_map] at hmap
  exact hmap

theorem detach_identities (i : ℕ) :
    (s.detachAndClose i).sockets.map Socket.identity = s.sockets.map Socket.identity :=
  Table.map_modify_eq fun _ => rfl

theorem closeSocket_identities :
    (s.closeSocket c).sockets.map Socket.identity = s.sockets.map Socket.identity := by
  rw [Page.closeSocket]
  split
  · exact detach_identities _
  · rfl

theorem Prepared.identities {c' : CloudConnection} {tenantId : TenantId}
    {access : Except Str Unit} (h : Prepared e c tenantId access s w c') :
    w.sockets.map Socket.identity = s.sockets.map Socket.identity := by
  cases h with
  | same => rfl
  | turned hu => exact hu.identities

theorem newSocket_identities (stream : Option CloudStream) :
    s.sockets.map Socket.identity <+: (s.newSocket e stream).sockets.map Socket.identity := by
  rw [Page.newSocket_sockets, map_append]
  exact prefix_append _ _

/-- Sockets are never renamed: their endpoint and stream stay. -/
theorem identities_step (h : s.step l = some v) :
    s.sockets.map Socket.identity <+: v.sockets.map Socket.identity := by
  cases effect_step h with
  | quiet hv => exact hv.identities ▸ prefix_refl _
  | write => exact prefix_refl _
  | removeRaw _ hv =>
    rw [hv.identities, detach_identities]
  | @removeCloud endpoint c _ _ hv =>
    rw [hv.identities]
    change _ <+: (Page.closeSocket _ c).sockets.map Socket.identity
    rw [closeSocket_identities]
  | addRaw hu => exact hu.identities ▸ newSocket_identities none
  | addCloud hu _ _ hv =>
    rw [hv.identities]
    exact hu.identities ▸ prefix_refl _
  | prepare hu _ hw hv =>
    rw [hv.identities, hw.identities, hu.identities]
  | connect hu _ hw =>
    rw [Page.connect, Page.setCloud_sockets, closeSocket_identities, ← hu.identities,
      ← hw.identities]
    exact newSocket_identities _
  | queueRaw => exact prefix_refl _
  | queueCloud _ _ _ _ _ _ _ _ _ hv =>
    rcases hv with ⟨_, rfl⟩ | ⟨_, hv⟩
    · exact prefix_refl _
    · exact hv.identities ▸ prefix_refl _

theorem identities_run (hr : Runs.run Page.step s labels = some t) :
    s.sockets.map Socket.identity <+: t.sockets.map Socket.identity :=
  Runs.run_rel (I := fun _ => True)
    (R := fun s t => s.sockets.map Socket.identity <+: t.sockets.map Socket.identity)
    (fun _ => prefix_refl _) (fun _ _ _ => List.IsPrefix.trans) (fun _ _ _ _ _ => trivial)
    (fun _ _ _ _ h => identities_step h) trivial hr

end Sockets

end SkidMonitor.Browser
