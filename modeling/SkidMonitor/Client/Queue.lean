import SkidMonitor.Client.Scopes

/-! The queue of a page: it only grows, and every signal in it was received by a socket and stands
behind the scope it belongs to. -/
namespace SkidMonitor.Browser

open List

variable {s t u v w : Page} {e : Endpoint} {access : Except Str Unit}
  {initial : BrowserStorageScope} {storage : Str → Option Str}
  {labels : List PageEvent} {l : PageEvent}

/-- A step of a page leaves the messages before it as they are. -/
theorem grows_step (h : s.step l = some v) : s.messages <+: v.messages := by
  cases ho : l.owner s with
  | some owner => exact (callback_step ho h).1.grows
  | none =>
    rcases plain_step ho h with hplain | ⟨_, _, _, _, hadds⟩
    · exact hplain.grows
    · exact hadds.grows

theorem notable_run (hr : Runs.run Page.step s labels = some t) : s.notable <+: t.notable := by
  have hgrows : s.messages <+: t.messages := Runs.run_rel (I := fun _ => True)
    (R := fun s v => s.messages <+: v.messages) (fun _ => prefix_rfl) (fun _ _ _ => .trans)
    (fun _ _ _ _ _ => trivial) (fun _ _ _ _ h => grows_step h) trivial hr
  exact hgrows.filter _

theorem Prepared.notable {c c' : CloudConnection} {tenantId : TenantId}
    (h : Prepared e c tenantId access s w c') :
    w.notable = s.notable ∨ ∃ scope, w.notable = s.notable ++ [.browserStorageScope scope] := by
  cases h with
  | same => exact .inl rfl
  | turned hu =>
    rw [Page.publishStorageScope, notable_push _ rfl]
    exact .inr ⟨_, congrArg (· ++ _) hu.notable⟩

/-- A signal is received by a socket of its endpoint while a scope is the latest: the legacy one for
a raw socket, the one of the tenant the record names for a cloud stream. -/
def Received (s : Page) (l : PageEvent) (e : Endpoint) (signal : Signal)
    (scope : BrowserStorageScope) : Prop :=
  ∃ i record access k, l = .socketMessage i (.ok record) access ∧ s.sockets[i]? = some k ∧
    k.endpoint = e ∧ record.signal = signal ∧
    match k.stream with
    | none => scope = .legacy
    | some _ => ∃ tenantId, record.tenantId = some tenantId ∧ scope = .cloud e tenantId

/-- A step adds nothing of note, a scope, or a signal it has received. -/
theorem notable_step (hs : Coherent initial s) (h : s.step l = some v) :
    v.notable = s.notable ∨ (∃ scope, v.notable = s.notable ++ [.browserStorageScope scope]) ∨
      ∃ e signal, v.notable = s.notable ++ [.signal e signal] ∧
        Received s l e signal (latestScope initial s.notable) := by
  cases effect_step h with
  | quiet hv => exact .inl hv.notable
  | write => exact .inl rfl
  | removeRaw _ hv => exact .inl hv.notable
  | @removeCloud endpoint c _ _ hv =>
    refine .inr (.inl ⟨.cloudPending, ?_⟩)
    have hclosed : (Page.closeSocket { s with connections := s.connections.erase endpoint.key }
        c).notable = s.notable := by
      rw [Page.closeSocket]
      split <;> rfl
    rw [hv.notable, Page.publishStorageScope, notable_push _ rfl, hclosed]
  | @addRaw e _ u hu =>
    refine .inr (.inl ⟨.legacy, ?_⟩)
    have hadded : (u.addRaw e (.ok ())).1.notable = u.notable ++ [.browserStorageScope .legacy] :=
      notable_push (s := { u.newSocket e none with
        connections := u.connections.insert e (.raw u.sockets.length) }) _ rfl
    rw [hadded, hu.notable]
  | @addCloud e _ u _ hu _ _ hv =>
    refine .inr (.inl ⟨.cloudPending, ?_⟩)
    rw [hv.notable, Page.publishStorageScope, notable_push _ rfl]
    exact congrArg (· ++ _) hu.notable
  | prepare hu _ hw hv =>
    rw [hv.notable, ← hu.notable]
    exact hw.notable.imp_right .inl
  | @connect e _ c' tenantId _ _ w hu _ hw =>
    have hsame : (w.connect e c' tenantId).notable = w.notable := by
      rw [Page.connect]
      change (Page.closeSocket _ c').notable = _
      rw [Page.closeSocket]
      split <;> rfl
    rw [hsame, ← hu.notable]
    exact hw.notable.imp_right .inl
  | @queueRaw i k record access hk hopen hat hraw =>
    refine .inr (.inr ⟨k.endpoint, record.signal, notable_push _ rfl, ?_⟩)
    refine ⟨i, record, access, k, rfl, hk, rfl, rfl, ?_⟩
    rw [hraw]
    exact hs.rawScope _ _ (hs.rawSocket i k hk hat hopen hraw)
  | @queueCloud i k stream c record cursor access _ hk hat hstream _ htenant hc _ ht _ hv =>
    have hnotable : v.notable = s.notable ++ [.signal k.endpoint record.signal] := by
      rcases hv with ⟨_, rfl⟩ | ⟨_, hv⟩
      · exact notable_push _ rfl
      · exact hv.notable.trans (notable_push _ rfl)
    refine .inr (.inr ⟨k.endpoint, record.signal, hnotable, ?_⟩)
    refine ⟨i, record, access, k, rfl, hk, rfl, rfl, ?_⟩
    rw [hstream]
    have hscope := hs.cloudScope _ c hc
    rw [CloudConnection.scope, ht] at hscope
    exact ⟨stream.tenantId, htenant, hscope⟩

/-- Every signal in the queue was received behind the latest scope before it. -/
theorem signal_received (initial : BrowserStorageScope)
    (hr : Runs.run Page.step (Page.start storage) labels = some t) {before after : List IngressMessage}
    {signal : Signal} (hqueue : t.messages = before ++ .signal e signal :: after) :
    ∃ pre l post u, labels = pre ++ l :: post ∧ Runs.run Page.step (Page.start storage) pre = some u ∧
      Received u l e signal (latestScope initial before) := by
  -- the step that makes the notable messages longer than those of `before` queues the signal
  let earlier := before.filter IngressMessage.isNotable
  have hnotable : t.notable =
      earlier ++ .signal e signal :: after.filter IngressMessage.isNotable := by
    rw [Page.notable, hqueue, filter_append, filter_cons_of_pos rfl]
  obtain ⟨pre, l, post, u, v, hlabels, hu, hstep, hpost, hshort, hlong⟩ :=
    Runs.run_change (P := fun s => s.notable.length ≤ earlier.length) hr (Nat.zero_le _)
      (by rw [hnotable]; simp)
  have hprefix : v.notable <+: t.notable := notable_run hpost
  have hkeeps : ∀ message, v.notable = u.notable ++ [message] →
      u.notable = earlier ∧ message = .signal e signal := by
    intro message hv
    rw [hv, hnotable] at hprefix
    rw [hv, length_append, length_singleton] at hlong
    have hlength : u.notable.length = earlier.length := by omega
    obtain ⟨rest, hrest⟩ := hprefix
    rw [append_assoc] at hrest
    obtain ⟨hearlier, htail⟩ := append_inj hrest hlength
    exact ⟨hearlier, (List.cons.inj htail).1⟩
  have hcoherent : Coherent initial u := coherent_run hu
  refine ⟨pre, l, post, u, hlabels, hu, ?_⟩
  obtain hsame | ⟨scope, hv⟩ | ⟨e', signal', hv, hreceived⟩ := notable_step hcoherent hstep
  · rw [hsame] at hlong
    exact absurd hshort hlong
  · cases (hkeeps _ hv).2
  · obtain ⟨hearlier, heq⟩ := hkeeps _ hv
    cases heq
    rwa [hearlier, latestScope_notable] at hreceived

end SkidMonitor.Browser
