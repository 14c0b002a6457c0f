import SkidMonitor.Client.Reconnect

/-! Whole histories of the page: a generation is handed out once as long as its counter has not
wrapped around, and an endpoint that is not added again schedules only so many retries between
two openings of its stream. -/
namespace SkidMonitor.Browser

open List

variable {s t u v : Page} {e : Endpoint} {g : UInt64} {c : CloudConnection} {l : PageEvent}
  {labels : List PageEvent} {n : ℕ}

def PageEvent.isCloudAdd : PageEvent → Bool
  | .add (.cloudApi _) _ _ => true
  | _ => false

/-- After `n` additions of cloud endpoints: generations are handed out in order, and at most one
thing is pending for the current generation of an endpoint. -/
structure Orderly (n : ℕ) (s : Page) : Prop where
  next : s.nextGeneration.toNat ≤ n + 1
  unused : ∀ e g, s.nextGeneration ≤ g → s.pending e g = 0
  used : ∀ e c, s.cloud? e = some c → c.generation < s.nextGeneration
  single : ∀ e c, s.cloud? e = some c → s.pending e c.generation ≤ 1

theorem lt_generationAfter (h : g.toNat + 1 < 2 ^ 64) :
    g < Page.generationAfter g ∧ (Page.generationAfter g).toNat = g.toNat + 1 := by
  have hnext : (g + 1).toNat = g.toNat + 1 := by
    rw [UInt64.toNat_add]
    exact Nat.mod_eq_of_lt h
  have hmax : Page.generationAfter g = g + 1 := by
    change (if g + 1 ≤ 1 then 1 else g + 1) = g + 1
    split
    · rename_i hle
      rw [UInt64.le_iff_toNat_le, hnext] at hle
      rw [← UInt64.toNat_inj, hnext]
      exact (Nat.le_antisymm hle (Nat.le_add_left 1 _)).symm
    · rfl
  rw [hmax, UInt64.lt_iff_toNat_lt, hnext]
  exact ⟨Nat.lt_succ_self _, rfl⟩

theorem Callback.cloud {e' : Endpoint} (h : Callback e g n s v) (hc : v.cloud? e' = some c) :
    ∃ c', s.cloud? e' = some c' ∧ c'.generation = c.generation := by
  by_cases he : e' = e
  · subst he
    exact (h.current c.generation).mp ⟨c, hc, rfl⟩
  · refine ⟨c, ?_, rfl⟩
    rw [Page.cloud?, h.lookup e' he] at hc
    exact hc

theorem Callback.orderly (h : Callback e g 0 s v) (hs : Orderly n s) : Orderly n v where
  next := h.nextGeneration ▸ hs.next
  unused e' g' hg := by
    rw [h.nextGeneration] at hg
    have hp := h.pending e' g'
    rw [hs.unused e' g' hg, ite_self] at hp
    exact Nat.le_zero.mp hp
  used e' c hc := by
    obtain ⟨c', hc', hg⟩ := h.cloud hc
    rw [h.nextGeneration, ← hg]
    exact hs.used e' c' hc'
  single e' c hc := by
    obtain ⟨c', hc', hg⟩ := h.cloud hc
    have hp := h.pending e' c.generation
    rw [ite_self, ← hg] at hp
    rw [← hg]
    exact Nat.le_trans hp (hs.single e' c' hc')

theorem Plain.cloud_some (h : Plain s v) (hc : v.cloud? e = some c) : s.cloud? e = some c := by
  rcases h.cloud e with hnone | hsame
  · rw [hnone] at hc
    cases hc
  · exact hsame ▸ hc

theorem Plain.orderly (h : Plain s v) (hs : Orderly n s) : Orderly n v where
  next := h.nextGeneration ▸ hs.next
  unused e g hg := by
    rw [h.nextGeneration] at hg
    rw [h.pending]
    exact hs.unused e g hg
  used e c hc := by
    rw [h.nextGeneration]
    exact hs.used e c (h.cloud_some hc)
  single e c hc := by
    rw [h.pending]
    exact hs.single e c (h.cloud_some hc)

theorem AddsCloud.cloud_some {e' : Endpoint} (h : AddsCloud e s v) (hc : v.cloud? e' = some c) :
    e' = e ∧ c = ⟨s.nextGeneration, none, none, 0, 0, true⟩ := by
  by_cases he : e' = e
  · subst he
    rw [h.cloud] at hc
    exact ⟨rfl, (Option.some.inj hc).symm⟩
  · rw [h.others e' he] at hc
    cases hc

theorem AddsCloud.orderly (h : AddsCloud e s v) (hs : Orderly n s) (hn : n + 2 < 2 ^ 64) :
    Orderly (n + 1) v := by
  have hnext := hs.next
  obtain ⟨hlt, hnat⟩ := lt_generationAfter (g := s.nextGeneration) (by omega)
  rw [← h.nextGeneration] at hlt hnat
  refine ⟨by omega, fun e' g' hg => ?_, fun e' c hc => ?_, fun e' c hc => ?_⟩
  · have hne : s.nextGeneration ≠ g' := UInt64.ne_of_lt (UInt64.lt_of_lt_of_le hlt hg)
    rw [h.pending, hs.unused e' g' (UInt64.le_of_lt (UInt64.lt_of_lt_of_le hlt hg)), if_neg]
    exact fun hat => hne hat.2.symm
  · obtain ⟨rfl, rfl⟩ := h.cloud_some hc
    exact hlt
  · obtain ⟨rfl, rfl⟩ := h.cloud_some hc
    rw [h.pending, hs.unused _ _ (UInt64.le_refl _), if_pos ⟨rfl, rfl⟩]

theorem orderly_step (hs : Orderly n s) (h : s.step l = some v)
    (hn : n + [l].countP PageEvent.isCloudAdd < 2 ^ 64 - 1) :
    Orderly (n + [l].countP PageEvent.isCloudAdd) v := by
  cases ho : l.owner s with
  | some owner =>
    have hl : [l].countP PageEvent.isCloudAdd = 0 := by
      cases l <;> first | rfl | cases ho
    rw [hl]
    exact (callback_step ho h).1.orderly hs
  | none =>
    rcases plain_step ho h with hplain | ⟨e, opens, startup, rfl, hadds⟩
    · have hle : n ≤ n + [l].countP PageEvent.isCloudAdd := Nat.le_add_right _ _
      have hv := hplain.orderly hs
      exact { hv with next := Nat.le_trans hv.next (Nat.succ_le_succ hle) }
    · exact hadds.orderly hs (by
        have hone : [PageEvent.add (.cloudApi e) opens startup].countP PageEvent.isCloudAdd = 1 := rfl
        omega)

theorem orderly_run {storage : Str → Option Str}
    (hr : Runs.run Page.step (Page.start storage) labels = some t)
    (hn : labels.countP PageEvent.isCloudAdd < 2 ^ 64 - 1) :
    Orderly (labels.countP PageEvent.isCloudAdd) t := by
  revert hn
  refine Runs.run_history (I := fun labels t => labels.countP PageEvent.isCloudAdd < 2 ^ 64 - 1 →
    Orderly (labels.countP PageEvent.isCloudAdd) t) ?_ ?_ hr
  · intro _
    refine ⟨Nat.le_refl _, fun _ _ _ => rfl, fun e c hc => ?_, fun e c hc => ?_⟩ <;> cases hc
  · intro labels u l v _ ih hv hn
    rw [countP_append] at hn ⊢
    exact orderly_step (ih (by omega)) hv hn

/-- What can still run for a generation is pending for it. -/
theorem pending_of_owner (ho : l.owner s = some (e, g)) (h : s.step l = some v) :
    0 < s.pending e g := by
  have hsocket {i : ℕ} {k : Socket} (hk : s.sockets[i]? = some k) (hphase : k.phase ≠ .closed)
      (ho : s.sockets[i]?.bind Socket.owner = some (e, g)) : 0 < s.pending e g := by
    obtain ⟨stream, hstream, rfl, rfl⟩ := owner_socket hk ho
    have hpos : 0 < s.socketsOf k.endpoint stream.generation :=
      countP_pos_iff.mpr ⟨k, mem_of_getElem? hk, by simp [hstream, hphase]⟩
    rw [Page.pending]
    omega
  cases l with
  | add | remove | otherPage => cases ho
  | ticketDone =>
    cases ho
    obtain ⟨hmem, _⟩ := Option.ite_none_right_eq_some.mp h
    have hpos : 0 < s.ticketsOf e g := count_pos_iff.mpr hmem
    rw [Page.pending]
    omega
  | timerFired timer =>
    cases ho
    obtain ⟨hmem, _⟩ := Option.ite_none_right_eq_some.mp h
    have hpos : 0 < s.timersOf timer.endpoint timer.generation :=
      countP_pos_iff.mpr ⟨timer, hmem, by simp⟩
    rw [Page.pending]
    omega
  | socketOpened i =>
    obtain ⟨k, hk, hv⟩ := Option.bind_eq_some_iff.mp h
    obtain ⟨hphase, _⟩ := Option.ite_none_right_eq_some.mp hv
    exact hsocket hk (by simp [hphase]) ho
  | socketMessage | socketError | socketClosed =>
    obtain ⟨k, hk, hphase, _⟩ := Page.of_socket h
    exact hsocket hk hphase ho

theorem inRange_step (hs : s.InRange) (h : s.step l = some v) : v.InRange := by
  cases ho : l.owner s with
  | some owner => exact (callback_step ho h).1.inRange hs
  | none =>
    rcases plain_step ho h with hplain | ⟨e, opens, startup, rfl, hadds⟩
    · exact ⟨fun e c hc => hs.1 e c (hplain.cloud_some hc), hplain.timers ▸ hs.2⟩
    · refine ⟨fun e' c hc => ?_, hadds.timers ▸ hs.2⟩
      obtain ⟨_, rfl⟩ := hadds.cloud_some hc
      exact Nat.zero_le _

section Retries

/-- A stream of the endpoint opens, or the endpoint is added. -/
def PageEvent.Renews (s : Page) (e : Endpoint) : PageEvent → Prop
  | .socketOpened i => ∃ g, (PageEvent.socketOpened i).owner s = some (e, g)
  | .add endpoint _ _ => endpoint = .cloudApi e
  | _ => False

/-- The number of retries of an endpoint that the steps of a run schedule. -/
def retriesScheduled (e : Endpoint) : Page → List PageEvent → ℕ
  | _, [] => 0
  | s, l :: labels =>
    match s.step l with
    | none => 0
    | some v => (if s.timersFor e < v.timersFor e then 1 else 0) + retriesScheduled e v labels

theorem opened_retriesLeft {k : Socket} (h : ∀ g, k.owner ≠ some (e, g)) :
    (s.socketOpened k).retriesLeft e = s.retriesLeft e := by
  rw [Page.socketOpened]
  split
  · rfl
  · rename_i stream hstream
    have he : e ≠ k.endpoint := by
      rintro rfl
      exact h stream.generation (by rw [Socket.owner, hstream]; rfl)
    split
    · rfl
    · split
      · rw [Page.retriesLeft, Page.retriesLeft, Page.cloud?_setCloud_ne he]
      · rfl

theorem opened_timers {k : Socket} : (s.socketOpened k).timers = s.timers := by
  rw [Page.socketOpened]
  split
  · rfl
  · split
    · rfl
    · split <;> rfl

/-- Until the endpoint is renewed, each of its retries is paid for. -/
theorem retriesLeft_step (hl : ¬ l.Renews s e) (h : s.step l = some v) :
    v.retriesLeft e ≤ s.retriesLeft e ∧
      (s.timersFor e < v.timersFor e → v.retriesLeft e < s.retriesLeft e) := by
  have hsame (hleft : v.retriesLeft e ≤ s.retriesLeft e) (htimers : v.timers = s.timers) :
      v.retriesLeft e ≤ s.retriesLeft e ∧
        (s.timersFor e < v.timersFor e → v.retriesLeft e < s.retriesLeft e) := by
    refine ⟨hleft, fun hlt => ?_⟩
    rw [Page.timersFor, Page.timersFor, htimers] at hlt
    exact absurd hlt (Nat.lt_irrefl _)
  cases ho : l.owner s with
  | some owner =>
    rcases (callback_step ho h).2 with hfrugal | ⟨i, rfl⟩
    · exact ⟨hfrugal.left_le e, hfrugal.left_lt e⟩
    · obtain ⟨k, hk, hv⟩ := Option.bind_eq_some_iff.mp h
      obtain ⟨_, ⟨⟩⟩ := Option.ite_none_right_eq_some.mp hv
      have hother : ∀ g, k.owner ≠ some (e, g) := by
        intro g hg
        exact hl ⟨g, by rw [PageEvent.owner, hk]; exact hg⟩
      have hopened : ((s.setPhase i .opened).handle k (·.socketOpened k)).retriesLeft e =
            s.retriesLeft e ∧
          ((s.setPhase i .opened).handle k (·.socketOpened k)).timers = s.timers := by
        rw [Page.handle]
        split
        · exact ⟨opened_retriesLeft hother, opened_timers⟩
        · exact ⟨rfl, rfl⟩
      exact hsame (Nat.le_of_eq hopened.1) hopened.2
  | none =>
    rcases plain_step ho h with hplain | ⟨e', opens, startup, rfl, hadds⟩
    · refine hsame ?_ hplain.timers
      rw [Page.retriesLeft, Page.retriesLeft]
      rcases hplain.cloud e with hnone | hsome
      · rw [hnone]
        exact Nat.zero_le _
      · rw [hsome]
    · refine hsame ?_ hadds.timers
      have he : e ≠ e' := by
        rintro rfl
        exact hl rfl
      rw [Page.retriesLeft, hadds.others e he]
      exact Nat.zero_le _

theorem retriesLeft_le : s.retriesLeft e ≤ maxReconnectAttempts := by
  rw [Page.retriesLeft]
  split
  · exact Nat.sub_le _ _
  · exact Nat.zero_le _

theorem retriesScheduled_le_left
    (hquiet : ∀ pre l post u, labels = pre ++ l :: post → Runs.run Page.step s pre = some u →
      ¬ l.Renews u e) : retriesScheduled e s labels ≤ s.retriesLeft e := by
  induction labels generalizing s with
  | nil => exact Nat.zero_le _
  | cons l labels ih =>
    rw [retriesScheduled]
    cases hv : s.step l with
    | none => exact Nat.zero_le _
    | some v =>
      obtain ⟨hle, hlt⟩ := retriesLeft_step (hquiet [] l labels s rfl rfl) hv
      have hrest : retriesScheduled e v labels ≤ v.retriesLeft e := by
        refine ih fun pre l' post u hlabels hu => ?_
        subst hlabels
        exact hquiet (l :: pre) l' post u rfl (Runs.run_cons.mpr ⟨v, hv, hu⟩)
      dsimp only
      split
      · rename_i hmore
        have := hlt hmore
        omega
      · omega

end Retries

/-- Over whole histories. As long as fewer than 2 ^ 64 - 1 cloud endpoints were added, at most one
thing is pending for the current generation of an endpoint, every callback that can still run is
of a generation handed out before, and one that is not of the current generation changes no
connection and queues no signal. Between two renewals of an endpoint only so many retries are
scheduled, and the shift of each delay stays below the width of the word. -/
theorem reconnect_orderly (storage : Str → Option Str) (labels : List PageEvent)
    (t : Page) (hr : Runs.run Page.step (Page.start storage) labels = some t) :
    (labels.countP PageEvent.isCloudAdd < 2 ^ 64 - 1 →
      (∀ e c, t.cloud? e = some c → t.pending e c.generation ≤ 1) ∧
      ∀ l e g v, l.owner t = some (e, g) → t.step l = some v →
        g < t.nextGeneration ∧
          (¬ t.Current e g → v.connections = t.connections ∧ v.signals = t.signals)) ∧
    (∀ e seg, (∀ pre l post u, seg = pre ++ l :: post → Runs.run Page.step t pre = some u →
        ¬ l.Renews u e) → retriesScheduled e t seg ≤ maxReconnectAttempts) ∧
    ∀ timer ∈ t.timers, 1 ≤ timer.attempt ∧ timer.attempt - 1 < 32 := by
  refine ⟨fun hn => ?_, fun e seg hquiet => ?_, fun timer htimer => ?_⟩
  · have ht := orderly_run hr hn
    refine ⟨ht.single, fun l e g v ho hv => ⟨?_, (callback_step ho hv).1.stale⟩⟩
    have hpos := pending_of_owner ho hv
    refine UInt64.not_le.mp fun hle => ?_
    rw [ht.unused e g hle] at hpos
    exact absurd hpos (Nat.lt_irrefl 0)
  · exact Nat.le_trans (retriesScheduled_le_left hquiet) retriesLeft_le
  · have hrange : t.InRange := by
      refine Runs.run_invariant (I := Page.InRange) (fun s l v hs hv => inRange_step hs hv) hr ?_
      exact ⟨nofun, nofun⟩
    obtain ⟨hlow, hhigh⟩ := hrange.2 timer htimer
    rw [maxReconnectAttempts] at hhigh
    omega

theorem reconnect_orderly_sample :
    ∃ t, Runs.run Page.step (Page.start fun _ => none) [.add (.cloudApi ['a']) (.ok ()) false,
        .ticketDone ['a'] 1 (.error []) (.ok ()) (.ok ())] = some t ∧
      t.pending ['a'] 1 = 1 ∧ (∀ timer ∈ t.timers, 1 ≤ timer.attempt ∧ timer.attempt - 1 < 32) ∧
      ∀ e c, t.cloud? e = some c → t.pending e c.generation ≤ 1 := by
  have hrun : (Runs.run Page.step (Page.start fun _ => none)
      [.add (.cloudApi ['a']) (.ok ()) false,
        .ticketDone ['a'] 1 (.error []) (.ok ()) (.ok ())]).map (·.pending ['a'] 1) = some 1 := by
    decide
  obtain ⟨t, ht, hp⟩ := Option.map_eq_some_iff.mp hrun
  have h := reconnect_orderly _ _ t ht
  exact ⟨t, ht, hp, h.2.2, (h.1 (by decide)).1⟩

/-- One endpoint has been added and removed, and the request of the ticket of its first generation
is still under way. -/
structure Waiting (e : Endpoint) (s : Page) : Prop where
  connections : s.connections = ∅
  tickets : s.tickets = [(e, 1)]
  timers : s.timers = []
  sockets : s.sockets = []

theorem retainOpen_of_empty (h : s.connections = ∅) : s.retainOpen = s := by
  rw [Page.retainOpen]
  obtain ⟨connections, active, next, messages, sockets, tickets, timers, storage⟩ := s
  subst h
  rfl

theorem waiting_add (h : s.connections = ∅) :
    ∃ v, s.step (.add (.cloudApi e) (.ok ()) false) = some v ∧
      v.connections = AList.singleton e (.cloud ⟨s.nextGeneration, none, none, 0, 0, true⟩) ∧
      v.tickets = s.tickets ++ [(e, s.nextGeneration)] ∧ v.timers = s.timers ∧
      v.sockets = s.sockets ∧ v.nextGeneration = Page.generationAfter s.nextGeneration := by
  have hadd : s.add (.cloudApi e) (.ok ()) = s.addCloud e (.ok ()) := by
    rw [Page.add, retainOpen_of_empty h]
    simp [h, Page.hasCloud, Page.hasRaw, BrowserEndpoint.key]
  rw [Page.step, hadd, addCloud_eq]
  refine ⟨_, rfl, ?_, rfl, rfl, rfl, rfl⟩
  change AList.insert e _ (AList.insert e _ s.connections) = _
  rw [h]
  exact AList.insert_singleton_eq

theorem waiting_remove {connection : CloudConnection} (hsocket : connection.socket = none)
    (h : s.connections = AList.singleton e (.cloud connection)) :
    ∃ v, s.step (.remove (.cloudApi e)) = some v ∧ v.connections = ∅ ∧ v.tickets = s.tickets ∧
      v.timers = s.timers ∧ v.sockets = s.sockets ∧ v.nextGeneration = s.nextGeneration := by
  have hlookup : s.connections.lookup e = some (.cloud connection) := by
    rw [h]
    exact dlookup_cons_eq _ _ _
  rw [Page.step, Page.remove, BrowserEndpoint.key, hlookup]
  simp only [Page.closeSocket, hsocket]
  refine ⟨_, rfl, ?_, rfl, rfl, rfl, rfl⟩
  change s.connections.erase e = ∅
  rw [h]
  exact AList.ext (kerase_cons_eq rfl)

/-- The endpoint is added and removed again, and only then its ticket fails. -/
theorem waiting_round (h : Waiting e s) :
    ∃ labels v, Runs.run Page.step s labels = some v ∧ Waiting e v ∧
      v.nextGeneration = Page.generationAfter s.nextGeneration := by
  obtain ⟨u, hadd, hc, ht, hr, hk, hn⟩ := waiting_add (e := e) h.connections
  obtain ⟨v, hremove, hc', ht', hr', hk', hn'⟩ := waiting_remove rfl hc
  rw [ht, h.tickets] at ht'
  have hmem : (e, s.nextGeneration) ∈ v.tickets := by simp [ht']
  have herase : v.tickets.erase (e, s.nextGeneration) = [(e, 1)] := by
    rw [ht']
    by_cases hone : s.nextGeneration = 1
    · simp [hone]
    · have hne : ((e, (1 : UInt64)) == (e, s.nextGeneration)) = false := by
        simpa using Ne.symm hone
      rw [singleton_append, erase_cons_tail (by simp [hne]), erase_cons_head]
  have hdone : v.step (.ticketDone e s.nextGeneration (.error []) (.ok ()) (.ok ())) =
      some { v with tickets := v.tickets.erase (e, s.nextGeneration) } := by
    rw [Page.step, if_pos hmem]
    have hnone : ({ v with tickets := v.tickets.erase (e, s.nextGeneration) } : Page).cloud? e =
        none := by
      rw [Page.cloud?, hc']
      rfl
    simp only [Page.ticketAcquired, Page.setCloudConnecting, Page.scheduleCloudRetry, hnone]
  refine ⟨[.add (.cloudApi e) (.ok ()) false, .remove (.cloudApi e), _], _,
    Runs.run_cons.mpr ⟨u, hadd, Runs.run_cons.mpr ⟨v, hremove, Runs.run_cons.mpr ⟨_, hdone, rfl⟩⟩⟩,
    ⟨hc', herase, hr'.trans (hr.trans h.timers), hk'.trans (hk.trans h.sockets)⟩, hn'.trans hn⟩

theorem waiting_rounds (storage : Str → Option Str) (e : Endpoint) (n : ℕ)
    (hn : n + 2 < 2 ^ 64) :
    ∃ labels s, Runs.run Page.step (Page.start storage) labels = some s ∧ Waiting e s ∧
      s.nextGeneration.toNat = n + 2 := by
  induction n with
  | zero =>
    obtain ⟨u, hadd, hc, ht, hr, hk, hg⟩ := waiting_add (s := Page.start storage) (e := e) rfl
    obtain ⟨v, hremove, hc', ht', hr', hk', hg'⟩ := waiting_remove rfl hc
    refine ⟨[_, _], v, Runs.run_cons.mpr ⟨u, hadd, Runs.run_cons.mpr ⟨v, hremove, rfl⟩⟩,
      ⟨hc', ht'.trans ht, hr'.trans hr, hk'.trans hk⟩, ?_⟩
    rw [hg', hg]
    exact (by decide : (Page.generationAfter 1).toNat = 2)
  | succ n ih =>
    obtain ⟨labels, s, hs, hwait, hnext⟩ := ih (by omega)
    obtain ⟨labels', v, hv, hwait', hnext'⟩ := waiting_round hwait
    refine ⟨labels ++ labels', v, Runs.run_append.mpr ⟨s, hs, hv⟩, hwait', ?_⟩
    rw [hnext', (lt_generationAfter (by omega)).2]
    omega

/-- The counter of generations has wrapped around to that of a ticket still under way. -/
theorem generation_reused (storage : Str → Option Str) (e : Endpoint) :
    ∃ labels s c, Runs.run Page.step (Page.start storage) labels = some s ∧ s.cloud? e = some c ∧
      s.pending e c.generation = 2 := by
  obtain ⟨labels, s, hs, hwait, hnext⟩ := waiting_rounds storage e (2 ^ 64 - 3) (by omega)
  obtain ⟨labels', u, hu, hwait', hnext'⟩ := waiting_round hwait
  obtain ⟨v, hv, hc, ht, hr, hk, _⟩ := waiting_add (e := e) hwait'.connections
  have hlast : s.nextGeneration = 18446744073709551615 := UInt64.toNat_inj.mp hnext
  have hone : u.nextGeneration = 1 := by
    rw [hnext', hlast]
    decide
  rw [hone] at hc ht
  refine ⟨labels ++ (labels' ++ [.add (.cloudApi e) (.ok ()) false]), v,
    ⟨1, none, none, 0, 0, true⟩, ?_, ?_, ?_⟩
  · exact Runs.run_append.mpr ⟨s, hs, Runs.run_append.mpr ⟨u, hu, Runs.run_cons.mpr ⟨v, hv, rfl⟩⟩⟩
  · have hlookup : v.connections.lookup e = some (.cloud ⟨1, none, none, 0, 0, true⟩) := by
      rw [hc]
      exact dlookup_cons_eq _ _ _
    rw [Page.cloud?, hlookup]
  · simp [Page.pending, Page.ticketsOf, Page.timersOf, Page.socketsOf, ht, hr, hk, hwait'.tickets,
      hwait'.timers, hwait'.sockets]

def opening (tenantId : TenantId) : List PageEvent :=
  [.add (.cloudApi ['a']) (.ok ()) false, .ticketDone ['a'] 1 (.ok tenantId) (.ok ()) (.ok ()),
    .socketOpened 0]

def failedRetry (generation : UInt64) (attempt : ℕ) : List PageEvent :=
  [.timerFired ⟨['a'], generation, attempt⟩,
    .ticketDone ['a'] generation (.error []) (.ok ()) (.ok ())]

/-- The stream closes and its eight retries are scheduled. The endpoint is removed and added again,
and the first ticket it asks for then fails too. -/
def addedAgain (tenantId : TenantId) : List PageEvent :=
  .socketClosed 0 true 1000 [] :: [1, 2, 3, 4, 5, 6, 7].flatMap (failedRetry 1) ++
    [.remove (.cloudApi ['a']), .add (.cloudApi ['a']) (.ok ()) false,
      .ticketDone ['a'] 2 (.error []) (.ok ()) (.ok ()), .timerFired ⟨['a'], 2, 1⟩,
      .ticketDone ['a'] 2 (.ok tenantId) (.ok ()) (.ok ())]

/-- Two things can be pending for one generation once its number has come round again, and nine
retries are scheduled between two openings when the endpoint is added again in between. -/
theorem reconnect_renewed :
    (∃ labels s c, Runs.run Page.step (Page.start fun _ => none) labels = some s ∧
      s.cloud? ['a'] = some c ∧ 1 < s.pending ['a'] c.generation) ∧
    ∃ s t u, Runs.run Page.step (Page.start fun _ => none) (opening ⟨0⟩) = some s ∧
      Runs.run Page.step s (addedAgain ⟨0⟩) = some t ∧ (∀ i, .socketOpened i ∉ addedAgain ⟨0⟩) ∧
      t.step (.socketOpened 1) = some u ∧
      maxReconnectAttempts < retriesScheduled ['a'] s (addedAgain ⟨0⟩) := by
  refine ⟨?_, ?_⟩
  · obtain ⟨labels, s, c, hs, hc, hp⟩ := generation_reused (fun _ => none) ['a']
    exact ⟨labels, s, c, hs, hc, by omega⟩
  · have hrun : (Runs.run Page.step (Page.start fun _ => none) (opening ⟨0⟩)).bind (fun s =>
        (Runs.run Page.step s (addedAgain ⟨0⟩)).bind fun t => (t.step (.socketOpened 1)).map fun _ =>
          retriesScheduled ['a'] s (addedAgain ⟨0⟩)) = some 9 := by
      decide +kernel
    obtain ⟨s, hs, hrest⟩ := Option.bind_eq_some_iff.mp hrun
    obtain ⟨t, ht, hrest⟩ := Option.bind_eq_some_iff.mp hrest
    obtain ⟨u, hu, hnine⟩ := Option.map_eq_some_iff.mp hrest
    refine ⟨s, t, u, hs, ht, fun i hi => ?_, hu, hnine ▸ by decide⟩
    simp [addedAgain, failedRetry] at hi

end SkidMonitor.Browser
