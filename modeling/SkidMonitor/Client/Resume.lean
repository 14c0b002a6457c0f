import SkidMonitor.Client.Scopes
import SkidMonitor.Lib.Feed

/-! What a cloud connection queues over its life, across disconnects and reconnects. The position
it filters with does not fall as long as it can store its cursors and stays with its tenant; it is
the stored position as long as the storage of the browser answers and is its own. -/
namespace SkidMonitor.Browser

open List

variable {s t u v w : Page} {e : Endpoint} {g : UInt64} {c : CloudConnection} {l : PageEvent}
  {labels : List PageEvent} {initial : BrowserStorageScope} {T : TenantId}

/-- The tenant and the cursor of the record an event brings. -/
def PageEvent.record? : PageEvent → Option (TenantId × UInt64)
  | .socketMessage _ (.ok record) _ => do return (← record.tenantId, ← record.cursor)
  | _ => none

/-- The record a step queues for a generation of an endpoint. -/
def queuedAt (e : Endpoint) (g : UInt64) (s : Page) (l : PageEvent) (v : Page) :
    List (TenantId × UInt64) :=
  if l.owner s = some (e, g) ∧ s.signals.length < v.signals.length then l.record?.toList else []

/-- The records a run queues for a generation of an endpoint. -/
def queued (e : Endpoint) (g : UInt64) : Page → List PageEvent → List (TenantId × UInt64)
  | _, [] => []
  | s, l :: labels =>
    match s.step l with
    | none => []
    | some v => queuedAt e g s l v ++ queued e g v labels

theorem queued_concat (hr : Runs.run Page.step s labels = some t) (hv : t.step l = some v) :
    queued e g s (labels ++ [l]) = queued e g s labels ++ queuedAt e g t l v := by
  induction labels generalizing s with
  | nil =>
    cases hr
    simp [queued, hv]
  | cons a labels ih =>
    obtain ⟨u, hu, ht⟩ := Runs.run_cons.mp hr
    simp only [cons_append, queued, hu, ih ht, append_assoc]

/-- The connection stays, and the storage answers. -/
def PageEvent.Lasting (e : Endpoint) : PageEvent → Prop
  | .remove endpoint => endpoint.key ≠ e
  | .ticketDone _ _ _ access _ | .socketMessage _ _ access => access = .ok ()
  | _ => True

/-- The connection stays, and the cursors it writes are stored. -/
def PageEvent.Kept (e : Endpoint) : PageEvent → Prop
  | .remove endpoint => endpoint.key ≠ e
  | .socketMessage _ _ access => access = .ok ()
  | _ => True

theorem PageEvent.Lasting.kept (h : l.Lasting e) : l.Kept e := by
  cases l <;> first | exact h | exact trivial

/-- What a step can do while the connection is kept, and the record it queues. -/
inductive Lived (e : Endpoint) (g : UInt64) (s : Page) :
    PageEvent → Page → List (TenantId × UInt64) → Prop
  | quiet {l : PageEvent} {v : Page} (hv : Quiet s v) : Lived e g s l v []
  | write (key : Str) (value : Option Str) :
    Lived e g s (.otherPage key value)
      { s with localStorage := Function.update s.localStorage key value } []
  | prepare {c c' : CloudConnection} {tenantId : TenantId} {access opens : Except Str Unit}
    {u w v : Page} (hu : Quiet s u) (hc : u.cloud? e = some c) (hg : c.generation = g)
    (hw : Prepared e c tenantId access u w c') (hv : Quiet w v) :
    Lived e g s (.ticketDone e g (.ok tenantId) access opens) v []
  | connect {c c' : CloudConnection} {tenantId : TenantId} {access : Except Str Unit}
    {u w : Page} (hu : Quiet s u) (hc : u.cloud? e = some c) (hg : c.generation = g)
    (hw : Prepared e c tenantId access u w c') :
    Lived e g s (.ticketDone e g (.ok tenantId) access (.ok ())) (w.connect e c' tenantId) []
  | queue {i : ℕ} {k : Socket} {stream : CloudStream} {c : CloudConnection}
    {record : DecodedJsonSignal} {cursor : UInt64} (hk : s.sockets[i]? = some k)
    (hat : k.attached) (hstream : k.stream = some stream) (hcursor : record.cursor = some cursor)
    (htenant : record.tenantId = some stream.tenantId) (hc : s.cloud? e = some c)
    (hg : c.generation = g) (ht : c.tenantId = some stream.tenantId)
    (hlt : c.persistedCursor < cursor) :
    Lived e g s (.socketMessage i (.ok record) (.ok ()))
      (s.accept e c stream.tenantId record.signal cursor) [(stream.tenantId, cursor)]

theorem signals_eq : s.signals = s.notable.filter fun
    | .signal _ _ => true
    | _ => false := by
  rw [Page.notable, filter_filter, Page.signals]
  refine filter_congr fun message _ => ?_
  cases message <;> rfl

/-- A step that queues no signal. -/
theorem queuedAt_of_signals (h : v.signals = s.signals) : queuedAt e g s l v = [] := by
  rw [queuedAt, h]
  exact if_neg fun hlt => Nat.lt_irrefl _ hlt.2

theorem Quiet.signals (h : Quiet s v) : v.signals = s.signals := by
  rw [signals_eq, signals_eq, h.notable]

theorem Prepared.signals {c' : CloudConnection} {access : Except Str Unit}
    (h : Prepared e c T access s w c') : w.signals = s.signals := by
  cases h with
  | same _ => rfl
  | turned hu _ _ =>
    refine Eq.trans ?_ hu.signals
    simp [Page.signals, Page.publishStorageScope]

theorem connect_signals : (s.connect e c T).signals = s.signals := by
  rw [Page.connect, Page.closeSocket]
  split <;> rfl

/-- A connection of the page is the only one. -/
theorem Coherent.eq_of_cloud {e' : Endpoint} {c' : CloudConnection} (hs : Coherent initial s)
    (hc : s.cloud? e = some c) (hc' : s.cloud? e' = some c') : e' = e ∧ c' = c := by
  have he : e' = e := by
    by_contra hne
    have hnone := hs.sole e c hc e' hne
    rw [Page.lookup_of_cloud? hc'] at hnone
    cases hnone
  subst he
  rw [hc] at hc'
  exact ⟨rfl, (Option.some.inj hc').symm⟩

theorem Quiet.cloud_of_some (h : Quiet s v) (hc : s.cloud? e = some c) :
    ∃ c', v.cloud? e = some c' ∧ c'.position = c.position := by
  have he := h.cloud e
  rw [hc] at he
  exact Option.map_eq_some_iff.mp he

theorem queuedAt_accept {i : ℕ} {k : Socket} {stream : CloudStream} {record : DecodedJsonSignal}
    {cursor : UInt64} (hk : s.sockets[i]? = some k) (hstream : k.stream = some stream)
    (hg : stream.generation = g) (hcursor : record.cursor = some cursor)
    (htenant : record.tenantId = some stream.tenantId) :
    queuedAt k.endpoint g s (.socketMessage i (.ok record) (.ok ()))
      (s.accept k.endpoint c stream.tenantId record.signal cursor) =
        [(stream.tenantId, cursor)] := by
  have howner : (PageEvent.socketMessage i (.ok record) (.ok ())).owner s = some (k.endpoint, g) := by
    simp [PageEvent.owner, hk, Socket.owner, hstream, hg]
  have hmore : s.signals.length <
      (s.accept k.endpoint c stream.tenantId record.signal cursor).signals.length := by
    simp [Page.signals, Page.accept]
  rw [queuedAt, if_pos ⟨howner, hmore⟩]
  simp [PageEvent.record?, htenant, hcursor]

theorem lived_step (hs : Coherent initial s) (hc : s.cloud? e = some c) (hg : c.generation = g)
    (hl : l.Kept e) (h : s.step l = some v) : Lived e g s l v (queuedAt e g s l v) := by
  have hbusy {u : Page} (hu : Quiet s u) (hcloud : u.hasCloud = false) : False := by
    obtain ⟨c', hc', _⟩ := hu.cloud_of_some hc
    rw [no_cloud hcloud] at hc'
    cases hc'
  cases effect_step h with
  | quiet hv =>
    rw [queuedAt_of_signals hv.signals]
    exact .quiet hv
  | write key value =>
    have hsignals : ({ s with localStorage := Function.update s.localStorage key value } :
      Page).signals = s.signals := rfl
    rw [queuedAt_of_signals hsignals]
    exact .write key value
  | @removeRaw endpoint i _ hi _ =>
    have hnone := hs.sole e c hc _ hl
    rw [hi] at hnone
    cases hnone
  | @removeCloud endpoint c' _ hc' _ => exact absurd (hs.eq_of_cloud hc hc').1 hl
  | addRaw hu hcloud | addCloud hu hcloud => exact (hbusy hu hcloud).elim
  | @prepare e' c₀ c' tenantId access opens u w _ hu hc₀ hw hv =>
    obtain ⟨c₁, hc₁, hposition⟩ := hu.cloud_of_some hc
    obtain ⟨rfl, rfl⟩ := (hu.coherent hs).eq_of_cloud hc₁ hc₀
    have hg₀ : c₀.generation = g := (congrArg (·.1) hposition).trans hg
    rw [queuedAt_of_signals (hv.signals.trans (hw.signals.trans hu.signals)), hg₀]
    exact .prepare hu hc₀ hg₀ hw hv
  | @connect e' c₀ c' tenantId access u w hu hc₀ hw =>
    obtain ⟨c₁, hc₁, hposition⟩ := hu.cloud_of_some hc
    obtain ⟨rfl, rfl⟩ := (hu.coherent hs).eq_of_cloud hc₁ hc₀
    have hg₀ : c₀.generation = g := (congrArg (·.1) hposition).trans hg
    rw [queuedAt_of_signals (connect_signals.trans (hw.signals.trans hu.signals)), hg₀]
    exact .connect hu hc₀ hg₀ hw
  | queueRaw hk hopen hat hraw => exact absurd hraw (hs.no_raw hc _ _ hk hat hopen)
  | @queueCloud i k stream c' record cursor access _ hk hat hstream hcursor htenant hc' hg' ht hlt
      hv =>
    obtain ⟨rfl, rfl⟩ := hs.eq_of_cloud hc hc'
    obtain rfl : access = .ok () := hl
    rcases hv with ⟨_, rfl⟩ | ⟨hno, _⟩
    · rw [queuedAt_accept hk hstream (hg'.symm.trans hg) hcursor htenant]
      exact .queue hk hat hstream hcursor htenant hc' hg ht hlt
    · exact absurd rfl hno

/-- The cursor the storage holds for a tenant, zero if it holds none. -/
def Page.storedCursor (s : Page) (e : Endpoint) (tenantId : TenantId) : UInt64 :=
  ((s.localStorage (cursorStorageKey e tenantId)).bind Numeral.readU64).getD 0

theorem resumeCursor_ok : s.resumeCursor e T (.ok ()) = s.storedCursor e T := by
  rw [Page.resumeCursor, Page.loadCursor, Page.storedCursor]
  cases s.localStorage (cursorStorageKey e T) with
  | none => rfl
  | some value =>
    dsimp only [bind, Except.bind, Option.bind_some]
    cases Numeral.readU64 value <;> rfl

theorem storedCursor_congr (h : v.localStorage = s.localStorage) :
    v.storedCursor e T = s.storedCursor e T := by
  rw [Page.storedCursor, Page.storedCursor, h]

theorem storedCursor_update {key : Str} {value : Option Str}
    (h : key ≠ cursorStorageKey e T) :
    ({ s with localStorage := Function.update s.localStorage key value } : Page).storedCursor e T =
      s.storedCursor e T := by
  change ((Function.update s.localStorage key value (cursorStorageKey e T)).bind _).getD 0 = _
  rw [Function.update_of_ne (Ne.symm h), Page.storedCursor]

section Accept
variable {signal : Signal} {cursor : UInt64}

theorem accept_localStorage : (s.accept e c T signal cursor).localStorage =
    Function.update s.localStorage (cursorStorageKey e T) (some (Numeral.print cursor.toNat)) := rfl

theorem storedCursor_accept : (s.accept e c T signal cursor).storedCursor e T = cursor := by
  rw [Page.storedCursor, accept_localStorage, Function.update_self]
  simp

end Accept

theorem connect_localStorage : (s.connect e c T).localStorage = s.localStorage := by
  rw [Page.connect, Page.closeSocket]
  split <;> rfl

/-- The position a connection filters with is the stored one. -/
def CloudConnection.InStep (c : CloudConnection) (e : Endpoint) (s : Page) : Prop :=
  ∀ T, c.tenantId = some T → c.persistedCursor = s.storedCursor e T

/-- The records queued so far are no news to a connection with their tenant. -/
def CloudConnection.Past (c : CloudConnection) (records : List (TenantId × UInt64)) : Prop :=
  ∀ record ∈ records, c.tenantId ≠ none ∧ (c.tenantId = some record.1 → record.2 ≤ c.persistedCursor)

/-- A ticket that turns the connection from one tenant to another finds the storage at the records
that were queued for the other one. -/
def PageEvent.Remembered (e : Endpoint) (g : UInt64) (records : List (TenantId × UInt64)) (s : Page) :
    PageEvent → Prop
  | .ticketDone endpoint generation (.ok tenantId) access _ => endpoint = e → generation = g →
    ∀ c ∈ s.cloud? e, c.tenantId ≠ none → c.tenantId ≠ some tenantId →
      ∀ record ∈ records, record.1 = tenantId → record.2 ≤ s.resumeCursor e tenantId access
  | _ => True

instance PageEvent.decidableRemembered {records : List (TenantId × UInt64)} :
    Decidable (l.Remembered e g records s) := by
  unfold PageEvent.Remembered
  split <;> infer_instance

/-- Every such ticket of a run does, when `records` were queued before it. -/
def Remembering (e : Endpoint) (g : UInt64) :
    List (TenantId × UInt64) → Page → List PageEvent → Prop
  | _, _, [] => True
  | records, s, l :: labels => l.Remembered e g records s ∧
    ∀ v ∈ s.step l, Remembering e g (records ++ queuedAt e g s l v) v labels

instance decidableRemembering : (records : List (TenantId × UInt64)) → (s : Page) →
    (labels : List PageEvent) → Decidable (Remembering e g records s labels)
  | _, _, [] => isTrue trivial
  | records, s, l :: labels =>
    have (v : Page) : Decidable (Remembering e g (records ++ queuedAt e g s l v) v labels) :=
      decidableRemembering _ v labels
    inferInstanceAs (Decidable (_ ∧ ∀ v ∈ s.step l, _))

structure Fresh (e : Endpoint) (g : UInt64) (records : List (TenantId × UInt64)) (s : Page) :
    Prop where
  current : ∃ c, s.cloud? e = some c ∧ c.generation = g ∧ c.Past records
  nodup : records.Nodup

theorem Quiet.fresh {records : List (TenantId × UInt64)} (h : Quiet s v)
    (hs : Fresh e g records s) : Fresh e g records v := by
  obtain ⟨c, hc, hg, hpast⟩ := hs.current
  obtain ⟨c', hc', hposition⟩ := h.cloud_of_some hc
  have hg' : c'.generation = c.generation := congrArg (·.1) hposition
  have ht : c'.tenantId = c.tenantId := congrArg (·.2.1) hposition
  have hp : c'.persistedCursor = c.persistedCursor := congrArg (·.2.2.1) hposition
  refine ⟨⟨c', hc', hg'.trans hg, ?_⟩, hs.nodup⟩
  rw [CloudConnection.Past, ht, hp]
  exact hpast

/-- Only a connection that turns away from another tenant depends on the storage. -/
theorem Prepared.past {c' : CloudConnection} {access : Except Str Unit}
    {records : List (TenantId × UInt64)} (h : Prepared e c T access s w c') (hc : c.Past records)
    (hread : c.tenantId ≠ none → c.tenantId ≠ some T → ∀ record ∈ records, record.1 = T →
      record.2 ≤ s.resumeCursor e T access) :
    c'.generation = c.generation ∧ c'.Past records := by
  cases h with
  | same _ => exact ⟨rfl, hc⟩
  | turned _ _ hne =>
    refine ⟨rfl, fun record hrecord => ⟨nofun, fun hT => ?_⟩⟩
    exact hread (hc record hrecord).1 hne record hrecord (Option.some.inj hT).symm

theorem fresh_step {records new : List (TenantId × UInt64)} (hs : Fresh e g records s)
    (hread : l.Remembered e g records s) (hcoherent : Coherent initial s)
    (h : Lived e g s l v new) : Fresh e g (records ++ new) v := by
  -- The connection keeps its position while the page prepares for the ticket.
  have hticket {c c' : CloudConnection} {tenantId : TenantId} {access opens : Except Str Unit}
      {u w : Page} (hl : l = .ticketDone e g (.ok tenantId) access opens) (hu : Quiet s u)
      (hc : u.cloud? e = some c) (hw : Prepared e c tenantId access u w c') :
      c'.generation = g ∧ c'.Past records := by
    obtain ⟨c₀, hc₀, hg₀, _⟩ := hs.current
    obtain ⟨c₁, hc₁, hposition⟩ := hu.cloud_of_some hc₀
    obtain ⟨c₂, hc₂, hg, hpast⟩ := (hu.fresh hs).current
    rw [hc] at hc₁ hc₂
    cases hc₁
    cases hc₂
    have ht : c.tenantId = c₀.tenantId := congrArg (·.2.1) hposition
    have hstorage : u.resumeCursor e tenantId access = s.resumeCursor e tenantId access := by
      rw [Page.resumeCursor, Page.resumeCursor, Page.loadCursor, Page.loadCursor, hu.localStorage]
    subst hl
    obtain ⟨hg', hpast'⟩ := hw.past hpast (hstorage ▸ ht ▸ hread rfl rfl c₀ hc₀)
    exact ⟨hg'.trans hg, hpast'⟩
  cases h with
  | quiet hv =>
    rw [append_nil]
    exact hv.fresh hs
  | write key value =>
    rw [append_nil]
    exact ⟨hs.current, hs.nodup⟩
  | prepare hu hc hg hw hv =>
    rw [append_nil]
    obtain ⟨hg', hpast⟩ := hticket rfl hu hc hw
    have hc' := (hw.coherent (hu.coherent hcoherent) hc).2.1
    exact hv.fresh ⟨⟨_, hc', hg', hpast⟩, hs.nodup⟩
  | connect hu hc hg hw =>
    rw [append_nil]
    obtain ⟨hg', hpast⟩ := hticket rfl hu hc hw
    exact ⟨⟨_, Page.cloud?_setCloud, hg', hpast⟩, hs.nodup⟩
  | @queue i k stream c record cursor hk hat hstream hcursor htenant hc hg ht hlt =>
    obtain ⟨c₀, hc₀, _, hpast⟩ := hs.current
    rw [hc] at hc₀
    cases hc₀
    refine ⟨⟨_, Page.cloud?_setCloud, hg, fun r hr => ⟨by simp [ht], fun hT => ?_⟩⟩, ?_⟩
    · rcases mem_append.mp hr with hold | hnew
      · exact UInt64.le_of_lt (UInt64.lt_of_le_of_lt ((hpast r hold).2 hT) hlt)
      · rw [mem_singleton.mp hnew]
        exact UInt64.le_refl _
    · refine nodup_append'.mpr ⟨hs.nodup, nodup_singleton _, ?_⟩
      -- A record of the same tenant and cursor would be at most the position of the connection.
      intro r hold hnew
      rw [mem_singleton.mp hnew] at hold
      exact absurd (UInt64.lt_of_le_of_lt ((hpast _ hold).2 ht) hlt) (UInt64.lt_irrefl _)

theorem nodup_queued {records : List (TenantId × UInt64)} (hs : Fresh e g records s)
    (hcoherent : Coherent initial s) (hr : Runs.run Page.step s labels = some t)
    (hl : ∀ l ∈ labels, l.Kept e) (hread : Remembering e g records s labels) :
    (records ++ queued e g s labels).Nodup := by
  induction labels generalizing s records with
  | nil =>
    rw [queued, append_nil]
    exact hs.nodup
  | cons l labels ih =>
    obtain ⟨v, hv, ht⟩ := Runs.run_cons.mp hr
    obtain ⟨c, hc, hg, _⟩ := hs.current
    have hlived := lived_step hcoherent hc hg (hl l mem_cons_self) hv
    have hrest := ih (fresh_step hs hread.1 hcoherent hlived) (coherent_step hcoherent hv) ht
      (fun l h => hl l (mem_cons_of_mem _ h)) (hread.2 v hv)
    simpa only [queued, hv, append_assoc] using hrest

/-- A new connection has queued nothing. -/
theorem added_cloud {opens : Except Str Unit} {startup : Bool} (hnone : s.cloud? e = none)
    (hadd : s.step (.add (.cloudApi e) opens startup) = some v) (hc : v.cloud? e = some c) :
    c = ⟨s.nextGeneration, none, none, 0, 0, true⟩ := by
  rcases plain_step rfl hadd with hplain | ⟨e', _, _, hl, hadds⟩
  · rcases hplain.cloud e with h | h
    · rw [h] at hc
      cases hc
    · rw [h, hnone] at hc
      cases hc
  · cases hl
    rw [hadds.cloud] at hc
    exact (Option.some.inj hc).symm

/-- Over the life of a connection whose cursors are stored, no record is queued twice, unless the
connection turns from one tenant back to another one whose last cursor it does not find. -/
theorem queued_at_most_once (storage : Str → Option Str) (before : List PageEvent)
    (s v t : Page) (e : Endpoint) (opens : Except Str Unit) (startup : Bool)
    (c : CloudConnection) (labels : List PageEvent)
    (hs : Runs.run Page.step (Page.start storage) before = some s)
    (hadd : s.step (.add (.cloudApi e) opens startup) = some v) (hc : v.cloud? e = some c)
    (hr : Runs.run Page.step v labels = some t) (hl : ∀ l ∈ labels, l.Kept e)
    (hread : Remembering e c.generation [] v labels) :
    (queued e c.generation v labels).Nodup := by
  have hv : Coherent .legacy v := coherent_step (coherent_run hs) hadd
  exact nodup_queued ⟨⟨c, hc, rfl, fun _ h => (not_mem_nil h).elim⟩, nodup_nil⟩ hv hr hl hread

/-- A record is received, the stream closes, and the stream that follows brings it again. -/
def receivedTwice (access : Except Str Unit) : List PageEvent :=
  [.ticketDone ['a'] 1 (.ok ⟨0⟩) (.error []) (.ok ()), .socketOpened 0,
    .socketMessage 0 (.ok ⟨.logs [], some 5, some ⟨0⟩⟩) access, .socketClosed 0 true 1000 [],
    .timerFired ⟨['a'], 1, 1⟩, .ticketDone ['a'] 1 (.ok ⟨0⟩) (.ok ()) (.ok ()), .socketOpened 1,
    .socketMessage 1 (.ok ⟨.logs [], some 5, some ⟨0⟩⟩) (.ok ())]

/-- The ticket after that is for another tenant, and then one is for the first tenant again. -/
def turnedBack (access : Except Str Unit) : List PageEvent :=
  receivedTwice (.ok ()) ++
    [.socketClosed 1 true 1000 [], .timerFired ⟨['a'], 1, 1⟩,
      .ticketDone ['a'] 1 (.ok ⟨1⟩) (.ok ()) (.ok ()), .socketOpened 2,
      .socketMessage 2 (.ok ⟨.logs [], some 6, some ⟨1⟩⟩) (.ok ()), .socketClosed 2 true 1000 [],
      .timerFired ⟨['a'], 1, 1⟩, .ticketDone ['a'] 1 (.ok ⟨0⟩) access (.ok ()), .socketOpened 3,
      .otherPage (cursorStorageKey ['a'] ⟨0⟩) none,
      .socketMessage 3 (.ok ⟨.logs [], some 5, some ⟨0⟩⟩) (.ok ())]

theorem queued_at_most_once_sample :
    ∃ v t c, (Page.start fun _ => none).step (.add (.cloudApi ['a']) (.ok ()) false) = some v ∧
      v.cloud? ['a'] = some c ∧ Runs.run Page.step v (turnedBack (.ok ())) = some t ∧
      (queued ['a'] c.generation v (turnedBack (.ok ()))).length = 2 ∧
      (queued ['a'] c.generation v (turnedBack (.ok ()))).Nodup := by
  have hrun : ((Page.start fun _ => none).step (.add (.cloudApi ['a']) (.ok ()) false)).bind (fun v =>
      (v.cloud? ['a']).bind fun c => (Runs.run Page.step v (turnedBack (.ok ()))).map fun _ =>
        ((queued ['a'] c.generation v (turnedBack (.ok ()))).length,
          decide (Remembering ['a'] c.generation [] v (turnedBack (.ok ()))))) = some (2, true) := by
    decide +kernel
  obtain ⟨v, hv, hrest⟩ := Option.bind_eq_some_iff.mp hrun
  obtain ⟨c, hc, hrest⟩ := Option.bind_eq_some_iff.mp hrest
  obtain ⟨t, ht, hrest⟩ := Option.map_eq_some_iff.mp hrest
  obtain ⟨htwo, hread⟩ := Prod.mk.inj hrest
  refine ⟨v, t, c, hv, hc, ht, htwo, queued_at_most_once _ [] _ v t ['a'] (.ok ()) false c _ rfl hv
    hc ht ?_ (of_decide_eq_true hread)⟩
  simp only [turnedBack, receivedTwice, cons_append, nil_append, forall_mem_cons,
    PageEvent.Kept, not_mem_nil, false_imp_iff, implies_true, and_self]

/-- A record whose cursor could not be stored is queued again, and so is one whose cursor could not
be read when the connection turned back to its tenant. -/
theorem record_queued_twice :
    ∃ v t u, (Page.start fun _ => none).step (.add (.cloudApi ['a']) (.ok ()) false) = some v ∧
      Runs.run Page.step v (receivedTwice (.error [])) = some t ∧
      ¬ (queued ['a'] 1 v (receivedTwice (.error []))).Nodup ∧
      Runs.run Page.step v (turnedBack (.error [])) = some u ∧
      ¬ (queued ['a'] 1 v (turnedBack (.error []))).Nodup := by
  have hrun : ((Page.start fun _ => none).step (.add (.cloudApi ['a']) (.ok ()) false)).bind (fun v =>
      (Runs.run Page.step v (receivedTwice (.error []))).bind fun _ =>
        (Runs.run Page.step v (turnedBack (.error []))).map fun _ =>
          (decide (queued ['a'] 1 v (receivedTwice (.error []))).Nodup,
            decide (queued ['a'] 1 v (turnedBack (.error []))).Nodup)) = some (false, false) := by
    decide +kernel
  obtain ⟨v, hv, hrest⟩ := Option.bind_eq_some_iff.mp hrun
  obtain ⟨t, ht, hrest⟩ := Option.bind_eq_some_iff.mp hrest
  obtain ⟨u, hu, hrest⟩ := Option.map_eq_some_iff.mp hrest
  obtain ⟨htwice, hagain⟩ := Prod.mk.inj hrest
  exact ⟨v, t, u, hv, ht, of_decide_eq_false htwice, hu, of_decide_eq_false hagain⟩

section ExactlyOnce

/-- What a socket has delivered. -/
def received (i : ℕ) (labels : List PageEvent) : List (Except Str DecodedJsonSignal) :=
  labels.filterMap fun
    | .socketMessage j data _ => if j = i then some data else none
    | _ => none

/-- The cursor of a record of the tenant. -/
def cursorFor (T : TenantId) : Except Str DecodedJsonSignal → Option ℕ
  | .ok record => if record.tenantId = some T then record.cursor.map UInt64.toNat else none
  | .error _ => none

/-- What the streams of a generation have delivered are records of the tenant: from its events
after the position a stream was opened with the first ones, in order. -/
def Served (e : Endpoint) (g : UInt64) (T : TenantId) (events : List ℕ) (s : Page)
    (labels : List PageEvent) : Prop :=
  ∀ (i : ℕ) k stream, s.sockets[i]? = some k → k.endpoint = e → k.stream = some stream →
    stream.generation = g →
    (received i labels).map (cursorFor T) <+: (Feed.after stream.after.toNat events).map some

/-- Everything up to the stored cursor has been queued once, and the open stream has delivered
everything up to there. -/
structure Resumed (e : Endpoint) (g : UInt64) (T : TenantId) (events : List ℕ) (a : ℕ)
    (labels : List PageEvent) (records : List (TenantId × UInt64)) (s : Page) : Prop where
  current : ∃ c, s.cloud? e = some c ∧ c.generation = g ∧ c.InStep e s ∧
    (∀ T', c.tenantId = some T' → T' = T) ∧
    ∀ (i : ℕ) k stream, s.sockets[i]? = some k → k.attached → k.stream = some stream →
      c.tenantId = some T ∧ stream.tenantId = T ∧
        stream.after.toNat ≤ (s.storedCursor e T).toNat ∧
        (received i labels).map (cursorFor T) =
          (Feed.between stream.after.toNat (s.storedCursor e T).toNat events).map some
  unused : ∀ i, s.sockets.length ≤ i → received i labels = []
  queued : records.map (·.2.toNat) = Feed.between a (s.storedCursor e T).toNat events
  tenant : ∀ record ∈ records, record.1 = T
  start : a ≤ (s.storedCursor e T).toNat
  last : ∀ x, (records.map (·.2.toNat)).getLast? = some x →
    s.localStorage (cursorStorageKey e T) = some (Numeral.print x)

variable {events : List ℕ} {a : ℕ} {records : List (TenantId × UInt64)}

theorem received_concat {i : ℕ} (h : ∀ data access, l ≠ .socketMessage i data access) :
    received i (labels ++ [l]) = received i labels := by
  rw [received, filterMap_append]
  cases l with
  | socketMessage j data access =>
    have hji : j ≠ i := by
      rintro rfl
      exact h data access rfl
    simp [received, hji]
  | _ => simp [received]

theorem received_message {i : ℕ} {data : Except Str DecodedJsonSignal}
    {access : Except Str Unit} :
    received i (labels ++ [.socketMessage i data access]) = received i labels ++ [data] := by
  simp [received, filterMap_append]

/-- A record that is news to its connection is accepted. -/
theorem message_accepted {i : ℕ} {k : Socket} {stream : CloudStream} {record : DecodedJsonSignal}
    {cursor : UInt64} (hk : s.sockets[i]? = some k) (hopen : k.phase ≠ .closed) (hat : k.attached)
    (hstream : k.stream = some stream) (hcursor : record.cursor = some cursor)
    (htenant : record.tenantId = some stream.tenantId) (hc : s.cloud? k.endpoint = some c)
    (hg : c.generation = stream.generation) (ht : c.tenantId = some stream.tenantId)
    (hlt : c.persistedCursor < cursor) :
    s.step (.socketMessage i (.ok record) (.ok ())) =
      some (s.accept k.endpoint c stream.tenantId record.signal cursor) := by
  have hqueue : s.shouldQueue k.endpoint stream.generation stream.tenantId cursor = true := by
    rw [Page.shouldQueue, hc]
    exact decide_eq_true ⟨hg, ht, hlt⟩
  have hc' : ((s.pushMessage (.signal k.endpoint record.signal)).persistCursor k.endpoint
    stream.tenantId cursor).cloud? k.endpoint = some c := hc
  have hmax : max c.persistedCursor cursor = cursor := if_pos (UInt64.le_of_lt hlt)
  have hmessage : s.socketMessage k (.ok record) (.ok ()) =
      s.accept k.endpoint c stream.tenantId record.signal cursor := by
    simp only [Page.socketMessage, hstream, Page.queueCloudRecord, hcursor, htenant, ne_eq,
      not_true_eq_false, if_false, hqueue, if_true, hc', hg, ht, and_self, hmax, Page.accept]
  rw [Page.step, hk]
  simp only [Option.bind_eq_bind, Option.bind_some, hopen, if_false, Page.handle, hat, if_true,
    hmessage]

theorem Quiet.resumed (h : Quiet s v) (hs : Resumed e g T events a labels records s) :
    Resumed e g T events a labels records v := by
  have hstored := storedCursor_congr (e := e) (T := T) h.localStorage
  obtain ⟨c, hc, hg, hstep, htenant, hsocket⟩ := hs.current
  obtain ⟨c', hc', hposition⟩ := h.cloud_of_some hc
  have hg' : c'.generation = c.generation := congrArg (·.1) hposition
  have ht : c'.tenantId = c.tenantId := congrArg (·.2.1) hposition
  have hp : c'.persistedCursor = c.persistedCursor := congrArg (·.2.2.1) hposition
  have hlength : v.sockets.length = s.sockets.length := by
    simpa using congrArg List.length h.handlers
  refine ⟨⟨c', hc', hg'.trans hg, fun T' hT => ?_, fun T' hT => htenant T' (ht ▸ hT),
    fun i k' stream hk' hat hstream => ?_⟩, fun i hi => hs.unused i (hlength ▸ hi), ?_, hs.tenant, ?_,
    ?_⟩
  · rw [hp, storedCursor_congr h.localStorage]
    exact hstep T' (ht.symm.trans hT)
  · obtain ⟨k, hk, hhandlers, _⟩ := h.socket hk'
    have hstream' : k.stream = k'.stream := congrArg (·.2.1) hhandlers
    have hattached : k.attached = k'.attached := congrArg (·.2.2) hhandlers
    rw [ht, hstored]
    exact hsocket i k stream hk (hattached ▸ hat) (hstream'.trans hstream)
  · rw [hstored]
    exact hs.queued
  · rw [hstored]
    exact hs.start
  · rw [h.localStorage]
    exact hs.last

/-- An event that is no message to an attached stream. -/
theorem Resumed.extend (hs : Resumed e g T events a labels records s)
    (h : ∀ i data access, l = .socketMessage i data access → i < s.sockets.length ∧
      ∀ k stream, s.sockets[i]? = some k → k.attached → k.stream ≠ some stream) :
    Resumed e g T events a (labels ++ [l]) records s := by
  obtain ⟨c, hc, hg, hstep, htenant, hsocket⟩ := hs.current
  refine ⟨⟨c, hc, hg, hstep, htenant, fun i k stream hk hat hstream => ?_⟩, fun i hi => ?_, hs.queued,
    hs.tenant, hs.start, hs.last⟩
  · rw [received_concat fun data access hl => (h i data access hl).2 k stream hk hat hstream]
    exact hsocket i k stream hk hat hstream
  · rw [received_concat fun data access hl => absurd (h i data access hl).1 (Nat.not_lt.mpr hi)]
    exact hs.unused i hi

/-- The connection has turned to the tenant. -/
theorem Prepared.resumed {c' : CloudConnection} (h : Prepared e c T (.ok ()) s w c')
    (hs : Resumed e g T events a labels records s) (hc : s.cloud? e = some c) :
    Resumed e g T events a labels records w := by
  obtain ⟨c₀, hc₀, hg, hstep, htenant, hsocket⟩ := hs.current
  rw [hc] at hc₀
  cases hc₀
  cases h with
  | same _ => exact hs
  | @turned u hu hcu hne =>
    have hu' := hu.resumed hs
    obtain ⟨c₁, hc₁, hg₁, _, _, hsocket₁⟩ := hu'.current
    rw [hcu] at hc₁
    cases hc₁
    refine ⟨⟨_, Page.cloud?_setCloud, hg₁, fun T' hT => ?_, fun T' hT => (Option.some.inj hT).symm,
      fun i k stream hk hat hstream => ?_⟩, hu'.unused, hu'.queued, hu'.tenant, hu'.start, hu'.last⟩
    · cases hT
      exact resumeCursor_ok.trans (storedCursor_congr hu.localStorage).symm
    · -- An attached stream is of the tenant already.
      exact absurd (hsocket₁ i k stream hk hat hstream).1 hne

theorem connect_resumed (hs : Resumed e g T events a labels records s)
    (hcoherent : Coherent initial s) (hc : s.cloud? e = some c) (ht : c.tenantId = some T) :
    Resumed e g T events a labels records (s.connect e c T) := by
  have hstored := storedCursor_congr (e := e) (T := T) (connect_localStorage (s := s) (e := e) (c := c)
    (T := T))
  obtain ⟨c₀, hc₀, hg, hstep, htenant, _⟩ := hs.current
  rw [hc] at hc₀
  cases hc₀
  refine ⟨⟨_, Page.cloud?_setCloud, hg, fun T' hT => ?_, htenant,
    fun i k stream hk hat hstream => ?_⟩, fun i hi => ?_, ?_, hs.tenant, ?_, ?_⟩
  · rw [storedCursor_congr connect_localStorage]
    exact hstep T' hT
  · obtain ⟨rfl, rfl⟩ := connect_attached hcoherent hc hk hat (.inr (by simp [hstream]))
    cases hstream
    rw [hstored, hs.unused _ (Nat.le_refl _), hstep T ht, Feed.between_self]
    exact ⟨ht, rfl, Nat.le_refl _, rfl⟩
  · rw [connect_length] at hi
    exact hs.unused i (by omega)
  · rw [hstored]
    exact hs.queued
  · rw [hstored]
    exact hs.start
  · rw [connect_localStorage]
    exact hs.last

theorem cursorFor_eq_some {data : Except Str DecodedJsonSignal} {x : ℕ}
    (h : cursorFor T data = some x) :
    ∃ record cursor, data = .ok record ∧ record.tenantId = some T ∧ record.cursor = some cursor ∧
      cursor.toNat = x := by
  cases data with
  | error error => cases h
  | ok record =>
    obtain ⟨htenant, hcursor⟩ := Option.ite_none_right_eq_some.mp h
    obtain ⟨cursor, hcursor, hx⟩ := Option.map_eq_some_iff.mp hcursor
    exact ⟨record, cursor, rfl, htenant, hcursor, hx⟩

/-- What a stream has delivered so far is a part of what it delivers. -/
theorem Served.of_append {post : List PageEvent} (hr : Runs.run Page.step s post = some t)
    (h : Served e g T events t (labels ++ post)) : Served e g T events s labels := by
  intro i k stream hk he hstream hg
  obtain ⟨rest, hrest⟩ := identities_run hr
  have hi : (t.sockets.map Socket.identity)[i]? = some k.identity := by
    obtain ⟨hlt, _⟩ := List.getElem?_eq_some_iff.mp hk
    rw [← hrest, getElem?_append_left (by simpa using hlt), getElem?_map, hk]
    rfl
  rw [getElem?_map] at hi
  obtain ⟨k', hk', heq⟩ := Option.map_eq_some_iff.mp hi
  have hserved := h i k' stream hk' ((congrArg (·.1) heq).trans he)
    ((congrArg (·.2) heq).trans hstream) hg
  rw [received, filterMap_append, map_append] at hserved
  exact (prefix_append _ _).trans hserved

/-- The handlers stay as they are while messages arrive. -/
theorem message_handlers {i : ℕ} {data : Except Str DecodedJsonSignal}
    {access : Except Str Unit} {new : List (TenantId × UInt64)}
    (h : Lived e g s (.socketMessage i data access) v new) :
    v.sockets.map Socket.handlers = s.sockets.map Socket.handlers := by
  cases h with
  | quiet hv => exact hv.handlers
  | queue => rfl

/-- The next record of the attached stream is queued, and it is the next event of the tenant. -/
theorem resumed_message {i : ℕ} {k : Socket} {stream : CloudStream}
    {data : Except Str DecodedJsonSignal}
    (hevents : events.Pairwise (· < ·)) (hs : Resumed e g T events a labels records s)
    (hcoherent : Coherent initial s) (hk : s.sockets[i]? = some k) (hat : k.attached)
    (hstream : k.stream = some stream)
    (h : s.step (.socketMessage i data (.ok ())) = some v)
    (hserved : Served e g T events v (labels ++ [.socketMessage i data (.ok ())])) :
    Resumed e g T events a (labels ++ [.socketMessage i data (.ok ())])
      (records ++ queuedAt e g s (.socketMessage i data (.ok ())) v) v := by
  obtain ⟨c, hc, hg, hstep, htenant, hsocket⟩ := hs.current
  obtain ⟨he, hgeneration, hi⟩ := hcoherent.only_socket hc i k stream hk hat hstream
  obtain ⟨ht, hT, hafter, hreceived⟩ := hsocket i k stream hk hat hstream
  obtain ⟨_, hk', hopen, _⟩ := Page.of_socket h
  obtain rfl := Option.some.inj (hk.symm.trans hk')
  -- What the stream has delivered is what it promised, up to this message.
  have hhandlers := message_handlers (lived_step hcoherent hc hg rfl h)
  have hk' := congrArg (·[i]?) hhandlers
  simp only [getElem?_map, hk, Option.map_some] at hk'
  obtain ⟨k', hk', heq⟩ := Option.map_eq_some_iff.mp hk'
  have he' : k'.endpoint = e := (congrArg (·.1) heq).trans he
  have hstream' : k'.stream = some stream := (congrArg (·.2.1) heq).trans hstream
  obtain ⟨cursors, hprefix, hcursors⟩ :=
    prefix_map_iff.mp (hserved i k' stream hk' he' hstream' (hgeneration.trans hg))
  rw [received_message, map_append, hreceived] at hcursors
  obtain ⟨old, new, rfl, hold, hnew⟩ := map_eq_append_iff.mp hcursors.symm
  have hold' := map_injective_iff.mpr (Option.some_injective ℕ) hold
  subst hold'
  obtain ⟨x, rfl⟩ : ∃ x, new = [x] := by
    refine length_eq_one_iff.mp ?_
    simpa using congrArg List.length hnew
  obtain ⟨hlt, hnext⟩ := Feed.between_next hevents hafter hprefix
  obtain ⟨record, cursor, rfl, hrecordTenant, hrecordCursor, rfl⟩ :=
    cursorFor_eq_some (head_eq_of_cons_eq hnew).symm
  subst hT he
  have hnews : c.persistedCursor < cursor := by
    rw [hstep _ ht, UInt64.lt_iff_toNat_lt]
    exact hlt
  have hv := message_accepted hk hopen hat hstream hrecordCursor hrecordTenant hc
    (hgeneration.symm) ht hnews
  rw [h] at hv
  cases hv
  rw [queuedAt_accept hk hstream (hgeneration.trans hg) hrecordCursor hrecordTenant]
  have hall := Feed.between_append hevents hs.start (Nat.le_of_lt hlt)
  have hstream_all := Feed.between_append hevents hafter (Nat.le_of_lt hlt)
  rw [hnext] at hall hstream_all
  refine ⟨⟨_, Page.cloud?_setCloud, hg, fun T' hT => ?_, htenant, fun j k₁ stream₁ hk₁ hat₁ hs₁ => ?_⟩,
    fun j hj => ?_, ?_, ?_, ?_, ?_⟩
  · rw [ht] at hT
    cases hT
    exact storedCursor_accept.symm
  · obtain ⟨_, _, hj⟩ := hcoherent.only_socket hc j k₁ stream₁ hk₁ hat₁ hs₁
    rw [hi] at hj
    cases hj
    have hsame : some k₁ = some k := hk₁.symm.trans hk
    cases hsame
    rw [hstream] at hs₁
    cases hs₁
    rw [storedCursor_accept, received_message, map_append, hreceived, ← hstream_all,
      map_append, hnew]
    exact ⟨ht, rfl, Nat.le_trans hafter (Nat.le_of_lt hlt), rfl⟩
  · have hne : i ≠ j := by
      rintro rfl
      obtain ⟨hlen, _⟩ := List.getElem?_eq_some_iff.mp hk
      exact absurd hlen (Nat.not_lt.mpr hj)
    rw [received_concat fun data access heq => hne (by cases heq; rfl)]
    exact hs.unused j hj
  · rw [storedCursor_accept, map_append, hs.queued, ← hall]
    rfl
  · intro r hr
    rcases mem_append.mp hr with hr | hr
    · exact hs.tenant r hr
    · rw [mem_singleton.mp hr]
  · rw [storedCursor_accept]
    exact Nat.le_trans hs.start (Nat.le_of_lt hlt)
  · intro x hx
    rw [map_append, map_singleton, getLast?_concat] at hx
    cases hx
    rw [accept_localStorage, Function.update_self]

/-- Another page has written under another key. -/
theorem write_resumed {key : Str} (value : Option Str)
    (hs : Resumed e g T events a labels records s) (hkey : key ≠ cursorStorageKey e T) :
    Resumed e g T events a labels records
      { s with localStorage := Function.update s.localStorage key value } := by
  have hstored := @storedCursor_update s e T key value hkey
  obtain ⟨c, hc, hg, hstep, htenant, hsocket⟩ := hs.current
  refine ⟨⟨c, hc, hg, fun T' hT => ?_, htenant, fun i k stream hk hat hstream => ?_⟩, hs.unused, ?_,
    hs.tenant, ?_, fun x hx => ?_⟩
  · obtain rfl := htenant T' hT
    rw [hstored]
    exact hstep T' hT
  · rw [hstored]
    exact hsocket i k stream hk hat hstream
  · rw [hstored]
    exact hs.queued
  · rw [hstored]
    exact hs.start
  · rw [← hs.last x hx]
    exact Function.update_of_ne (Ne.symm hkey) _ _

theorem resumed_step (hevents : events.Pairwise (· < ·))
    (hs : Resumed e g T events a labels records s) (hcoherent : Coherent initial s)
    (hl : l.Lasting e) (hwrite : ∀ key value, l = .otherPage key value → key ≠ cursorStorageKey e T)
    (hticket : ∀ T' access opens, l = .ticketDone e g (.ok T') access opens → T' = T)
    (h : s.step l = some v) (hserved : Served e g T events v (labels ++ [l])) :
    Resumed e g T events a (labels ++ [l]) (records ++ queuedAt e g s l v) v := by
  by_cases hmessage : ∃ i data access k stream, l = .socketMessage i data access ∧
      s.sockets[i]? = some k ∧ k.attached ∧ k.stream = some stream
  · obtain ⟨i, data, access, k, stream, rfl, hk, hat, hstream⟩ := hmessage
    obtain rfl : access = .ok () := hl
    exact resumed_message hevents hs hcoherent hk hat hstream h hserved
  · obtain ⟨c, hc, hg, _⟩ := hs.current
    have hs' : Resumed e g T events a (labels ++ [l]) records s := by
      refine hs.extend fun i data access hl => ⟨?_, fun k stream hk hat hstream =>
        hmessage ⟨i, data, access, k, stream, hl, hk, hat, hstream⟩⟩
      subst hl
      obtain ⟨k, hk, _⟩ := Option.bind_eq_some_iff.mp h
      exact (List.getElem?_eq_some_iff.mp hk).1
    generalize hnew : queuedAt e g s l v = new
    have hlived := lived_step hcoherent hc hg hl.kept h
    rw [hnew] at hlived
    cases hlived with
    | quiet hv =>
      rw [append_nil]
      exact hv.resumed hs'
    | write key value =>
      rw [append_nil]
      exact write_resumed value hs' (hwrite key value rfl)
    | @prepare c c' tenantId access opens u w _ hu hc hg hw hv =>
      rw [append_nil]
      obtain rfl := hticket tenantId _ _ rfl
      obtain rfl : access = .ok () := hl
      exact hv.resumed (hw.resumed (hu.resumed hs') hc)
    | @connect c c' tenantId access u w hu hc hg hw =>
      rw [append_nil]
      obtain rfl := hticket tenantId _ _ rfl
      obtain rfl : access = .ok () := hl
      obtain ⟨hw', hc', ht⟩ := hw.coherent (hu.coherent hcoherent) hc
      exact connect_resumed (hw.resumed (hu.resumed hs') hc) hw' hc' ht
    | queue hk hat hstream => exact absurd ⟨_, _, _, _, _, rfl, hk, hat, hstream⟩ hmessage

end ExactlyOnce

/-- Over the life of a connection that stays with one tenant, during which the storage answers, no
other page writes its cursor and each stream delivers the events after the position it was opened
with: at every moment what has been queued is an initial part of the events after the position
stored at first, and the stored cursor is the last one queued. -/
theorem queued_exactly_once (storage : Str → Option Str) (before : List PageEvent)
    (s v t : Page) (e : Endpoint) (opens : Except Str Unit) (startup : Bool)
    (c : CloudConnection) (labels : List PageEvent) (T : TenantId) (events : List ℕ)
    (hs : Runs.run Page.step (Page.start storage) before = some s) (hnone : s.cloud? e = none)
    (hadd : s.step (.add (.cloudApi e) opens startup) = some v) (hc : v.cloud? e = some c)
    (hr : Runs.run Page.step v labels = some t) (hl : ∀ l ∈ labels, l.Lasting e)
    (hwrite : ∀ key value, .otherPage key value ∈ labels → key ≠ cursorStorageKey e T)
    (hticket : ∀ T' access opens, .ticketDone e c.generation (.ok T') access opens ∈ labels → T' = T)
    (hevents : events.Pairwise (· < ·))
    (hserved : Served e c.generation T events t labels) :
    (∀ record ∈ queued e c.generation v labels, record.1 = T) ∧
      (queued e c.generation v labels).map (·.2.toNat) <+:
        Feed.after (v.storedCursor e T).toNat events ∧
      ((queued e c.generation v labels).map (·.2.toNat)).Pairwise (· < ·) ∧
      ∀ x, ((queued e c.generation v labels).map (·.2.toNat)).getLast? = some x →
        t.localStorage (cursorStorageKey e T) = some (Numeral.print x) := by
  have hv : Coherent .legacy v := coherent_step (coherent_run hs) hadd
  have hfree : ∀ (i : ℕ) k stream, v.sockets[i]? = some k → k.attached → k.stream ≠ some stream := by
    intro i k stream hk hat hstream
    have hsocket := (hv.only_socket hc i k stream hk hat hstream).2.2
    rw [added_cloud hnone hadd hc] at hsocket
    cases hsocket
  have hstart : Resumed e c.generation T events (v.storedCursor e T).toNat [] [] v := by
    refine ⟨⟨c, hc, rfl, fun T' hT => ?_, fun T' hT => ?_, fun i k stream hk hat hstream => ?_⟩,
      fun _ _ => rfl, Feed.between_self.symm, nofun, Nat.le_refl _, nofun⟩
    · rw [added_cloud hnone hadd hc] at hT
      cases hT
    · rw [added_cloud hnone hadd hc] at hT
      cases hT
    · exact absurd hstream (hfree i k stream hk hat)
  have ht : Resumed e c.generation T events (v.storedCursor e T).toNat labels
      (queued e c.generation v labels) t := by
    revert hl hwrite hticket hserved
    refine Runs.run_history (I := fun labels t => (∀ l ∈ labels, l.Lasting e) →
      (∀ key value, .otherPage key value ∈ labels → key ≠ cursorStorageKey e T) →
      (∀ T' access opens, .ticketDone e c.generation (.ok T') access opens ∈ labels → T' = T) →
      Served e c.generation T events t labels →
      Resumed e c.generation T events (v.storedCursor e T).toNat labels
        (queued e c.generation v labels) t) (fun _ _ _ _ => hstart) ?_ hr
    intro labels u l w hu ih hw hl hwrite hticket hserved
    have hu' := ih (fun l h => hl l (mem_append_left _ h))
      (fun key value h => hwrite key value (mem_append_left _ h))
      (fun T' access opens h => hticket T' access opens (mem_append_left _ h))
      (hserved.of_append (Runs.run_cons.mpr ⟨w, hw, rfl⟩))
    have hcoherent : Coherent .legacy u :=
      Runs.run_invariant (I := Coherent .legacy) (fun _ _ _ hs h => coherent_step hs h) hu hv
    rw [queued_concat hu hw]
    refine resumed_step hevents hu' hcoherent (hl l (by simp)) (fun key value h => ?_)
      (fun T' access opens h => ?_) hw hserved
    · exact hwrite key value (by simp [h])
    · exact hticket T' access opens (by simp [h])
  refine ⟨ht.tenant, ?_, ?_, ht.last⟩
  · rw [ht.queued]
    exact Feed.between_isPrefix hevents
  · rw [ht.queued]
    exact hevents.filter _

/-- Two streams of one connection, each with a record. -/
def twoStreams : List PageEvent :=
  [.ticketDone ['a'] 1 (.ok ⟨0⟩) (.ok ()) (.ok ()), .socketOpened 0,
    .socketMessage 0 (.ok ⟨.logs [], some 5, some ⟨0⟩⟩) (.ok ()), .socketClosed 0 true 1000 [],
    .timerFired ⟨['a'], 1, 1⟩, .ticketDone ['a'] 1 (.ok ⟨0⟩) (.ok ()) (.ok ()), .socketOpened 1,
    .socketMessage 1 (.ok ⟨.logs [], some 7, some ⟨0⟩⟩) (.ok ())]

theorem queued_exactly_once_sample :
    ∃ v t c, (Page.start fun _ => none).step (.add (.cloudApi ['a']) (.ok ()) false) = some v ∧
      v.cloud? ['a'] = some c ∧ Runs.run Page.step v twoStreams = some t ∧
      (queued ['a'] c.generation v twoStreams).map (·.2.toNat) = [5, 7] ∧
      (queued ['a'] c.generation v twoStreams).map (·.2.toNat) <+:
        Feed.after (v.storedCursor ['a'] ⟨0⟩).toNat [5, 7] := by
  have hrun : ((Page.start fun _ => none).step (.add (.cloudApi ['a']) (.ok ()) false)).bind (fun v =>
      (v.cloud? ['a']).bind fun c => (Runs.run Page.step v twoStreams).map fun t =>
        (c.generation, (queued ['a'] c.generation v twoStreams).map (·.2.toNat),
          t.sockets.map Socket.identity)) =
      some (1, [5, 7], [(['a'], some ⟨1, ⟨0⟩, 0⟩), (['a'], some ⟨1, ⟨0⟩, 5⟩)]) := by
    decide +kernel
  obtain ⟨v, hv, hrest⟩ := Option.bind_eq_some_iff.mp hrun
  obtain ⟨c, hc, hrest⟩ := Option.bind_eq_some_iff.mp hrest
  obtain ⟨t, ht, hrest⟩ := Option.map_eq_some_iff.mp hrest
  obtain ⟨hg, hqueued, hsockets⟩ := by simpa only [Prod.mk.injEq] using hrest
  refine ⟨v, t, c, hv, hc, ht, hqueued, (queued_exactly_once _ [] _ v t ['a'] (.ok ()) false c _ ⟨0⟩
    [5, 7] rfl rfl hv hc ht ?_ ?_ ?_ (by decide) ?_).2.1⟩
  · intro l hl
    simp only [twoStreams, mem_cons, not_mem_nil, or_false] at hl
    rcases hl with rfl | rfl | rfl | rfl | rfl | rfl | rfl | rfl <;>
      first | exact rfl | exact trivial
  · simp [twoStreams]
  · intro T' access opens hT
    simp only [twoStreams, mem_cons, not_mem_nil, reduceCtorEq, or_false, false_or,
      PageEvent.ticketDone.injEq, Except.ok.injEq] at hT
    rcases hT with ⟨_, _, hT, _⟩ | ⟨_, _, hT, _⟩ <;> exact hT
  · intro i k stream hk _ hstream _
    have hi : (t.sockets.map Socket.identity)[i]? = some k.identity := by
      rw [getElem?_map, hk]
      rfl
    rw [hsockets] at hi
    match i with
    | 0 =>
      have heq : some stream = some ⟨1, ⟨0⟩, 0⟩ :=
        hstream.symm.trans (congrArg (·.2) (Option.some.inj hi)).symm
      cases heq
      decide
    | 1 =>
      have heq : some stream = some ⟨1, ⟨0⟩, 5⟩ :=
        hstream.symm.trans (congrArg (·.2) (Option.some.inj hi)).symm
      cases heq
      decide
    | i + 2 => cases hi

end SkidMonitor.Browser
