import SkidMonitor.Core.Envelope
import SkidMonitor.Lib.Numeral
import SkidMonitor.Lib.Run

/-! `OtlpExporter::export`: its retry loop, and any number of exports side by side. -/
namespace SkidMonitor

/-- The statuses an export request is answered with. -/
inductive Code where
  | ok
  | cancelled
  | unknown
  | invalidArgument
  | deadlineExceeded
  | notFound
  | alreadyExists
  | permissionDenied
  | resourceExhausted
  | failedPrecondition
  | aborted
  | outOfRange
  | unimplemented
  | internal
  | unavailable
  | dataLoss
  | unauthenticated
  deriving DecidableEq, Repr

structure Status where
  code : Code
  message : String
  deriving DecidableEq, Repr

def otlpMaxAttempts : ℕ := 3
def otlpRetryBaseDelayMillis : ℕ := 100

inductive RetryDecision where
  | retry
  | refreshAuth
  | stop
  deriving DecidableEq, Repr

def retryDecision (code : Code) (hasAuth refreshedAuth : Bool) : RetryDecision :=
  if [Code.unavailable, .deadlineExceeded, .unknown, .resourceExhausted, .aborted].contains code then
    .retry
  else if code = .unauthenticated && hasAuth && !refreshedAuth then .refreshAuth
  else .stop

def retryBackoffMillis (completedAttempts : ℕ) : ℕ :=
  otlpRetryBaseDelayMillis * 2 ^ min (completedAttempts - 1) 2

inductive ExportAttemptError where
  | prepare (message : String)
  | grpc (status : Status)
  deriving DecidableEq, Repr

/-- Why an export failed: without a sequence, before a request was built, or with the
status of its last attempt. -/
inductive ExportError where
  | sequence (message : String)
  | prepare (message : String)
  | grpc (kind : SignalKind) (attempts : ℕ) (status : Status)
  deriving DecidableEq, Repr

/-- The loop variables of an export. -/
structure Loop where
  attempt : ℕ
  refreshedAuth : Bool
  deriving DecidableEq, Repr

def Loop.start : Loop := ⟨1, false⟩

/-- What an export does after an attempt. -/
inductive Next where
  | done (result : Except ExportError Unit)
  | again (invalidate : Bool) (sleepMillis : ℕ) (loop : Loop)

/-- The body of the loop once its attempt has ended. -/
def Loop.next (loop : Loop) (hasAuth : Bool) (kind : SignalKind) :
    Except ExportAttemptError Unit → Next
  | .ok () => .done (.ok ())
  | .error (.prepare message) => .done (.error (.prepare message))
  | .error (.grpc status) =>
    let decision := retryDecision status.code hasAuth loop.refreshedAuth
    if loop.attempt = otlpMaxAttempts || decision = .stop then
      .done (.error (.grpc kind loop.attempt status))
    else
      .again (decision = .refreshAuth) (retryBackoffMillis loop.attempt)
        ⟨loop.attempt + 1, loop.refreshedAuth || decision = .refreshAuth⟩

/-- The token is given up at most once, and no attempt follows the last one. -/
theorem Loop.next_again {loop loop' : Loop} {hasAuth invalidate : Bool} {kind : SignalKind}
    {outcome : Except ExportAttemptError Unit} {millis : ℕ}
    (h : loop.next hasAuth kind outcome = .again invalidate millis loop') :
    loop.attempt ≠ otlpMaxAttempts ∧ loop'.attempt = loop.attempt + 1 ∧
      loop'.refreshedAuth.toNat = loop.refreshedAuth.toNat + invalidate.toNat := by
  rcases outcome with (message | status) | _
  · cases h
  · simp only [Loop.next] at h
    split at h
    · cases h
    · rename_i hgo
      cases h
      simp only [Bool.or_eq_true, decide_eq_true_eq, not_or] at hgo
      refine ⟨hgo.1, rfl, ?_⟩
      by_cases hrefresh : retryDecision status.code hasAuth loop.refreshedAuth = .refreshAuth
      · -- A refresh is decided only while there has been none.
        have hfirst : loop.refreshedAuth = false := by
          unfold retryDecision at hrefresh
          split_ifs at hrefresh with _ hauth
          simpa using (Bool.and_eq_true_iff.mp hauth).2
        simp [hfirst]
      · simp [hrefresh]
  · cases h

/-- Success is the success of an attempt. -/
theorem Loop.next_ok {loop : Loop} {hasAuth : Bool} {kind : SignalKind}
    {outcome : Except ExportAttemptError Unit}
    (h : loop.next hasAuth kind outcome = .done (.ok ())) : outcome = .ok () := by
  rcases outcome with (message | status) | _
  · cases h
  · simp only [Loop.next] at h
    split at h <;> cases h
  · rfl

inductive Phase where
  | ready
  | waiting
  | ended (result : Except ExportError Unit)
  deriving DecidableEq

/-- One call of `export`. -/
structure Export where
  signal : Signal
  sequence : Option UInt64
  loop : Loop
  invalidations : ℕ
  phase : Phase

/-- A request of one attempt: its sequence travels as text. -/
structure Request where
  exportId : ℕ
  attempt : ℕ
  header : Str
  signal : Signal
  deriving DecidableEq, Repr

/-- The exporter with its calls, the requests sent and the sequence allocated last. -/
structure Exporter where
  hasAuth : Bool
  last : ℕ
  exports : ℕ → Option Export
  requests : List Request

inductive ExporterEvent where
  | begin (e : ℕ) (signal : Signal) (sequence : UInt64)
  | unallocated (e : ℕ) (signal : Signal) (message : String)
  | send (e : ℕ)
  | attempted (e : ℕ) (outcome : Except ExportAttemptError Unit)

def Signal.kind : Signal → SignalKind
  | .metrics _ => .metrics
  | .traces _ => .traces
  | .logs _ => .logs

/-- The export once its attempt has ended. -/
def Export.after (x : Export) (hasAuth : Bool) (outcome : Except ExportAttemptError Unit) : Export :=
  match x.loop.next hasAuth x.signal.kind outcome with
  | .done result => { x with phase := .ended result }
  | .again invalidate _ loop =>
    { x with loop := loop, invalidations := x.invalidations + invalidate.toNat, phase := .ready }

@[simp] theorem Export.after_sequence (x : Export) (hasAuth : Bool)
    (outcome : Except ExportAttemptError Unit) : (x.after hasAuth outcome).sequence = x.sequence := by
  unfold Export.after
  split <;> rfl

@[simp] theorem Export.after_signal (x : Export) (hasAuth : Bool)
    (outcome : Except ExportAttemptError Unit) : (x.after hasAuth outcome).signal = x.signal := by
  unfold Export.after
  split <;> rfl

/-- An export that has sent `n` requests is within the limits of its loop. -/
structure Export.Within (x : Export) (n : ℕ) : Prop where
  attempt : x.loop.attempt ≤ otlpMaxAttempts
  invalidations : x.invalidations = x.loop.refreshedAuth.toNat
  sent : n ≤ x.loop.attempt
  ready : x.phase = .ready → n + 1 = x.loop.attempt
  waiting : x.phase = .waiting → n = x.loop.attempt

theorem Export.within_start (signal : Signal) (sequence : Option UInt64) {phase : Phase}
    (h : phase ≠ .waiting) : (Export.mk signal sequence .start 0 phase).Within 0 :=
  ⟨show 1 ≤ 3 by decide, rfl, Nat.zero_le _, fun _ => rfl, fun hw => (h hw).elim⟩

theorem Export.Within.after {x : Export} {n : ℕ} (h : x.Within n) (hasAuth : Bool)
    {outcome : Except ExportAttemptError Unit}
    (hphase : (∃ message, outcome = .error (.prepare message)) ∨ n = x.loop.attempt) :
    (x.after hasAuth outcome).Within n := by
  unfold Export.after
  split
  · exact ⟨h.attempt, h.invalidations, h.sent, nofun, nofun⟩
  · rename_i invalidate millis loop hnext
    obtain ⟨hlast, hattempt, hrefresh⟩ := Loop.next_again hnext
    have hmax := h.attempt
    have hsent := h.sent
    refine ⟨?_, ?_, ?_, fun _ => ?_, nofun⟩
    · change loop.attempt ≤ _
      omega
    · change x.invalidations + invalidate.toNat = loop.refreshedAuth.toNat
      rw [hrefresh, h.invalidations]
    · change n ≤ loop.attempt
      omega
    · change n + 1 = loop.attempt
      rcases hphase with ⟨message, rfl⟩ | hn
      · cases hnext
      · omega

namespace Exporter

variable (s : Exporter)

def set (e : ℕ) (x : Export) : Exporter := { s with exports := Function.update s.exports e (some x) }

def allocate (sequence : UInt64) : Exporter := { s with last := sequence.toNat }

def post (r : Request) : Exporter := { s with requests := s.requests ++ [r] }

/-- A request is built before it is sent, and only a sent one is answered. -/
def step : ExporterEvent → Option Exporter
  | .begin e signal sequence =>
    match s.exports e with
    | some _ => none
    | none =>
      if s.last < sequence.toNat then
        some ((s.allocate sequence).set e ⟨signal, some sequence, .start, 0, .ready⟩)
      else none
  | .unallocated e signal message =>
    match s.exports e with
    | some _ => none
    | none => some (s.set e ⟨signal, none, .start, 0, .ended (.error (.sequence message))⟩)
  | .send e =>
    match s.exports e with
    | some ⟨signal, some sequence, loop, invalidations, .ready⟩ =>
      some ((s.post ⟨e, loop.attempt, Numeral.print sequence.toNat, signal⟩).set e
        ⟨signal, some sequence, loop, invalidations, .waiting⟩)
    | _ => none
  | .attempted e outcome =>
    match s.exports e with
    | some x =>
      match x.phase, outcome with
      | .ready, .error (.prepare _) | .waiting, .error (.grpc _) | .waiting, .ok () =>
        some (s.set e (x.after s.hasAuth outcome))
      | _, _ => none
    | none => none

variable {s} {t : Exporter} {e : ℕ} {x : Export} {ev : ExporterEvent}

/-- How many requests an export has sent. -/
def sentBy (s : Exporter) (e : ℕ) : ℕ := s.requests.countP (·.exportId = e)

@[simp] theorem set_self (s : Exporter) (e : ℕ) (x : Export) : (s.set e x).exports e = some x := by
  simp [set]

theorem set_ne (s : Exporter) {e e' : ℕ} (x : Export) (h : e' ≠ e) :
    (s.set e x).exports e' = s.exports e' := by simp [set, h]

/-- Everything an event can do, with what it needs: it leaves one export with a new value, and the
rest of the exporter as the last argument says. -/
inductive Moves (s : Exporter) : ExporterEvent → ℕ → Export → Exporter → Prop
  | begin {e : ℕ} {signal : Signal} {q : UInt64} (hnone : s.exports e = none)
    (hlt : s.last < q.toNat) :
    Moves s (.begin e signal q) e ⟨signal, some q, .start, 0, .ready⟩ (s.allocate q)
  | unallocated {e : ℕ} {signal : Signal} {message : String} (hnone : s.exports e = none) :
    Moves s (.unallocated e signal message) e
      ⟨signal, none, .start, 0, .ended (.error (.sequence message))⟩ s
  | send {e : ℕ} {x : Export} {q : UInt64} (hx : s.exports e = some x) (hq : x.sequence = some q)
    (hready : x.phase = .ready) :
    Moves s (.send e) e { x with phase := .waiting }
      (s.post ⟨e, x.loop.attempt, Numeral.print q.toNat, x.signal⟩)
  | attempted {e : ℕ} {x : Export} {outcome : Except ExportAttemptError Unit}
    (hx : s.exports e = some x)
    (hphase : (∃ message, outcome = .error (.prepare message)) ∨ x.phase = .waiting) :
    Moves s (.attempted e outcome) e (x.after s.hasAuth outcome) s

theorem moves_step (h : s.step ev = some t) : ∃ e x u, Moves s ev e x u ∧ t = u.set e x := by
  unfold step at h
  split at h
  · split at h
    · cases h
    · split at h <;> cases h
      exact ⟨_, _, _, .begin ‹_› ‹_›, rfl⟩
  · split at h <;> cases h
    exact ⟨_, _, _, .unallocated ‹_›, rfl⟩
  · split at h <;> cases h
    exact ⟨_, _, _, .send ‹_› rfl rfl, rfl⟩
  · split at h
    · rename_i x hx
      split at h <;> cases h
      · exact ⟨_, _, _, .attempted hx (.inl ⟨_, rfl⟩), rfl⟩
      · exact ⟨_, _, _, .attempted hx (.inr ‹_›), rfl⟩
      · exact ⟨_, _, _, .attempted hx (.inr ‹_›), rfl⟩
    · cases h

section Frame
variable {u : Exporter} {y : Export}

theorem Moves.exports (h : Moves s ev e x u) : u.exports = s.exports := by cases h <;> rfl

theorem Moves.requests (h : Moves s ev e x u) : s.requests ⊆ u.requests := by
  cases h with
  | send => exact List.subset_append_left _ _
  | _ => exact List.Subset.refl _

/-- The signal and the sequence of an export stay. -/
theorem Moves.kept (h : Moves s ev e x u) (hy : s.exports e = some y) :
    x.sequence = y.sequence ∧ x.signal = y.signal := by
  cases h with
  | begin hnone | unallocated hnone => cases hnone.symm.trans hy
  | send hx =>
    cases hx.symm.trans hy
    exact ⟨rfl, rfl⟩
  | attempted hx =>
    cases hx.symm.trans hy
    exact ⟨by simp, by simp⟩

/-- A request is sent for the export that is touched. -/
theorem Moves.sentBy_ne {e' : ℕ} (h : Moves s ev e x u) (he : e' ≠ e) :
    (u.set e x).sentBy e' = s.sentBy e' := by
  cases h with
  | send => simp [sentBy, set, post, Ne.symm he]
  | _ => rfl

/-- An export has been touched, or it is as it was. -/
theorem at_step (h : s.step ev = some t) (hx : t.exports e = some x) :
    (∃ u, Moves s ev e x u ∧ t = u.set e x) ∨ s.exports e = some x ∧ t.sentBy e = s.sentBy e := by
  obtain ⟨e', y, u, hmoves, rfl⟩ := moves_step h
  by_cases he : e = e'
  · subst he
    rw [set_self] at hx
    cases hx
    exact .inl ⟨u, hmoves, rfl⟩
  · rw [set_ne _ _ he, hmoves.exports] at hx
    exact .inr ⟨hx, hmoves.sentBy_ne he⟩

end Frame

/-- A step leaves an export its signal and its sequence. -/
theorem kept_step (h : s.step ev = some t) (hx : s.exports e = some x) :
    ∃ y, t.exports e = some y ∧ y.sequence = x.sequence ∧ y.signal = x.signal := by
  obtain ⟨e', y, u, hmoves, rfl⟩ := moves_step h
  by_cases he : e = e'
  · subst he
    exact ⟨y, set_self _ _ _, hmoves.kept hx⟩
  · exact ⟨x, (set_ne _ _ he).trans (hmoves.exports ▸ hx), rfl, rfl⟩

theorem requests_step (h : s.step ev = some t) : s.requests ⊆ t.requests := by
  obtain ⟨_, _, _, hmoves, rfl⟩ := moves_step h
  exact hmoves.requests

/-- An export ends with success by an attempt that does. -/
theorem succeeded_step (h : s.step ev = some t) (hx : t.exports e = some x)
    (hp : x.phase = .ended (.ok ())) : s.exports e = some x ∨ ev = .attempted e (.ok ()) := by
  obtain ⟨u, hmoves, _⟩ | ⟨hold, _⟩ := at_step h hx
  · cases hmoves with
    | attempted _ _ =>
      unfold Export.after at hp
      split at hp
      · rename_i result hnext
        cases hp
        exact .inr (by rw [Loop.next_ok hnext])
      · cases hp
    | _ => cases hp
  · exact .inl hold

/-- Limits, requests and sequences of the exports. -/
structure Sound (s : Exporter) : Prop where
  within : ∀ e x, s.exports e = some x → x.Within (s.sentBy e)
  carried : ∀ r ∈ s.requests, ∃ x q, s.exports r.exportId = some x ∧ x.sequence = some q ∧
    r.header = Numeral.print q.toNat ∧ r.signal = x.signal
  allocated : ∀ e x q, s.exports e = some x → x.sequence = some q → q.toNat ≤ s.last
  distinct : ∀ e e' x y q, s.exports e = some x → s.exports e' = some y → x.sequence = some q →
    y.sequence = some q → e = e'

theorem last_step (h : s.step ev = some t) : s.last ≤ t.last := by
  obtain ⟨_, _, _, hmoves, rfl⟩ := moves_step h
  cases hmoves with
  | begin _ hlt => exact Nat.le_of_lt hlt
  | _ => exact Nat.le_refl _

/-- A sequence was there before, or it is the one just allocated. -/
theorem sequence_step {q : UInt64} (h : s.step ev = some t) (hx : t.exports e = some x)
    (hq : x.sequence = some q) : (∃ y, s.exports e = some y ∧ y.sequence = some q) ∨
      ∃ signal, ev = .begin e signal q ∧ s.last < q.toNat ∧ t.last = q.toNat := by
  obtain ⟨u, hmoves, rfl⟩ | ⟨hold, _⟩ := at_step h hx
  · cases hmoves with
    | begin _ hlt =>
      cases hq
      exact .inr ⟨_, rfl, hlt, rfl⟩
    | unallocated => cases hq
    | send hy => exact .inl ⟨_, hy, hq⟩
    | attempted hy => exact .inl ⟨_, hy, by simpa using hq⟩
  · exact .inl ⟨x, hold, hq⟩

theorem Sound.sentBy_none (hs : s.Sound) (he : s.exports e = none) : s.sentBy e = 0 := by
  rw [sentBy, List.countP_eq_zero]
  intro r hr
  obtain ⟨x, _, hx, _⟩ := hs.carried r hr
  simp only [decide_eq_true_eq]
  rintro rfl
  cases he.symm.trans hx

theorem within_step (hs : s.Sound) (h : s.step ev = some t) (hx : t.exports e = some x) :
    x.Within (t.sentBy e) := by
  obtain ⟨u, hmoves, rfl⟩ | ⟨hold, hsent⟩ := at_step h hx
  · cases hmoves with
    | begin hnone | unallocated hnone =>
      exact (hs.sentBy_none hnone).symm ▸ Export.within_start _ _ nofun
    | @send _ y q hy _ hready =>
      have hw := hs.within e y hy
      have hcount : ((s.post ⟨e, y.loop.attempt, Numeral.print q.toNat, y.signal⟩).set e
          { y with phase := .waiting }).sentBy e = s.sentBy e + 1 := by
        simp [sentBy, set, post]
      rw [hcount]
      exact ⟨hw.attempt, hw.invalidations, (hw.ready hready).le, nofun, fun _ => hw.ready hready⟩
    | attempted hy hphase =>
      have hw := hs.within e _ hy
      exact hw.after s.hasAuth (hphase.imp_right hw.waiting)
  · exact hsent ▸ hs.within e x hold

theorem carried_step (hs : s.Sound) (h : s.step ev = some t) {r : Request} (hr : r ∈ t.requests) :
    ∃ x q, t.exports r.exportId = some x ∧ x.sequence = some q ∧
      r.header = Numeral.print q.toNat ∧ r.signal = x.signal := by
  by_cases hmem : r ∈ s.requests
  · obtain ⟨x, q, hx, hq, hheader, hsignal⟩ := hs.carried r hmem
    obtain ⟨y, hy, hyq, hys⟩ := kept_step h hx
    exact ⟨y, q, hy, hyq.trans hq, hheader, hsignal.trans hys.symm⟩
  · obtain ⟨e', y, u, hmoves, rfl⟩ := moves_step h
    cases hmoves with
    | send hx hq =>
      obtain rfl := List.mem_singleton.mp ((List.mem_append.mp hr).resolve_left hmem)
      exact ⟨_, _, set_self _ _ _, hq, rfl, rfl⟩
    | _ => exact absurd hr hmem

theorem sound_step (hs : s.Sound) (h : s.step ev = some t) : t.Sound where
  within _ _ := within_step hs h
  carried _ := carried_step hs h
  allocated e x q hx hq := by
    rcases sequence_step h hx hq with ⟨y, hy, hyq⟩ | ⟨_, _, _, hlast⟩
    · exact (hs.allocated e y q hy hyq).trans (last_step h)
    · exact hlast.ge
  distinct e e' x y q hx hy hxq hyq := by
    -- A sequence just allocated lies above all those that were there.
    rcases sequence_step h hx hxq with ⟨x', hx', hxq'⟩ | ⟨_, hev, hlt, _⟩ <;>
      rcases sequence_step h hy hyq with ⟨y', hy', hyq'⟩ | ⟨_, hev', hlt', _⟩
    · exact hs.distinct e e' x' y' q hx' hy' hxq' hyq'
    · have := hs.allocated e x' q hx' hxq'
      omega
    · have := hs.allocated e' y' q hy' hyq'
      omega
    · cases hev.symm.trans hev'
      rfl

end Exporter

end SkidMonitor
