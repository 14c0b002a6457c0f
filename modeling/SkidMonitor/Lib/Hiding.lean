import SkidMonitor.Lib.Trace

/-! Calls on a database that cannot tell whether other calls are made. Some of the calls are kept
and the others are hidden; the kept ones may be given other identity values, which then appear
renamed in what they say and in what they are told. -/

namespace Prog

open List

variable {S : Type} {R : S → Type} {ε α α' β β' : Type}

/-- `q` is `p` with its statements renamed by `φ`, for answers renamed by `ρ`, and with its result
renamed by `g`. -/
def Renamed (φ : S → S) (ρ : (st : S) → R st → R (φ st)) (g : α → α') :
    Prog S R ε α → Prog S R ε α' → Prop
  | ok a, q => q = ok (g a)
  | err e, q => q = err e
  | query st k, q => ∃ k', q = query (φ st) k' ∧ ∀ r, (k r).Renamed φ ρ g (k' (ρ st r))

variable {φ : S → S} {ρ : (st : S) → R st → R (φ st)} {g : α → α'} {h : β → β'}

theorem renamed_ok (a : α) : (ok a : Prog S R ε α).Renamed φ ρ g (ok (g a)) := rfl

theorem renamed_err (e : ε) : (err e : Prog S R ε α).Renamed φ ρ g (err e) := rfl

theorem Renamed.bind {p : Prog S R ε α} {q : Prog S R ε α'} {f : α → Prog S R ε β}
    {f' : α' → Prog S R ε β'} (hp : p.Renamed φ ρ g q)
    (hf : ∀ a, (f a).Renamed φ ρ h (f' (g a))) : (p >>= f).Renamed φ ρ h (q >>= f') := by
  induction p generalizing q with
  | ok a =>
    cases hp
    exact hf a
  | err e =>
    cases hp
    exact renamed_err e
  | query st k ih =>
    obtain ⟨k', rfl, hk⟩ := hp
    exact ⟨fun r => k' r >>= f', rfl, fun r => ih r (hk r)⟩

theorem renamed_ite {c c' : Prop} [Decidable c] [Decidable c'] {p p' : Prog S R ε α}
    {q q' : Prog S R ε α'} (hc : c ↔ c') (hp : p.Renamed φ ρ g q) (hp' : p'.Renamed φ ρ g q') :
    (if c then p else p').Renamed φ ρ g (if c' then q else q') := by
  by_cases h : c
  · rw [if_pos h, if_pos (hc.mp h)]
    exact hp
  · rw [if_neg h, if_neg (h ∘ hc.mpr)]
    exact hp'

theorem renamed_ofExcept (x : Except ε α) :
    (ofExcept x : Prog S R ε α).Renamed φ ρ g (ofExcept (x.map g)) := by
  cases x with
  | ok a => exact renamed_ok a
  | error e => exact renamed_err e

end Prog

namespace ReadCommitted

open List

variable {S : Type} {R : S → Type} {D W L C E ε α κ : Type}

def Reading.rename (fresh : ℤ → ℤ) (rd : Reading) : Reading := ⟨rd.now, fresh rd.fresh⟩

def Label.rename (call : κ → κ) (fresh : ℤ → ℤ) : Label κ → Label κ
  | .start i c => .start i (call c)
  | .exec i rd => .exec i (rd.rename fresh)
  | .outage i => .outage i
  | .lostAck i => .lostAck i
  | .finish i => .finish i

/-- The session is started for a call that is not kept. -/
def hides (keeps : κ → Bool) (labels : List (Label κ)) (i : ℕ) : Bool :=
  labels.any fun
    | .start j c => j == i && !keeps c
    | _ => false

/-- The labels of the calls that are kept, renamed. -/
def reduced (keeps : κ → Bool) (call : κ → κ) (fresh : ℤ → ℤ) (labels : List (Label κ)) :
    List (Label κ) :=
  (labels.filter fun l => !hides keeps labels l.session).map (Label.rename call fresh)

/-- What the calls that are kept have returned, renamed. -/
def answers (keeps : κ → Bool) (call : κ → κ) (reply : α → α) (log : List (ℕ × κ × Except ε α)) :
    List (ℕ × κ × Except ε α) :=
  (log.filter fun e => keeps e.2.1).map fun e => (e.1, call e.2.1, e.2.2.map reply)

theorem answers_concat (keeps : κ → Bool) (call : κ → κ) (reply : α → α)
    (log : List (ℕ × κ × Except ε α)) (e : ℕ × κ × Except ε α) :
    answers keeps call reply (log ++ [e]) = answers keeps call reply log ++
      if keeps e.2.1 then [(e.1, call e.2.1, e.2.2.map reply)] else [] := by
  rw [answers, filter_append, map_append]
  congr 1
  cases h : keeps e.2.1 <;> simp [h]

namespace Service

variable {M : Service S R D W L C E ε α κ} {s t : State S R D W L C ε α κ} {l : Label κ}
  {labels : List (Label κ)} {i : ℕ} {c c' : κ}

/-- The identity values that sessions other than those in `hid` draw in a run. -/
def Drawn (M : Service S R D W L C E ε α κ) (hid : ℕ → Bool) (s : State S R D W L C ε α κ)
    (labels : List (Label κ)) (z : ℤ) : Prop :=
  ∃ pre i rd post u x st k, labels = pre ++ .exec i rd :: post ∧ hid i = false ∧
    Runs.run M.step s pre = some u ∧ u.sessions i = some x ∧ x.prog = .query st k ∧
    M.draws st = true ∧ rd.fresh = z

/-- An identity value that is drawn is new. -/
theorem drawn_bounds {hid : ℕ → Bool} {z : ℤ} (hr : Runs.run M.step s labels = some t)
    (h : M.Drawn hid s labels z) : s.past.last < z ∧ z ≤ M.maxIdentity := by
  obtain ⟨pre, i, rd, post, u, x, st, k, rfl, _, hu, hx, hp, hdraws, rfl⟩ := h
  have hlast : s.past.last ≤ u.past.last :=
    Runs.run_rel (I := fun _ => True) (R := fun s t => s.past.last ≤ t.past.last)
      (fun _ => Int.le_refl _) (fun _ _ _ => Int.le_trans) (fun _ _ _ _ _ => trivial)
      (fun _ _ _ _ h => (step_past (step_cases h)).1) trivial hu
  obtain ⟨v, hv, hr⟩ := Runs.run_append.mp hr
  rw [hu, Option.some.injEq] at hv
  subst hv
  obtain ⟨w, hw, _⟩ := Runs.run_cons.mp hr
  have hdrawable : M.drawable u st rd = true := by
    simp only [step, hx, hp] at hw
    split at hw
    · rename_i hguard
      exact (Bool.and_eq_true .. ▸ hguard).2
    · cases hw
  obtain ⟨hlt, hle⟩ := drawable_iff.mp hdrawable hdraws
  exact ⟨Int.lt_of_le_of_lt hlast hlt, hle⟩

theorem calls_nodup_step (h : M.Step s l t) (hs : (s.past.calls.map Prod.fst).Nodup) :
    (t.past.calls.map Prod.fst).Nodup := by
  cases h with
  | start hi => exact nodup_cons.mpr ⟨hi, hs⟩
  | refused | advanced | committed =>
    simpa only [State.set_past, draw_past, after_calls] using hs
  | _ => exact hs

theorem calls_of_start (hr : Runs.run M.step s labels = some t) (hi : .start i c ∈ labels) :
    (i, c) ∈ t.past.calls := by
  obtain ⟨pre, post, rfl⟩ := append_of_mem hi
  obtain ⟨u, _, hr⟩ := Runs.run_append.mp hr
  obtain ⟨v, hv, hr⟩ := Runs.run_cons.mp hr
  apply calls_run hr
  cases step_cases hv with
  | start => exact mem_cons_self

/-- In a run a session is started once. -/
theorem start_unique (hs : s.Idle) (hr : Runs.run M.step s labels = some t)
    (hi : .start i c ∈ labels) (hi' : .start i c' ∈ labels) : c = c' := by
  have hnodup : (t.past.calls.map Prod.fst).Nodup :=
    Runs.run_invariant (I := fun u => (u.past.calls.map Prod.fst).Nodup)
      (fun _ _ _ hs hstep => calls_nodup_step (step_cases hstep) hs) hr (by simp [hs.calls])
  have heq := inj_on_of_nodup_map hnodup (calls_of_start hr hi) (calls_of_start hr hi') rfl
  exact congrArg Prod.snd heq

end Service

/-- Which calls are kept, how what they say is renamed, and what is known of the calls, their
statements and writes. -/
structure Hiding (M : Service S R D W L C E ε α κ) where
  keeps : κ → Bool
  stmt : S → S
  resp : (st : S) → R st → R (stmt st)
  write : W → W
  call : κ → κ
  reply : α → α
  fresh : ℤ → ℤ
  /-- The identity values the kept calls draw. -/
  drawn : ℤ → Prop
  /-- The calls that may be made. -/
  made : κ → Prop
  sends : κ → S → Prop
  settles : κ → C → Prop
  writes : κ → W → Prop
  /-- Tables that look alike to the kept calls, the second ones renamed. -/
  alike : D → D → Prop

variable {M : Service S R D W L C E ε α κ}

namespace Hiding

variable (X : Hiding M)

/-- The kept calls do not see the others, -/
structure Sound : Prop where
  program : ∀ {c}, X.made c → X.keeps c = true →
    (M.program c).Renamed X.stmt X.resp X.reply (M.program (X.call c))
  sends : ∀ c, (M.program c).All (X.sends c)
  commits : ∀ st, M.commits (X.stmt st) = M.commits st
  draws : ∀ st, M.draws (X.stmt st) = M.draws st
  configure : ∀ st rd conn, M.configure (X.stmt st) (rd.rename X.fresh) conn = M.configure st rd conn
  idle : ∀ c, X.settles c M.idle
  settles : ∀ {c st rd conn}, X.sends c st → X.settles c conn →
    X.settles c (M.configure st rd conn)
  /-- their statements are answered alike, -/
  eval : ∀ {c st conn db db' rd}, X.made c → X.keeps c = true → X.sends c st →
    X.settles c conn → X.alike db db' → (M.draws st = true → X.drawn rd.fresh) →
    M.eval (X.stmt st) conn db' (rd.rename X.fresh) =
      (M.eval st conn db rd).map fun r => (X.resp st r.1, r.2.map X.write)
  locks : ∀ {c st conn db db' rd}, X.made c → X.keeps c = true → X.sends c st →
    X.settles c conn → X.alike db db' → (M.draws st = true → X.drawn rd.fresh) →
    M.locks (X.stmt st) conn db' (rd.rename X.fresh) = M.locks st conn db rd
  writes : ∀ {c st conn db rd r ws}, X.made c → X.sends c st →
    (X.keeps c = true → M.draws st = true → X.drawn rd.fresh) →
    M.eval st conn db rd = .ok (r, ws) → ∀ w ∈ ws, X.writes c w
  /-- and the writes of the others do not touch what they see. -/
  shown : ∀ {c w db db'}, X.made c → X.keeps c = true → X.writes c w → X.alike db db' →
    X.alike (M.apply db w) (M.apply db' (X.write w))
  hidden : ∀ {c w db db'}, X.made c → X.keeps c = false → X.writes c w → X.alike db db' →
    X.alike (M.apply db w) db'
  mono : Monotone X.fresh
  strict : ∀ {c x}, X.drawn c → x < c → X.fresh x < X.fresh c
  bounded : ∀ {c}, X.drawn c → c ≤ M.maxIdentity → X.fresh c ≤ M.maxIdentity

/-- What is known of every session. -/
structure Fits (x : Session S R W L C ε α κ) : Prop where
  made : X.made x.call
  sends : x.prog.All (X.sends x.call)
  settles : X.settles x.call x.conn
  writes : ∀ w ∈ x.writes, X.writes x.call w

/-- A kept session and its renaming. -/
structure Twin (x y : Session S R W L C ε α κ) : Prop where
  call : y.call = X.call x.call
  conn : y.conn = x.conn
  held : y.held = x.held
  writes : y.writes = x.writes.map X.write
  prog : x.prog.Renamed X.stmt X.resp X.reply y.prog

/-- A session, which is hidden or not, and what is left of it. -/
inductive Leaves : Bool → Option (Session S R W L C ε α κ) → Option (Session S R W L C ε α κ) → Prop
  | closed {b} : Leaves b none none
  | hidden {x} (fits : X.Fits x) (keeps : X.keeps x.call = false) : Leaves true (some x) none
  | kept {x y} (fits : X.Fits x) (keeps : X.keeps x.call = true) (twin : X.Twin x y) :
      Leaves false (some x) (some y)

/-- A state, and the state in which the hidden calls have not been made. -/
structure Shadow (hid : ℕ → Bool) (s t : State S R D W L C ε α κ) : Prop where
  known : Service.Known s
  known' : Service.Known t
  alike : X.alike s.db t.db
  last : t.past.last ≤ X.fresh s.past.last
  calls : t.past.calls.map Prod.fst ⊆ s.past.calls.map Prod.fst
  sessions : ∀ i, X.Leaves (hid i) (s.sessions i) (t.sessions i)
  log : t.log = answers X.keeps X.call X.reply s.log

variable {X} {s s' t t' : State S R D W L C ε α κ} {l : Label κ} {i : ℕ} {hid : ℕ → Bool}
  {labels : List (Label κ)}

theorem Sound.alike_shown (hX : X.Sound) {c : κ} {db db' : D} {ws : List W} (hc : X.made c)
    (hk : X.keeps c = true) (hws : ∀ w ∈ ws, X.writes c w) (h : X.alike db db') :
    X.alike (M.view db ws) (M.view db' (ws.map X.write)) := by
  induction ws generalizing db db' with
  | nil => exact h
  | cons w ws ih =>
    obtain ⟨hw, hws⟩ := forall_mem_cons.mp hws
    exact ih hws (hX.shown hc hk hw h)

theorem Sound.alike_hidden (hX : X.Sound) {c : κ} {db db' : D} {ws : List W} (hc : X.made c)
    (hk : X.keeps c = false) (hws : ∀ w ∈ ws, X.writes c w) (h : X.alike db db') :
    X.alike (M.view db ws) db' := by
  induction ws generalizing db with
  | nil => exact h
  | cons w ws ih =>
    obtain ⟨hw, hws⟩ := forall_mem_cons.mp hws
    exact ih hws (hX.hidden hc hk hw h)

/-- Only the session of the label has to be looked at. -/
theorem Shadow.of_session (h : X.Shadow hid s t) (hk : Service.Known s') (hk' : Service.Known t')
    (hother : ∀ j, j ≠ i → s'.sessions j = s.sessions j)
    (hother' : ∀ j, j ≠ i → t'.sessions j = t.sessions j)
    (hown : X.Leaves (hid i) (s'.sessions i) (t'.sessions i)) (hdb : X.alike s'.db t'.db)
    (hlast : t'.past.last ≤ X.fresh s'.past.last)
    (hcalls : t'.past.calls.map Prod.fst ⊆ s'.past.calls.map Prod.fst)
    (hlog : t'.log = answers X.keeps X.call X.reply s'.log) :
    X.Shadow hid s' t' := by
  refine ⟨hk, hk', hdb, hlast, hcalls, fun j => ?_, hlog⟩
  by_cases hj : j = i
  · exact hj ▸ hown
  · rw [hother j hj, hother' j hj]
    exact h.sessions j

/-- What a label needs to be made without the hidden sessions. -/
structure Admits (X : Hiding M) (hid : ℕ → Bool) (s : State S R D W L C ε α κ) (l : Label κ) :
    Prop where
  start : ∀ {i c}, l = .start i c → X.made c ∧ X.keeps c = !hid i
  draw : ∀ {i rd x st k}, l = .exec i rd → s.sessions i = some x → x.prog = .query st k →
    hid i = false → M.draws st = true → X.drawn rd.fresh

theorem Shadow.fits (h : X.Shadow hid s t) {x : Session S R W L C ε α κ}
    (hx : s.sessions i = some x) : X.Fits x ∧ X.keeps x.call = !hid i := by
  have hi := h.sessions i
  rw [hx] at hi
  generalize t.sessions i = o, hid i = b at hi
  cases hi with
  | hidden fits keeps | kept fits keeps => exact ⟨fits, keeps⟩

/-- Sessions go on as they should. -/
theorem fits_step (hX : X.Sound) (h : X.Shadow hid s t) (hl : X.Admits hid s l)
    (hstep : M.Step s l s') {y : Session S R W L C ε α κ} (hy : s'.sessions l.session = some y) :
    X.Fits y ∧ X.keeps y.call = !hid l.session := by
  cases hstep with
  | returned | failed => simp [Label.session] at hy
  | start hi =>
    obtain rfl := State.eq_of_set hy
    obtain ⟨hmade, hkeeps⟩ := hl.start rfl
    exact ⟨⟨hmade, hX.sends _, hX.idle _, fun w hw => by cases hw⟩, hkeeps⟩
  | refused hx =>
    obtain rfl := State.eq_of_set hy
    obtain ⟨hfits, hkeeps⟩ := h.fits hx
    exact ⟨⟨hfits.made, trivial, hfits.settles, fun w hw => by cases hw⟩, hkeeps⟩
  | outage hx | lostAck hx =>
    obtain rfl := State.eq_of_set hy
    obtain ⟨hfits, hkeeps⟩ := h.fits hx
    exact ⟨⟨hfits.made, trivial, hX.idle _, fun w hw => by cases hw⟩, hkeeps⟩
  | committed hx hp =>
    obtain rfl := State.eq_of_set hy
    obtain ⟨hfits, hkeeps⟩ := h.fits hx
    have hsends := hfits.sends
    rw [hp] at hsends
    exact ⟨⟨hfits.made, hsends.2 _, hX.idle _, fun w hw => by cases hw⟩, hkeeps⟩
  | advanced hx hp hc hd hn he =>
    obtain rfl := State.eq_of_set hy
    obtain ⟨hfits, hkeeps⟩ := h.fits hx
    have hsends := hfits.sends
    rw [hp] at hsends
    refine ⟨⟨hfits.made, hsends.2 _, hX.settles hsends.1 hfits.settles, fun w hw => ?_⟩, hkeeps⟩
    rcases mem_append.mp hw with hw | hw
    · exact hfits.writes w hw
    · refine hX.writes hfits.made hsends.1 (fun hkept hdraws => ?_) he w hw
      exact hl.draw rfl hx hp (by simpa [hkept] using hkeeps) hdraws

/-- A step of a hidden session leaves the shadow where it is. -/
theorem Shadow.hidden_step (hX : X.Sound) (h : X.Shadow hid s t) (hl : X.Admits hid s l)
    (hstep : M.Step s l s') (hhid : hid l.session = true) : X.Shadow hid s' t := by
  have hclosed : t.sessions l.session = none := by
    have hi := h.sessions l.session
    rw [hhid] at hi
    generalize s.sessions l.session = o, t.sessions l.session = o' at hi
    cases hi <;> rfl
  have hown : X.Leaves (hid l.session) (s'.sessions l.session) (t.sessions l.session) := by
    rw [hclosed]
    cases hy : s'.sessions l.session with
    | none => exact .closed
    | some y =>
      obtain ⟨hfits, hkeeps⟩ := fits_step hX h hl hstep hy
      rw [hhid] at hkeeps ⊢
      exact .hidden hfits hkeeps
  have hdb : X.alike s'.db t.db := by
    rcases Service.step_db hstep with hdb | ⟨x, _, _, hx, _, _, hdb⟩
    · exact hdb ▸ h.alike
    · obtain ⟨hfits, hkeeps⟩ := h.fits hx
      rw [hdb]
      exact hX.alike_hidden hfits.made (by rw [hkeeps, hhid]; rfl) hfits.writes h.alike
  have hpast := Service.step_past hstep
  refine h.of_session (Service.known_step hstep h.known) h.known'
    (fun j hj => Service.step_other hstep hj) (fun _ _ => rfl) hown hdb
    (h.last.trans (hX.mono hpast.1)) (List.Subset.trans h.calls (map_subset _ hpast.2)) ?_
  -- What a hidden session returns is left out.
  rw [h.log]
  cases hstep with
  | returned hx | failed hx =>
    have hkeeps : X.keeps _ = false := (h.fits hx).2.trans (congrArg (!·) hhid)
    simp [answers_concat, hkeeps]
  | _ => rfl

theorem Shadow.twin (h : X.Shadow hid s t) {x : Session S R W L C ε α κ} (hhid : hid i = false)
    (hx : s.sessions i = some x) :
    ∃ y, t.sessions i = some y ∧ X.Fits x ∧ X.keeps x.call = true ∧ X.Twin x y := by
  have hi := h.sessions i
  rw [hx, hhid] at hi
  generalize t.sessions i = o at hi ⊢
  cases hi with
  | kept fits keeps twin => exact ⟨_, rfl, fits, keeps, twin⟩

theorem Shadow.clear (h : X.Shadow hid s t) {ls : List L} (hc : M.clear s i ls = true) :
    M.clear t i ls = true := by
  rw [Service.clear_iff h.known] at hc
  rw [Service.clear_iff h.known']
  intro j y hj hy
  have hi := h.sessions j
  rw [hy] at hi
  generalize hx : s.sessions j = o, hid j = b at hi
  cases hi with
  | kept fits keeps twin => exact twin.held ▸ hc j _ hj hx

/-- The next statement of a kept session is answered alike. -/
theorem Shadow.next (hX : X.Sound) (h : X.Shadow hid s t) {x : Session S R W L C ε α κ} {st : S}
    {k : R st → Prog S R ε α} {rd : Reading} (hl : X.Admits hid s (.exec i rd))
    (hhid : hid i = false) (hx : s.sessions i = some x) (hp : x.prog = .query st k)
    (hc : M.clear s i (M.locks st x.conn (M.view s.db x.writes) rd) = true)
    (hd : M.drawable s st rd = true) :
    ∃ y k', t.sessions i = some y ∧ X.Twin x y ∧ X.keeps x.call = true ∧
      y.prog = .query (X.stmt st) k' ∧
      (∀ r, (k r).Renamed X.stmt X.resp X.reply (k' (X.resp st r))) ∧
      X.alike (M.view s.db x.writes) (M.view t.db y.writes) ∧
      M.clear t i (M.locks (X.stmt st) y.conn (M.view t.db y.writes) (rd.rename X.fresh)) = true ∧
      M.drawable t (X.stmt st) (rd.rename X.fresh) = true ∧
      M.locks (X.stmt st) y.conn (M.view t.db y.writes) (rd.rename X.fresh) =
        M.locks st x.conn (M.view s.db x.writes) rd ∧
      M.eval (X.stmt st) y.conn (M.view t.db y.writes) (rd.rename X.fresh) =
        (M.eval st x.conn (M.view s.db x.writes) rd).map
          fun r => (X.resp st r.1, r.2.map X.write) := by
  obtain ⟨y, hy, hfits, hkeeps, htwin⟩ := h.twin hhid hx
  have hprog := htwin.prog
  have hsends := hfits.sends
  rw [hp] at hprog hsends
  obtain ⟨k', hq, hk'⟩ := hprog
  have hdrawn := hl.draw rfl hx hp hhid
  have halike : X.alike (M.view s.db x.writes) (M.view t.db y.writes) :=
    htwin.writes ▸ hX.alike_shown hfits.made hkeeps hfits.writes h.alike
  have hlocks := hX.locks hfits.made hkeeps hsends.1 hfits.settles halike hdrawn
  have heval := hX.eval hfits.made hkeeps hsends.1 hfits.settles halike hdrawn
  rw [← htwin.conn] at hlocks heval
  refine ⟨y, k', hy, htwin, hkeeps, hq, hk', halike, ?_, ?_, ?_, ?_⟩
  · rw [hlocks, htwin.conn]
    exact h.clear hc
  · rw [Service.drawable_iff] at hd ⊢
    rw [hX.draws]
    intro hdraws
    exact ⟨h.last.trans_lt (hX.strict (hdrawn hdraws) (hd hdraws).1),
      hX.bounded (hdrawn hdraws) (hd hdraws).2⟩
  · rw [hlocks, htwin.conn]
  · rw [heval, htwin.conn]

theorem Sound.last_after (hX : X.Sound) {past past' : Past κ} (h : past'.last ≤ X.fresh past.last)
    (st : S) (rd : Reading) :
    (M.after (X.stmt st) (rd.rename X.fresh) past').last ≤ X.fresh (M.after st rd past).last := by
  unfold Service.after
  rw [hX.draws]
  split
  · exact Int.le_refl _
  · exact h

/-- A step of a kept session is made by its shadow too. -/
theorem Shadow.kept_step (hX : X.Sound) (h : X.Shadow hid s t) (hl : X.Admits hid s l)
    (hstep : M.Step s l s') (hhid : hid l.session = false) :
    ∃ t', M.Step t (l.rename X.call X.fresh) t' ∧ X.Shadow hid s' t' := by
  -- The session of the label, after the step; the rest of the sessions have not moved.
  have hmove : ∀ {t'}, M.Step t (l.rename X.call X.fresh) t' →
      (l.rename X.call X.fresh).session = l.session →
      Option.Rel X.Twin (s'.sessions l.session) (t'.sessions l.session) →
      X.alike s'.db t'.db → t'.past.last ≤ X.fresh s'.past.last →
      t'.past.calls.map Prod.fst ⊆ s'.past.calls.map Prod.fst →
      t'.log = answers X.keeps X.call X.reply s'.log →
      ∃ t', M.Step t (l.rename X.call X.fresh) t' ∧ X.Shadow hid s' t' := by
    intro t' hstep' hsession htwin hdb hlast hcalls hlog
    refine ⟨t', hstep', h.of_session (Service.known_step hstep h.known)
      (Service.known_step hstep' h.known') (fun j hj => Service.step_other hstep hj)
      (fun j hj => Service.step_other hstep' (hsession ▸ hj)) ?_ hdb hlast hcalls hlog⟩
    generalize hy : s'.sessions l.session = o, t'.sessions l.session = o' at htwin
    cases htwin with
    | none => exact .closed
    | some htwin =>
      obtain ⟨hfits, hkeeps⟩ := fits_step hX h hl hstep hy
      rw [hhid] at hkeeps ⊢
      exact .kept hfits hkeeps htwin
  have hset : ∀ {u u' : State S R D W L C ε α κ} {j : ℕ} {x x' : Session S R W L C ε α κ},
      X.Twin x x' → Option.Rel X.Twin ((u.set j x).sessions j) ((u'.set j x').sessions j) := by
    intro u u' j x x' htwin
    rw [State.set_self, State.set_self]
    exact .some htwin
  have hdrop : ∀ {u u' : State S R D W L C ε α κ} {j : ℕ},
      Option.Rel X.Twin ((u.drop j).sessions j) ((u'.drop j).sessions j) := by
    intro u u' j
    rw [State.drop_self, State.drop_self]
    exact .none
  cases hstep with
  | @start i c hi =>
    obtain ⟨hmade, hkeeps⟩ := hl.start rfl
    have hprogram := hX.program hmade (hkeeps.trans (congrArg (!·) hhid))
    refine hmove (.start fun hi' => hi (h.calls hi')) rfl
      (hset ⟨rfl, rfl, rfl, rfl, hprogram⟩) h.alike h.last ?_ h.log
    exact cons_subset_cons _ h.calls
  | @refused i x st k rd e hx hp hc hd he =>
    obtain ⟨y, k', hy, htwin, _, hq, _, _, hc', hd', hlocks, he'⟩ := h.next hX hl hhid hx hp hc hd
    rw [he] at he'
    refine hmove (.refused hy hq hc' hd' he') rfl
      (hset ⟨htwin.call, htwin.conn, htwin.held, rfl, rfl⟩) h.alike (hX.last_after h.last st rd) ?_
      h.log
    simpa only [State.set_past, Service.draw_past, Service.after_calls] using h.calls
  | @advanced i x st k rd r ws hx hp hc hd hn he =>
    obtain ⟨y, k', hy, htwin, _, hq, hk', _, hc', hd', hlocks, he'⟩ :=
      h.next hX hl hhid hx hp hc hd
    rw [he] at he'
    have hextend : X.Twin ⟨M.extend x.toTxn s.db rd st ws, k r⟩
        ⟨M.extend y.toTxn t.db (rd.rename X.fresh) (X.stmt st) (ws.map X.write),
          k' (X.resp st r)⟩ := by
      refine ⟨htwin.call, ?_, ?_, ?_, hk' r⟩
      · exact (hX.configure st rd y.conn).trans (congrArg _ htwin.conn)
      · exact congrArg₂ (· ++ ·) htwin.held hlocks
      · change y.writes ++ ws.map X.write = (x.writes ++ ws).map X.write
        rw [htwin.writes, map_append]
    refine hmove (.advanced hy hq hc' hd' ((hX.commits st).trans hn) he') rfl (hset hextend)
      h.alike (hX.last_after h.last st rd) ?_ h.log
    simpa only [State.set_past, Service.draw_past, Service.after_calls] using h.calls
  | @committed i x st k rd r ws hx hp hc hd hn he =>
    obtain ⟨y, k', hy, htwin, _, hq, hk', halike, hc', hd', _, he'⟩ :=
      h.next hX hl hhid hx hp hc hd
    rw [he] at he'
    refine hmove (.committed hy hq hc' hd' ((hX.commits st).trans hn) he') rfl
      (hset ⟨htwin.call, rfl, rfl, rfl, hk' r⟩) halike (hX.last_after h.last st rd) ?_ h.log
    simpa only [State.set_past, Service.draw_past, Service.after_calls] using h.calls
  | @outage i x st k hx hp =>
    obtain ⟨y, hy, _, _, htwin⟩ := h.twin hhid hx
    have hprog := htwin.prog
    rw [hp] at hprog
    obtain ⟨k', hq, _⟩ := hprog
    exact hmove (.outage hy hq) rfl (hset ⟨htwin.call, rfl, rfl, rfl, rfl⟩) h.alike h.last h.calls
      h.log
  | @lostAck i x st k hx hp hn =>
    obtain ⟨y, hy, hfits, hkeeps, htwin⟩ := h.twin hhid hx
    have hprog := htwin.prog
    rw [hp] at hprog
    obtain ⟨k', hq, _⟩ := hprog
    refine hmove (.lostAck hy hq ((hX.commits st).trans hn)) rfl
      (hset ⟨htwin.call, rfl, rfl, rfl, rfl⟩) ?_ h.last h.calls h.log
    exact htwin.writes ▸ hX.alike_shown hfits.made hkeeps hfits.writes h.alike
  | @returned i x a hx hp =>
    obtain ⟨y, hy, _, hkeeps, htwin⟩ := h.twin hhid hx
    have hprog := htwin.prog
    rw [hp] at hprog
    refine hmove (.returned hy hprog) rfl hdrop h.alike h.last h.calls ?_
    simp [answers_concat, hkeeps, h.log, htwin.call, Except.map]
  | @failed i x e hx hp =>
    obtain ⟨y, hy, _, hkeeps, htwin⟩ := h.twin hhid hx
    have hprog := htwin.prog
    rw [hp] at hprog
    refine hmove (.failed hy hprog) rfl hdrop h.alike h.last h.calls ?_
    simp [answers_concat, hkeeps, h.log, htwin.call, Except.map]

/-- A run without the hidden sessions. -/
theorem Shadow.run (hX : X.Sound) (h : X.Shadow hid s t) (hr : Runs.run M.step s labels = some s')
    (hstart : ∀ i c, .start i c ∈ labels → X.made c ∧ X.keeps c = !hid i)
    (hdrawn : ∀ c, M.Drawn hid s labels c → X.drawn c) :
    ∃ t', Runs.run M.step t
        ((labels.filter fun l => !hid l.session).map (Label.rename X.call X.fresh)) = some t' ∧
      X.Shadow hid s' t' := by
  induction labels generalizing s t with
  | nil =>
    cases hr
    exact ⟨t, rfl, h⟩
  | cons l labels ih =>
    obtain ⟨u, hu, hrest⟩ := Runs.run_cons.mp hr
    have hstep := Service.step_cases hu
    have hl : X.Admits hid s l := by
      constructor
      · rintro i c rfl
        exact hstart i c mem_cons_self
      · rintro i rd x st k rfl hx hp hhid hd
        exact hdrawn _ ⟨[], i, rd, labels, s, x, st, k, rfl, hhid, rfl, hx, hp, hd, rfl⟩
    have hstart' := fun i c hi => hstart i c (mem_cons_of_mem l hi)
    have hdrawn' : ∀ c, M.Drawn hid u labels c → X.drawn c := by
      rintro c ⟨pre, i, rd, post, v, x, st, k, rfl, hhid, hv, hrest⟩
      exact hdrawn c ⟨l :: pre, i, rd, post, v, x, st, k, rfl, hhid,
        Runs.run_cons.mpr ⟨u, hu, hv⟩, hrest⟩
    cases hhid : hid l.session with
    | true =>
      obtain ⟨t', ht', hshadow⟩ := ih (h.hidden_step hX hl hstep hhid) hrest hstart' hdrawn'
      exact ⟨t', by simpa [reduced, hhid] using ht', hshadow⟩
    | false =>
      obtain ⟨v, hv, hshadow⟩ := h.kept_step hX hl hstep hhid
      obtain ⟨t', ht', hshadow⟩ := ih hshadow hrest hstart' hdrawn'
      refine ⟨t', ?_, hshadow⟩
      simp only [hhid, filter_cons, Bool.not_false, if_true, map_cons]
      exact Runs.run_cons.mpr ⟨v, Service.step_eq hv, ht'⟩

theorem shadow_idle (hs : s.Idle) (hdb : X.alike s.db s.db)
    (hlast : s.past.last ≤ X.fresh s.past.last) : X.Shadow hid s s := by
  have hknown : Service.Known s := by
    constructor
    · intro i x hx
      rw [hs.sessions i] at hx
      cases hx
    · intro i c res hmem
      rw [hs.log] at hmem
      cases hmem
  refine ⟨hknown, hknown, hdb, hlast, List.Subset.refl _, fun i => ?_, by rw [hs.log]; rfl⟩
  rw [hs.sessions i]
  exact .closed

theorem hides_iff :
    hides X.keeps labels i = true ↔ ∃ c, .start i c ∈ labels ∧ X.keeps c = false := by
  simp only [hides, any_eq_true]
  constructor
  · rintro ⟨l, hl, h⟩
    cases l with
    | start j c =>
      simp only [Bool.and_eq_true, beq_iff_eq, Bool.not_eq_true'] at h
      exact ⟨c, h.1 ▸ hl, h.2⟩
    | _ => cases h
  · rintro ⟨c, hc, hk⟩
    exact ⟨_, hc, by simp [hk]⟩

theorem hides_eq (hs : s.Idle) (hr : Runs.run M.step s labels = some t) {c : κ}
    (hi : .start i c ∈ labels) : X.keeps c = !hides X.keeps labels i := by
  cases hk : X.keeps c with
  | false => rw [hides_iff.mpr ⟨c, hi, hk⟩]; rfl
  | true =>
    cases hh : hides X.keeps labels i with
    | false => rfl
    | true =>
      obtain ⟨c', hi', hk'⟩ := hides_iff.mp hh
      rw [Service.start_unique hs hr hi' hi, hk] at hk'
      cases hk'

/-- The calls that are kept return what they return when no other call is made, but for the
renaming. -/
theorem run_reduced (hX : X.Sound) (hs : s.Idle) (hdb : X.alike s.db s.db)
    (hlast : s.past.last ≤ X.fresh s.past.last) (hr : Runs.run M.step s labels = some t)
    (hmade : ∀ i c, .start i c ∈ labels → X.made c)
    (hdrawn : ∀ z, M.Drawn (hides X.keeps labels) s labels z → X.drawn z) :
    ∃ t', Runs.run M.step s (reduced X.keeps X.call X.fresh labels) = some t' ∧
      t'.log = answers X.keeps X.call X.reply t.log := by
  obtain ⟨t', ht', hshadow⟩ := (shadow_idle hs hdb hlast).run hX hr
    (fun i c hi => ⟨hmade i c hi, hides_eq hs hr hi⟩) hdrawn
  exact ⟨t', ht', hshadow.log⟩

end Hiding

end ReadCommitted
