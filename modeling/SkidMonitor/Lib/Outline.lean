import SkidMonitor.Lib.ReadCommitted

/-! Proof outlines for the calls of a service. An outline cuts the calls into stages and
says what holds of a transaction in each stage. One session can be followed along a
run whatever the others do; in a protocol all of them are, and the locks they hold keep
what holds of one from being broken by the commit of another. -/
namespace ReadCommitted

open List

variable {S : Type} {R : S → Type} {D W L C E ε α κ : Type}

/-- Stages `G`, with what may be relied on between statements (`Pre`), what holds of a
transaction in a stage (`Local`) and the errors a statement may raise there. -/
structure Outline (M : Service S R D W L C E ε α κ) (G : Type) where
  Move : G → (s : S) → R s → G → Prop
  Fin : G → Except ε α → Prop
  Pre : D → Past κ → Prop
  Local : G → Txn W L C κ → D → Past κ → Prop
  Raised : E → Prop
  answers : ∀ st, Nonempty (R st)
  advance : ∀ {g g' x db past st rd r ws}, Pre db past → Local g x db past →
    M.commits st = false → Move g st r g' →
    (M.draws st = true → past.last < rd.fresh ∧ rd.fresh ≤ M.maxIdentity) →
    M.eval st x.conn (M.view db x.writes) rd = .ok (r, ws) →
    Local g' (M.extend x db rd st ws) db (M.after st rd past)
  commit : ∀ {g g' x db past st r}, Pre db past → Local g x db past →
    M.commits st = true → Move g st r g' → Local g' (M.blank x.call) (M.view db x.writes) past
  refuse : ∀ {g g' x db past st rd r e}, Pre db past → Local g x db past →
    Move g st r g' → (M.draws st = true → past.last < rd.fresh ∧ rd.fresh ≤ M.maxIdentity) →
    M.eval st x.conn (M.view db x.writes) rd = .error e → Raised e
  later : ∀ {g x db past past'}, Local g x db past → past ≤ past' → Local g x db past'

namespace Outline

variable {M : Service S R D W L C E ε α κ} {G : Type} (O : Outline M G)

/-- The session is in some stage, or a statement of it has failed. -/
def Tracked (x : Session S R W L C ε α κ) (db : D) (past : Past κ) : Prop :=
  (∃ e, O.Raised e ∧ x.prog = .err (M.raise e) ∧ x.writes = []) ∨
    ∃ g, x.prog.Follows O.Move O.Fin g ∧ O.Local g x.toTxn db past

/-- What an answer can be: the result of a last stage or a raised error. -/
def Answer (res : Except ε α) (c : κ) (db : D) (past : Past κ) : Prop :=
  (∃ e, O.Raised e ∧ res = .error (M.raise e)) ∨
    ∃ g x, O.Fin g res ∧ O.Local g x db past ∧ x.call = c

variable {O} {s t : State S R D W L C ε α κ} {l : Label κ} {i : ℕ}

/-- A session stays tracked across its own steps. -/
theorem tracked_own (h : M.Step s l t) (hpre : s.Waits l.session → O.Pre s.db s.past)
    (hfault : l.faulty = true → O.Raised M.outage)
    (hstart : ∀ i c, l = .start i c →
      ∃ g, (M.program c).Follows O.Move O.Fin g ∧ O.Local g (M.blank c) t.db t.past)
    (hs : ∀ x, s.sessions l.session = some x → O.Tracked x s.db s.past)
    {y : Session S R W L C ε α κ} (hy : t.sessions l.session = some y) :
    O.Tracked y t.db t.past := by
  -- A session about to run a statement has not failed.
  have stage : ∀ {x st k}, s.sessions l.session = some x → x.prog = .query st k →
      ∃ g, (∀ r, ∃ g', O.Move g st r g' ∧ (k r).Follows O.Move O.Fin g') ∧
        O.Local g x.toTxn s.db s.past := by
    intro x st k hx hp
    rcases hs x hx with ⟨e, _, he, _⟩ | ⟨g, hf, hl⟩
    · rw [hp] at he
      cases he
    · rw [hp] at hf
      exact ⟨g, hf, hl⟩
  cases h with
  | start hi =>
    obtain rfl := State.eq_of_set hy
    exact Or.inr (hstart _ _ rfl)
  | @refused i x st k rd e hx hp hc hd he =>
    obtain rfl := State.eq_of_set hy
    obtain ⟨g, hf, hl⟩ := stage hx hp
    obtain ⟨r⟩ := O.answers st
    obtain ⟨g', hm, _⟩ := hf r
    exact Or.inl ⟨e, O.refuse (hpre ⟨x, st, k, hx, hp⟩) hl hm (Service.drawable_iff.mp hd) he,
      rfl, rfl⟩
  | @advanced i x st k rd r ws hx hp hc hd hn he =>
    obtain rfl := State.eq_of_set hy
    obtain ⟨g, hf, hl⟩ := stage hx hp
    obtain ⟨g', hm, hf'⟩ := hf r
    exact Or.inr ⟨g', hf', O.advance (hpre ⟨x, st, k, hx, hp⟩) hl hn hm
      (Service.drawable_iff.mp hd) he⟩
  | @committed i x st k rd r ws hx hp hc hd hn he =>
    obtain rfl := State.eq_of_set hy
    obtain ⟨g, hf, hl⟩ := stage hx hp
    obtain ⟨g', hm, hf'⟩ := hf r
    exact Or.inr ⟨g', hf', O.later (O.commit (hpre ⟨x, st, k, hx, hp⟩) hl hn hm)
      (Service.past_le_after hd)⟩
  | outage | lostAck =>
    obtain rfl := State.eq_of_set hy
    exact Or.inl ⟨M.outage, hfault rfl, rfl, rfl⟩
  | returned | failed => simp [Label.session] at hy

/-- A session that ends leaves an answer of its last stage in the log. -/
theorem answer_finish (h : M.Step s (.finish i) t)
    (hs : ∀ x, s.sessions i = some x → O.Tracked x s.db s.past) :
    ∃ x res, s.sessions i = some x ∧ t.log = s.log ++ [(i, x.call, res)] ∧
      O.Answer res x.call s.db s.past := by
  cases h with
  | @returned _ x a hx hp =>
    refine ⟨x, .ok a, hx, rfl, ?_⟩
    rcases hs x hx with ⟨e, _, he, _⟩ | ⟨g, hf, hl⟩
    · rw [hp] at he
      cases he
    · rw [hp] at hf
      exact Or.inr ⟨g, x.toTxn, hf, hl, rfl⟩
  | @failed _ x e hx hp =>
    refine ⟨x, .error e, hx, rfl, ?_⟩
    rcases hs x hx with ⟨e', hr, he, _⟩ | ⟨g, hf, hl⟩
    · rw [hp] at he
      cases he
      exact Or.inl ⟨e', hr, rfl⟩
    · rw [hp] at hf
      exact Or.inr ⟨g, x.toTxn, hf, hl, rfl⟩

variable (O) {I : State S R D W L C ε α κ → Prop}

/-- What is known of the calls of one session in a run whose states satisfy `I`. -/
structure Following (I : State S R D W L C ε α κ → Prop) (i : ℕ) (s : State S R D W L C ε α κ) :
    Prop where
  tracked : ∀ x, s.sessions i = some x → O.Tracked x s.db s.past
  answered : ∀ c res, (i, c, res) ∈ s.log → ∃ u, I u ∧ O.Answer res c u.db u.past

variable {O}

theorem following_step (h : M.Step s l t) (hI : I s) (hpre : s.Waits i → O.Pre s.db s.past)
    (hframe : ∀ {g x}, l.session ≠ i → s.sessions i = some x →
      O.Local g x.toTxn s.db s.past → O.Local g x.toTxn t.db t.past)
    (hfault : l.session = i → l.faulty = false)
    (hstart : ∀ c, l = .start i c →
      ∃ g, (M.program c).Follows O.Move O.Fin g ∧ O.Local g (M.blank c) t.db t.past)
    (hs : O.Following I i s) : O.Following I i t := by
  constructor
  · intro y hy
    by_cases hi : l.session = i
    · subst hi
      refine tracked_own h hpre (fun hf => by simp [hfault rfl] at hf) ?_ hs.tracked hy
      rintro j c rfl
      exact hstart c rfl
    · rw [Service.step_other h (Ne.symm hi)] at hy
      exact (hs.tracked y hy).imp id fun ⟨g, hf, hl⟩ => ⟨g, hf, hframe hi hy hl⟩
  · intro c res hmem
    rcases Service.step_log h with he | ⟨j, rfl⟩
    · exact hs.answered c res (he ▸ hmem)
    · by_cases hj : j = i
      · subst hj
        obtain ⟨x, res', hx, hlog, hans⟩ := answer_finish h hs.tracked
        rw [hlog, mem_append, mem_singleton] at hmem
        rcases hmem with hmem | hmem
        · exact hs.answered c res hmem
        · cases hmem
          exact ⟨s, hI, hans⟩
      · refine hs.answered c res ?_
        cases h with
        | returned | failed => simpa [Ne.symm hj] using hmem

/-- One session along a run, whatever the others do, if `Pre` holds whenever it has a
statement to send and they keep what is known of it. -/
theorem following_run {labels : List (Label κ)}
    (hframe : ∀ {s l t g x}, I s → M.Step s l t → l.session ≠ i → s.sessions i = some x →
      O.Local g x.toTxn s.db s.past → O.Local g x.toTxn t.db t.past)
    (hinv : ∀ s l t, I s → M.step s l = some t → I t) (hI : I s)
    (hpre : Runs.Along M.step (fun u => u.Waits i → O.Pre u.db u.past) s labels)
    (hfault : ∀ l ∈ labels, l.session = i → l.faulty = false)
    (hstart : ∀ c, .start i c ∈ labels → ∀ db past, (i, c) ∈ past.calls →
      ∃ g, (M.program c).Follows O.Move O.Fin g ∧ O.Local g (M.blank c) db past)
    (hr : Runs.run M.step s labels = some t) (hs : O.Following I i s) : O.Following I i t := by
  induction labels generalizing s with
  | nil =>
    cases hr
    exact hs
  | cons l labels ih =>
    obtain ⟨u, hu, hrest⟩ := Runs.run_cons.mp hr
    have hstep := Service.step_cases hu
    refine ih (hinv s l u hI hu) (Runs.along_tail hpre hu)
      (fun m hm => hfault m (mem_cons_of_mem l hm))
      (fun c hc => hstart c (mem_cons_of_mem l hc)) hrest ?_
    refine following_step hstep hI (Runs.along_head hpre) (hframe hI hstep)
      (hfault l mem_cons_self) ?_ hs
    rintro c rfl
    cases hstep with
    | start => exact hstart c mem_cons_self _ _ mem_cons_self

end Outline

/-- An outline all calls follow. A commit keeps `Pre`, and it keeps what holds of a
session whose locks do not conflict with those of the committing one. `Logged` is what
an answer says about the tables from then on. -/
structure Protocol (M : Service S R D W L C E ε α κ) (G : Type) extends Outline M G where
  Logged : κ → Except ε α → D → Prop
  symm : ∀ a b, M.conflicts a b = M.conflicts b a
  outage : Raised M.outage
  start : ∀ {i c db past}, Pre db past → (i, c) ∈ past.calls →
    ∃ g, (M.program c).Follows Move Fin g ∧ Local g (M.blank c) db past
  pre_later : ∀ {db past past'}, Pre db past → past ≤ past' → Pre db past'
  pre_commit : ∀ {g g' x db past st r}, Pre db past → Local g x db past →
    M.commits st = true → Move g st r g' → Pre (M.view db x.writes) past
  frame : ∀ {g g' h x y db past st r}, Pre db past → Local g x db past →
    M.commits st = true → Move g st r g' → Local h y db past →
    (∀ a ∈ x.held, ∀ b ∈ y.held, M.conflicts a b = false) →
    Local h y (M.view db x.writes) past
  finish : ∀ {g x db past res}, Local g x db past → Fin g res → Logged x.call res db
  raised : ∀ c e db, Raised e → Logged c (.error (M.raise e)) db
  stable : ∀ {c res db} w, Logged c res db → Logged c res (M.apply db w)

namespace Protocol

variable {M : Service S R D W L C E ε α κ} {G : Type} (P : Protocol M G)

structure Invariant (s : State S R D W L C ε α κ) : Prop where
  known : Service.Known s
  exclusive : Service.Exclusive M s
  pre : P.Pre s.db s.past
  tracked : ∀ i x, s.sessions i = some x → P.Tracked x s.db s.past
  logged : ∀ i c res, (i, c, res) ∈ s.log → P.Logged c res s.db

variable {P} {s t : State S R D W L C ε α κ} {l : Label κ}

theorem invariant_idle (hs : s.Idle) (hpre : P.Pre s.db s.past) : P.Invariant s where
  known := ⟨fun i x hx => by simp [hs.sessions] at hx, fun i c res h => by simp [hs.log] at h⟩
  exclusive i j x y _ hx := by simp [hs.sessions] at hx
  pre := hpre
  tracked i x hx := by simp [hs.sessions] at hx
  logged i c res h := by simp [hs.log] at h

theorem logged_view {c : κ} {res : Except ε α} {db : D} (ws : List W)
    (h : P.Logged c res db) : P.Logged c res (M.view db ws) := by
  induction ws generalizing db with
  | nil => exact h
  | cons w ws ih => exact ih (P.stable w h)

/-- The stage a session commits from. -/
theorem committing {x : Session S R W L C ε α κ} {st : S} {k : R st → Prog S R ε α}
    {db : D} {past : Past κ} (hx : P.Tracked x db past) (hp : x.prog = .query st k) :
    ∃ g r g', P.Move g st r g' ∧ P.Local g x.toTxn db past := by
  rcases hx with ⟨e, _, he, _⟩ | ⟨g, hf, hl⟩
  · rw [hp] at he
    cases he
  · rw [hp] at hf
    obtain ⟨r⟩ := P.answers st
    obtain ⟨g', hm, _⟩ := hf r
    exact ⟨g, r, g', hm, hl⟩

theorem pre_step (h : M.Step s l t) (hs : P.Invariant s) : P.Pre t.db t.past := by
  refine P.pre_later ?_ (Service.step_past h)
  rcases Service.step_db h with he | ⟨x, st, k, hx, hp, hn, he⟩
  · rw [he]
    exact hs.pre
  · obtain ⟨g, r, g', hm, hl⟩ := committing (hs.tracked _ x hx) hp
    rw [he]
    exact P.pre_commit hs.pre hl hn hm

/-- What holds of a session in a stage still holds after a step of another one. -/
theorem local_other {i : ℕ} {g : G} {y : Session S R W L C ε α κ} (h : M.Step s l t)
    (hs : P.Invariant s) (hi : i ≠ l.session) (hy : s.sessions i = some y)
    (hl : P.Local g y.toTxn s.db s.past) : P.Local g y.toTxn t.db t.past := by
  refine P.later ?_ (Service.step_past h)
  rcases Service.step_db h with he | ⟨x, st, k, hx, hp, hn, he⟩
  · rw [he]
    exact hl
  · obtain ⟨g', r, g'', hm, hl'⟩ := committing (hs.tracked _ x hx) hp
    rw [he]
    exact P.frame hs.pre hl' hn hm hl (hs.exclusive _ i x y hi.symm hx hy)

theorem tracked_other {i : ℕ} {y : Session S R W L C ε α κ} (h : M.Step s l t)
    (hs : P.Invariant s) (hi : i ≠ l.session) (hy : s.sessions i = some y) :
    P.Tracked y t.db t.past :=
  (hs.tracked i y hy).imp id fun ⟨g, hf, hl⟩ => ⟨g, hf, local_other h hs hi hy hl⟩

theorem logged_step (h : M.Step s l t) (hs : P.Invariant s) :
    ∀ i c res, (i, c, res) ∈ t.log → P.Logged c res t.db := by
  have old : ∀ i c res, (i, c, res) ∈ s.log → P.Logged c res t.db := by
    intro i c res hmem
    rcases Service.step_db h with he | ⟨x, _, _, _, _, _, he⟩
    · rw [he]
      exact hs.logged i c res hmem
    · rw [he]
      exact logged_view x.writes (hs.logged i c res hmem)
  intro i c res hmem
  rcases Service.step_log h with he | ⟨j, rfl⟩
  · exact old i c res (he ▸ hmem)
  · have hdb : t.db = s.db := by cases h <;> rfl
    obtain ⟨x, res', hx, hlog, hans⟩ := Outline.answer_finish h (hs.tracked j)
    rw [hlog, mem_append, mem_singleton] at hmem
    rcases hmem with hmem | hmem
    · exact old i c res hmem
    · cases hmem
      rw [hdb]
      rcases hans with ⟨e, hr, rfl⟩ | ⟨g, y, hf, hl, hc⟩
      · exact P.raised _ e _ hr
      · exact hc ▸ P.finish hl hf

theorem invariant_step (h : M.step s l = some t) (hs : P.Invariant s) : P.Invariant t := by
  have hstep := Service.step_cases h
  refine ⟨Service.known_step hstep hs.known,
    Service.exclusive_step P.symm hstep hs.known hs.exclusive, pre_step hstep hs, ?_,
    logged_step hstep hs⟩
  intro i x hx
  by_cases hi : i = l.session
  · subst hi
    refine Outline.tracked_own hstep (fun _ => hs.pre) (fun _ => P.outage) ?_ (hs.tracked _) hx
    rintro i c rfl
    cases hstep with
    | start => exact P.start (pre_step (Service.step_cases h) hs) mem_cons_self
  · rw [Service.step_other hstep hi] at hx
    exact tracked_other hstep hs hi hx

end Protocol
end ReadCommitted
