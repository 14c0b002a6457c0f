import SkidMonitor.Lib.ReadCommitted

/-! What a run has committed, and which calls it has committed for. A call that commits
only as its last statement has either left the tables alone or is due to return `Ok`, so
what the tables gained can be accounted for by the answers. -/

namespace Prog

open List

variable {S : Type} {R : S → Type} {ε α β γ : Type} {d : S → Bool} {rows : (s : S) → R s → List γ}
  {due : α → List γ} {acc : List γ}

/-- The call returns `Ok` right after a statement of the kind `d` and at no other time, and
its answer is due exactly what its statements have entered by then. -/
def Balanced (d : S → Bool) (rows : (s : S) → R s → List γ) (due : α → List γ) :
    Prog S R ε α → List γ → Prop
  | ok _, _ => False
  | err _, _ => True
  | query s k, acc => ∀ r, if d s = true then ∃ a, k r = ok a ∧ due a = acc
      else (k r).Balanced d rows due (acc ++ rows s r)

/-- Statements that enter nothing do not matter. -/
theorem All.bind_balanced {p : Prog S R ε β} {f : β → Prog S R ε α}
    (hp : p.All fun s => d s = false ∧ ∀ r, rows s r = [])
    (hf : ∀ b, (f b).Balanced d rows due acc) : (p >>= f).Balanced d rows due acc := by
  induction p with
  | ok b => exact hf b
  | err e => trivial
  | query s k ih =>
    intro r
    obtain ⟨⟨hd, hrows⟩, hk⟩ := hp
    rw [hd, if_neg Bool.false_ne_true, hrows, append_nil]
    exact ih r (hk r)

theorem balanced_quiet {s : S} {f : R s → Prog S R ε α} (hf : ∀ r, (f r).Balanced d rows due acc)
    (hd : d s = false := by rfl) (hrows : ∀ r, rows s r = [] := by intro; rfl) :
    (send s >>= f).Balanced d rows due acc := by
  intro r
  rw [hd, if_neg Bool.false_ne_true, hrows, append_nil]
  exact hf r

theorem balanced_enter {s : S} {f : R s → Prog S R ε α}
    (hf : ∀ r, (f r).Balanced d rows due (acc ++ rows s r)) (hd : d s = false := by rfl) :
    (send s >>= f).Balanced d rows due acc := by
  intro r
  rw [hd, if_neg Bool.false_ne_true]
  exact hf r

theorem balanced_commit {s : S} {f : R s → Prog S R ε α}
    (hf : ∀ r, ∃ a, f r = ok a ∧ due a = acc) (hd : d s = true := by rfl) :
    (send s >>= f).Balanced d rows due acc := by
  intro r
  rw [if_pos hd]
  exact hf r

theorem Balanced.map {β : Type} {p : Prog S R ε β} {f : β → α}
    (h : p.Balanced d rows (fun b => due (f b)) acc) : (f <$> p).Balanced d rows due acc := by
  induction p generalizing acc with
  | ok b => exact h
  | err e => trivial
  | query s k ih =>
    intro r
    have hr := h r
    split at hr
    · obtain ⟨b, hb, hdue⟩ := hr
      rw [if_pos ‹_›]
      exact ⟨f b, congrArg (f <$> ·) hb, hdue⟩
    · rw [if_neg ‹_›]
      exact ih r hr

theorem balanced_check {x : Except ε β} {f : β → Prog S R ε α}
    (hf : ∀ b, x = .ok b → (f b).Balanced d rows due acc) :
    (ofExcept x >>= f).Balanced d rows due acc := by
  cases x with
  | error e => trivial
  | ok b => exact hf b rfl

theorem not_ok_of_balanced {p : Prog S R ε α} {a : α} (h : p.Balanced d rows due acc) : p ≠ ok a := by
  rintro rfl
  exact h

end Prog

namespace ReadCommitted.Service

open List

variable {S : Type} {R : S → Type} {D W L C E ε α κ γ : Type}
  (M : Service S R D W L C E ε α κ)

/-- The writes a label commits. -/
def commitOf (s : State S R D W L C ε α κ) : Label κ → List W
  | .exec i rd =>
    match s.sessions i with
    | none => []
    | some x =>
      match x.prog with
      | .query st _ =>
        match M.commits st, M.eval st x.conn (M.view s.db x.writes) rd with
        | true, .ok _ => x.writes
        | _, _ => []
      | _ => []
  | .lostAck i => ((s.sessions i).map (·.writes)).getD []
  | _ => []

/-- The writes a run commits, in the order of the commits. -/
def committed (s : State S R D W L C ε α κ) : List (Label κ) → List W
  | [] => []
  | l :: ls => M.commitOf s l ++ match M.step s l with
    | none => []
    | some t => committed t ls

variable {M} {s t u : State S R D W L C ε α κ} {l : Label κ} {labels : List (Label κ)}

theorem committed_append (hr : Runs.run M.step s labels = some t) (ls : List (Label κ)) :
    M.committed s (labels ++ ls) = M.committed s labels ++ M.committed t ls := by
  induction labels generalizing s with
  | nil =>
    cases hr
    rfl
  | cons l labels ih =>
    obtain ⟨u, hu, ht⟩ := Runs.run_cons.mp hr
    simp only [cons_append, committed, hu, ih ht, append_assoc]

theorem committed_concat (hr : Runs.run M.step s labels = some t) (hl : M.step t l = some u) :
    M.committed s (labels ++ [l]) = M.committed s labels ++ M.commitOf t l := by
  rw [committed_append hr]
  simp [committed, hl]

/-- A label commits nothing, or what the transaction of its session has written. -/
theorem commitOf_cases (h : M.Step s l t) :
    (M.commitOf s l = [] ∧ t.db = s.db) ∨ ∃ x st k, s.sessions l.session = some x ∧
      x.prog = .query st k ∧ M.commits st = true ∧ M.commitOf s l = x.writes ∧
      t.db = M.view s.db x.writes := by
  cases h with
  | start | outage | returned | failed => exact Or.inl ⟨rfl, rfl⟩
  | refused hx hp hc hd he => exact Or.inl ⟨by simp [commitOf, hx, hp, he], rfl⟩
  | advanced hx hp hc hd hn he => exact Or.inl ⟨by simp [commitOf, hx, hp, hn], rfl⟩
  | committed hx hp hc hd hn he =>
    exact Or.inr ⟨_, _, _, hx, hp, hn, by simp [commitOf, hx, hp, hn, he], rfl⟩
  | lostAck hx hp hn => exact Or.inr ⟨_, _, _, hx, hp, hn, by simp [commitOf, hx], rfl⟩

/-- The tables are what the committed writes have made of them. -/
theorem db_committed (hr : Runs.run M.step s labels = some t) :
    t.db = M.view s.db (M.committed s labels) := by
  refine Runs.run_history (I := fun ls u => u.db = M.view s.db (M.committed s ls)) rfl ?_ hr
  intro ls u l v hu hdb hv
  rw [committed_concat hu hv, view_append, ← hdb]
  rcases commitOf_cases (step_cases hv) with ⟨he, hsame⟩ | ⟨x, _, _, _, _, _, he, hview⟩
  · rw [he, hsame]
    rfl
  · rw [he, hview]

section Once

/-- A call returns once, and nothing is left of it then. -/
structure Once (s : State S R D W L C ε α κ) : Prop where
  waiting : ∀ i x, s.sessions i = some x → ∀ c res, (i, c, res) ∉ s.log
  single : (s.log.map Prod.fst).Nodup

theorem once_step (h : M.Step s l t) (hknown : Known s) (hs : Once s) : Once t := by
  have hfinish : ∀ {i x c res}, s.sessions i = some x →
      Once { s.drop i with log := s.log ++ [(i, c, res)] } := by
    intro i x c res hx
    constructor
    · intro j y hy c' res' hmem
      by_cases hj : j = i
      · subst hj
        simp at hy
      · rw [State.drop_ne _ hj] at hy
        simp only [mem_append, mem_singleton, Prod.mk.injEq, hj, false_and, or_false] at hmem
        exact hs.waiting j y hy c' res' hmem
    · rw [map_append, map_singleton, nodup_append]
      refine ⟨hs.single, pairwise_singleton _ _, fun j hj k hk hjk => ?_⟩
      obtain ⟨⟨_, c', res'⟩, he, rfl⟩ := mem_map.mp hj
      obtain rfl := hjk.trans (mem_singleton.mp hk)
      exact hs.waiting _ x hx c' res' he
  have hquiet : t.log = s.log → (∀ x, t.sessions l.session = some x →
      ∀ c res, (l.session, c, res) ∉ s.log) → Once t := by
    refine fun hlog hown => ⟨fun j y hy c res => ?_, hlog ▸ hs.single⟩
    rw [hlog]
    by_cases hj : j = l.session
    · subst hj
      exact hown y hy c res
    · rw [step_other h hj] at hy
      exact hs.waiting j y hy c res
  cases h with
  | returned hx hp | failed hx hp => exact hfinish hx
  | start hi => exact hquiet rfl fun _ _ => (hknown.fresh hi).2
  | refused hx | advanced hx | committed hx | outage hx | lostAck hx =>
    exact hquiet rfl fun _ _ => hs.waiting _ _ hx

theorem once_run (hs : s.Idle) (hr : Runs.run M.step s labels = some t) : Known t ∧ Once t := by
  refine Runs.run_invariant (I := fun u => Known u ∧ Once u) (fun u l v hu hv => ?_) hr
    ⟨⟨fun i x hx => ?_, fun i c res h => ?_⟩, fun i x hx => ?_, ?_⟩
  · exact ⟨known_step (step_cases hv) hu.1, once_step (step_cases hv) hu.1 hu.2⟩
  · simp [hs.sessions] at hx
  · simp [hs.log] at h
  · simp [hs.sessions] at hx
  · simp [hs.log]

end Once

section Accounts

/-- The call has come to this answer, returned or about to be. -/
def Answered (s : State S R D W L C ε α κ) (i : ℕ) (c : κ) (a : α) : Prop :=
  (i, c, .ok a) ∈ s.log ∨ ∃ x, s.sessions i = some x ∧ x.call = c ∧ x.prog = .ok a

/-- A session that has no `Ok` to return, before or after a step that logs nothing, has
not been answered by it. -/
theorem answered_set {i j : ℕ} {c : κ} {a : α} (hlog : t.log = s.log)
    (hother : ∀ j, j ≠ i → t.sessions j = s.sessions j)
    (hs : ∀ x a, s.sessions i = some x → x.prog ≠ .ok a)
    (ht : ∀ x a, t.sessions i = some x → x.prog ≠ .ok a) : Answered t j c a ↔ Answered s j c a := by
  unfold Answered
  rw [hlog]
  by_cases hj : j = i
  · subst hj
    refine or_congr Iff.rfl ⟨?_, ?_⟩
    · rintro ⟨x, hx, _, hp⟩
      exact (ht x a hx hp).elim
    · rintro ⟨x, hx, _, hp⟩
      exact (hs x a hx hp).elim
  · rw [hother j hj]

/-- Returning an answer does not change it. -/
theorem answered_finish {i j : ℕ} {c : κ} {a : α} (h : M.Step s (.finish i) t) :
    Answered t j c a ↔ Answered s j c a := by
  unfold Answered
  cases h with
  | @returned _ x b hx hp =>
    by_cases hj : j = i
    · subst hj
      simp only [mem_append, mem_singleton, Prod.mk.injEq, Except.ok.injEq, true_and,
        State.drop_self, reduceCtorEq, false_and, exists_false, or_false, hx, Option.some.injEq]
      refine or_congr Iff.rfl ⟨?_, ?_⟩
      · rintro ⟨rfl, rfl⟩
        exact ⟨x, rfl, rfl, hp⟩
      · rintro ⟨_, rfl, rfl, hb⟩
        rw [hp] at hb
        cases hb
        exact ⟨rfl, rfl⟩
    · simp [State.drop_ne _ hj, hj]
  | @failed _ x e hx hp =>
    by_cases hj : j = i
    · subst hj
      simp [hx, hp]
    · simp [State.drop_ne _ hj, hj]

/-- The answer a session has just come to. -/
theorem answered_commit {i j : ℕ} {c : κ} {a b : α} {y : Session S R W L C ε α κ}
    (hlog : t.log = s.log) (hother : ∀ j, j ≠ i → t.sessions j = s.sessions j)
    (hs : ∀ x a, s.sessions i = some x → x.prog ≠ .ok a) (hy : t.sessions i = some y)
    (hp : y.prog = .ok b) :
    Answered t j c a ↔ Answered s j c a ∨ j = i ∧ c = y.call ∧ a = b := by
  unfold Answered
  rw [hlog, or_assoc]
  refine or_congr Iff.rfl ?_
  by_cases hj : j = i
  · subst hj
    constructor
    · rintro ⟨x, hx, rfl, ha⟩
      obtain rfl := Option.some.inj (hy.symm.trans hx)
      rw [hp] at ha
      cases ha
      exact Or.inr ⟨rfl, rfl, rfl⟩
    · rintro (⟨x, hx, _, ha⟩ | ⟨_, rfl, rfl⟩)
      · exact (hs x a hx ha).elim
      · exact ⟨y, hy, rfl, hp⟩
  · simp [hother j hj, hj]

/-- A committed call: the answer it has come to and whether the commit was acknowledged. -/
structure Closing (κ α : Type) where
  session : ℕ
  call : κ
  answer : α
  acknowledged : Bool

variable (M) (rows : (s : S) → R s → List γ) (due : κ → α → List γ) (tally : W → List γ)

/-- The committed calls account for what was entered by the committed writes. -/
structure Accounted (s : State S R D W L C ε α κ) (labels : List (Label κ))
    (t : State S R D W L C ε α κ) (closed : List (Closing κ α)) : Prop where
  entered : (M.committed s labels).flatMap tally = closed.flatMap fun e => due e.call e.answer
  once : (closed.map (·.session)).Nodup
  made : ∀ e ∈ closed, (e.session, e.call) ∈ t.past.calls
  finished : ∀ e ∈ closed, ∀ x st k, t.sessions e.session = some x → x.prog ≠ .query st k
  answered : ∀ i c a, ⟨i, c, a, true⟩ ∈ closed ↔ Answered t i c a
  lost : ∀ i c a, ⟨i, c, a, false⟩ ∈ closed → .lostAck i ∈ labels

/-- A session has come to its answer or is still balanced. -/
def Tallied (x : Session S R W L C ε α κ) : Prop :=
  (∃ a, x.prog = .ok a) ∨
    x.prog.Balanced M.commits rows (due x.call) (x.writes.flatMap tally)

variable {M rows due tally}

theorem Tallied.rest {x : Session S R W L C ε α κ} {st : S} {k : R st → Prog S R ε α}
    (h : M.Tallied rows due tally x) (hp : x.prog = .query st k) (r : R st) :
    if M.commits st = true then ∃ a, k r = .ok a ∧ due x.call a = x.writes.flatMap tally
    else (k r).Balanced M.commits rows (due x.call) (x.writes.flatMap tally ++ rows st r) := by
  rcases h with ⟨a, ha⟩ | h
  · rw [hp] at ha
    cases ha
  · rw [hp] at h
    exact h r

/-- A step that brings its session to no answer leaves the answers as they are. -/
theorem answered_step {j : ℕ} {c : κ} {a : α} (h : M.Step s l t) (hknown : Known s)
    (hnot : ∀ y b, t.sessions l.session = some y → y.prog ≠ .ok b) :
    Answered t j c a ↔ Answered s j c a := by
  have hother := fun j hj => step_other (j := j) h hj
  have hquery : ∀ {i x st k}, s.sessions i = some x → x.prog = .query st k →
      ∀ y b, s.sessions i = some y → y.prog ≠ .ok b := by
    intro i x st k hx hp y b hy
    obtain rfl := Option.some.inj (hx.symm.trans hy)
    simp [hp]
  cases h with
  | returned hx hp => exact answered_finish (M := M) (.returned hx hp)
  | failed hx hp => exact answered_finish (M := M) (.failed hx hp)
  | start hi =>
    refine answered_set (s := s) rfl hother (fun x b hx => ?_) hnot
    rw [Label.session, (hknown.fresh hi).1] at hx
    cases hx
  | refused hx hp | advanced hx hp | committed hx hp | outage hx hp | lostAck hx hp =>
    exact answered_set (s := s) rfl hother (hquery hx hp) hnot

/-- A call that has sent its last statement sends no other one. -/
theorem over_step {i : ℕ} (h : M.Step s l t) (hi : i ∈ s.past.calls.map Prod.fst)
    (hs : ∀ x st k, s.sessions i = some x → x.prog ≠ .query st k) :
    ∀ x st k, t.sessions i = some x → x.prog ≠ .query st k := by
  intro y st k hy
  by_cases hl : i = l.session
  · subst hl
    cases h with
    | start hnew => exact (hnew hi).elim
    | returned | failed => simp [Label.session] at hy
    | refused hx hp | advanced hx hp | committed hx hp | outage hx hp | lostAck hx hp =>
      exact (hs _ _ _ hx hp).elim
  · rw [step_other h hl] at hy
    exact hs y st k hy

/-- A session that has changed the tables has sent its last statement. -/
theorem over_of_commit (h : M.Step s l t)
    (htally : ∀ x, s.sessions l.session = some x → M.Tallied rows due tally x)
    (hne : t.db ≠ s.db) : ¬ t.Waits l.session := by
  rintro ⟨y, st', k', hy, hq⟩
  cases h with
  | @committed i x st k rd r ws hx hp hc hd hn he =>
    have hrest := (htally x hx).rest hp r
    rw [if_pos hn] at hrest
    obtain ⟨a, ha, _⟩ := hrest
    obtain rfl := State.eq_of_set hy
    cases ha.symm.trans hq
  | lostAck =>
    obtain rfl := State.eq_of_set hy
    cases hq
  | _ => exact hne rfl

/-- One more committed call. -/
theorem accounted_close {closed : List (Closing κ α)} {x : Session S R W L C ε α κ} {st : S}
    {k : R st → Prog S R ε α} {a : α} {b : Bool} (hr : Runs.run M.step s labels = some t)
    (hl : M.step t l = some u) (hknown : Known t) (hs : M.Accounted due tally s labels t closed)
    (hx : t.sessions l.session = some x) (hp : x.prog = .query st k)
    (hcommit : M.commitOf t l = x.writes) (hdue : due x.call a = x.writes.flatMap tally)
    (hover : ∀ y st k, u.sessions l.session = some y → y.prog ≠ .query st k)
    (hans : ∀ i c a', Answered u i c a' ↔
      Answered t i c a' ∨ b = true ∧ i = l.session ∧ c = x.call ∧ a' = a)
    (hlost : b = false → l = .lostAck l.session) :
    M.Accounted due tally s (labels ++ [l]) u (closed ++ [⟨l.session, x.call, a, b⟩]) := by
  have hstep := step_cases hl
  have hpast := (step_past hstep).2
  refine ⟨?_, ?_, ?_, ?_, ?_, ?_⟩
  · rw [committed_concat hr hl, flatMap_append, flatMap_append, hs.entered, hcommit]
    simp [hdue]
  · rw [map_append, map_singleton, nodup_append]
    refine ⟨hs.once, pairwise_singleton _ _, fun i hi j hj hij => ?_⟩
    obtain ⟨e, he, rfl⟩ := mem_map.mp hi
    rw [mem_singleton.mp hj] at hij
    exact hs.finished e he x st k (hij ▸ hx) hp
  · intro e he
    rcases mem_append.mp he with he | he
    · exact hpast (hs.made e he)
    · rw [mem_singleton.mp he]
      exact hpast (hknown.opened _ x hx)
  · intro e he
    rcases mem_append.mp he with he | he
    · exact over_step hstep (mem_map_of_mem (hs.made e he)) (hs.finished e he)
    · rw [mem_singleton.mp he]
      exact hover
  · intro i c a'
    rw [hans, mem_append, hs.answered, mem_singleton]
    simp only [Closing.mk.injEq]
    constructor
    · rintro (h | ⟨hi, hc, ha, hb⟩)
      · exact Or.inl h
      · exact Or.inr ⟨hb.symm, hi, hc, ha⟩
    · rintro (h | ⟨hb, hi, hc, ha⟩)
      · exact Or.inl h
      · exact Or.inr ⟨hi, hc, ha, hb.symm⟩
  · intro i c a' he
    rcases mem_append.mp he with he | he
    · exact mem_append_left _ (hs.lost i c a' he)
    · simp only [mem_singleton, Closing.mk.injEq] at he
      rw [he.1]
      exact mem_append_right _ (mem_singleton.mpr (hlost he.2.2.2.symm).symm)

theorem accounted_keep {closed : List (Closing κ α)} (hr : Runs.run M.step s labels = some t)
    (hl : M.step t l = some u) (hknown : Known t) (hs : M.Accounted due tally s labels t closed)
    (hnone : M.commitOf t l = [])
    (hnot : ∀ y b, u.sessions l.session = some y → y.prog ≠ .ok b) :
    M.Accounted due tally s (labels ++ [l]) u closed := by
  have hstep := step_cases hl
  refine ⟨?_, hs.once, fun e he => (step_past hstep).2 (hs.made e he), ?_, ?_, ?_⟩
  · rw [committed_concat hr hl, hnone, append_nil]
    exact hs.entered
  · exact fun e he => over_step hstep (mem_map_of_mem (hs.made e he)) (hs.finished e he)
  · exact fun i c a => (hs.answered i c a).trans (answered_step hstep hknown hnot).symm
  · exact fun i c a he => mem_append_left _ (hs.lost i c a he)

section Step

variable (hprog : ∀ c, (M.program c).Balanced M.commits rows (due c) [])
  (heval : ∀ {st conn db rd r ws}, M.commits st = false →
    M.eval st conn db rd = .ok (r, ws) → ws.flatMap tally = rows st r)
include hprog heval

theorem tallied_step (h : M.Step s l t)
    (hs : ∀ i x, s.sessions i = some x → M.Tallied rows due tally x) :
    ∀ i x, t.sessions i = some x → M.Tallied rows due tally x := by
  intro j y hy
  by_cases hj : j = l.session
  · subst hj
    cases h with
    | returned | failed => simp [Label.session] at hy
    | start hi =>
      exact Or.inr (State.eq_of_set hy ▸ hprog _)
    | refused | outage | lostAck =>
      exact Or.inr (State.eq_of_set hy ▸ trivial)
    | @committed i x st k rd r ws hx hp hc hd hn he =>
      have hrest := (hs _ x hx).rest hp r
      rw [if_pos hn] at hrest
      obtain ⟨a, ha, _⟩ := hrest
      exact Or.inl ⟨a, State.eq_of_set hy ▸ ha⟩
    | @advanced i x st k rd r ws hx hp hc hd hn he =>
      have hrest := (hs _ x hx).rest hp r
      rw [hn, if_neg Bool.false_ne_true, ← heval hn he, ← flatMap_append] at hrest
      exact Or.inr (State.eq_of_set hy ▸ hrest)
  · rw [step_other h hj] at hy
    exact hs j y hy

end Step

theorem accounted_step {closed : List (Closing κ α)}
    (hprog : ∀ c, (M.program c).Balanced M.commits rows (due c) []) (hresp : ∀ st, Nonempty (R st))
    (hr : Runs.run M.step s labels = some t) (hl : M.step t l = some u) (hknown : Known t)
    (htally : ∀ i x, t.sessions i = some x → M.Tallied rows due tally x)
    (hs : M.Accounted due tally s labels t closed) :
    ∃ closed', M.Accounted due tally s (labels ++ [l]) u closed' := by
  have hstep := step_cases hl
  have herr : ∀ {y z b} {e : ε}, u.sessions l.session = some z → z.prog = .err e →
      u.sessions l.session = some y → y.prog ≠ .ok b := by
    intro y z b e hz he hy
    obtain rfl := Option.some.inj (hz.symm.trans hy)
    simp [he]
  cases hstep with
  | start hi =>
    refine ⟨closed, accounted_keep hr hl hknown hs rfl fun y b hy => ?_⟩
    obtain rfl := State.eq_of_set hy
    exact Prog.not_ok_of_balanced (hprog _)
  | returned hx hp | failed hx hp =>
    refine ⟨closed, accounted_keep hr hl hknown hs rfl fun y b hy => ?_⟩
    simp [Label.session] at hy
  | outage hx hp =>
    exact ⟨closed, accounted_keep hr hl hknown hs rfl fun y b hy =>
      herr (State.set_self _ _ _) rfl hy⟩
  | refused hx hp hc hd he =>
    refine ⟨closed, accounted_keep hr hl hknown hs ?_ fun y b hy =>
      herr (State.set_self _ _ _) rfl hy⟩
    simp [commitOf, hx, hp, he]
  | @advanced i x st k rd r ws hx hp hc hd hn he =>
    refine ⟨closed, accounted_keep hr hl hknown hs ?_ fun y b hy hb => ?_⟩
    · simp [commitOf, hx, hp, hn]
    · obtain rfl := State.eq_of_set hy
      have hrest := (htally _ x hx).rest hp r
      rw [hn, if_neg Bool.false_ne_true, show k r = .ok b from hb] at hrest
      exact hrest
  | @lostAck i x st k hx hp hn =>
    obtain ⟨r⟩ := hresp st
    have hrest := (htally _ x hx).rest hp r
    rw [if_pos hn] at hrest
    obtain ⟨a, _, hdue⟩ := hrest
    refine ⟨_, accounted_close hr hl hknown hs (b := false) hx hp ?_ hdue ?_ ?_ fun _ => rfl⟩
    · simp [commitOf, hx]
    · intro y st' k' hy
      obtain rfl := State.eq_of_set hy
      simp [close]
    · intro j c a'
      rw [answered_step (step_cases hl) hknown fun y b hy => herr (State.set_self _ _ _) rfl hy]
      simp
  | @committed i x st k rd r ws hx hp hc hd hn he =>
    have hrest := (htally _ x hx).rest hp r
    rw [if_pos hn] at hrest
    obtain ⟨a, hka, hdue⟩ := hrest
    refine ⟨_, accounted_close hr hl hknown hs (b := true) hx hp ?_ hdue ?_ ?_ (by simp)⟩
    · simp [commitOf, hx, hp, hn, he]
    · intro y st' k' hy
      obtain rfl := State.eq_of_set hy
      simp [close, hka]
    · intro j c a'
      have hquery : ∀ y b, t.sessions i = some y → y.prog ≠ .ok b := by
        intro y b hy
        obtain rfl := Option.some.inj (hx.symm.trans hy)
        simp [hp]
      have hother := fun j hj => step_other (j := j) (step_cases hl) hj
      refine (answered_commit ?_ hother hquery (State.set_self _ _ _) hka).trans ?_
      · rfl
      · simp [Label.session, close, blank]

section Run

variable (hprog : ∀ c, (M.program c).Balanced M.commits rows (due c) [])
  (heval : ∀ {st conn db rd r ws}, M.commits st = false →
    M.eval st conn db rd = .ok (r, ws) → ws.flatMap tally = rows st r)
include hprog heval

theorem tallied_run (hs : s.Idle) (hr : Runs.run M.step s labels = some t) :
    ∀ i x, t.sessions i = some x → M.Tallied rows due tally x := by
  refine Runs.run_invariant (I := fun u => ∀ i x, u.sessions i = some x → M.Tallied rows due tally x)
    (fun u l v hu hv => tallied_step hprog heval (step_cases hv) hu) hr fun i x hx => ?_
  simp [hs.sessions] at hx

/-- Along every run the committed calls account for what the committed writes entered. -/
theorem accounted_run (hresp : ∀ st, Nonempty (R st)) (hs : s.Idle)
    (hr : Runs.run M.step s labels = some t) :
    ∃ closed, M.Accounted due tally s labels t closed := by
  refine Runs.run_history (I := fun ls u => ∃ closed, M.Accounted due tally s ls u closed)
    ⟨[], rfl, nodup_nil, by simp, by simp, by simp [Answered, hs.log, hs.sessions], by simp⟩
    ?_ hr
  rintro ls u l v hu ⟨closed, hacc⟩ hv
  exact accounted_step hprog hresp hu hv (once_run hs hu).1 (tallied_run hprog heval hs hu) hacc

end Run

end Accounts

section Settled

/-- The call of the session returns `Ok` if it returns. -/
def Settled (i : ℕ) (s : State S R D W L C ε α κ) : Prop :=
  i ∈ s.past.calls.map Prod.fst ∧ (∀ c e, (i, c, .error e) ∉ s.log) ∧
    ∀ x, s.sessions i = some x → ∃ a, x.prog = .ok a

theorem settled_step {i : ℕ} (h : M.Step s l t) (hs : Settled i s) : Settled i t := by
  obtain ⟨hcall, hlog, hprog⟩ := hs
  have hpast := (step_past h).2
  have hcall' : i ∈ t.past.calls.map Prod.fst := map_subset _ hpast hcall
  by_cases hi : i = l.session
  · subst hi
    cases h with
    | start hnew => exact (hnew hcall).elim
    | refused hx hp | advanced hx hp | committed hx hp | outage hx hp | lostAck hx hp =>
      obtain ⟨a, ha⟩ := hprog _ hx
      rw [hp] at ha
      cases ha
    | returned hx hp =>
      refine ⟨hcall', fun c e he => ?_, by simp [Label.session]⟩
      simp only [mem_append, mem_singleton, Prod.mk.injEq, reduceCtorEq, and_false,
        or_false] at he
      exact hlog c e he
    | failed hx hp =>
      obtain ⟨a, ha⟩ := hprog _ hx
      rw [hp] at ha
      cases ha
  · rw [Settled, step_other h hi]
    refine ⟨hcall', fun c e he => ?_, hprog⟩
    cases h with
    | returned hx hp | failed hx hp =>
      simp only [mem_append, mem_singleton, Prod.mk.injEq] at he
      rcases he with he | ⟨rfl, _⟩
      · exact hlog c e he
      · exact hi rfl
    | _ => exact hlog c e he

/-- No step of a call that returns an error changes the tables, unless it commits and the
acknowledgement is lost. -/
theorem db_of_error {i : ℕ} {c : κ} {e : ε} {post : List (Label κ)}
    {rows : (s : S) → R s → List γ} {due : κ → α → List γ} {tally : W → List γ}
    (hknown : Known s) (honce : Once s)
    (htally : ∀ i x, s.sessions i = some x → M.Tallied rows due tally x)
    (hl : M.step s l = some u) (hi : l.session = i) (hack : l ≠ .lostAck i)
    (hr : Runs.run M.step u post = some t) (herr : (i, c, .error e) ∈ t.log) : u.db = s.db := by
  by_contra hne
  subst hi
  have hsettled : Settled l.session u := by
    cases step_cases hl with
    | lostAck => exact (hack rfl).elim
    | @committed i x st k rd r ws hx hp hc hd hn he =>
      have hrest := (htally _ x hx).rest hp r
      rw [if_pos hn] at hrest
      obtain ⟨a, ha, _⟩ := hrest
      refine ⟨?_, fun c e => honce.waiting _ x hx c _, fun y hy => ⟨a, ?_⟩⟩
      · change i ∈ (M.after st rd s.past).calls.map Prod.fst
        rw [after_calls]
        exact mem_map_of_mem (hknown.opened _ x hx)
      · obtain rfl := State.eq_of_set hy
        exact ha
    | _ => exact (hne rfl).elim
  exact (Runs.run_invariant (fun _ _ _ hs h => settled_step (step_cases h) hs) hr hsettled).2.1 c e
    herr

end Settled

end ReadCommitted.Service
