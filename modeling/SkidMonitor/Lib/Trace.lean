import SkidMonitor.Lib.Ledger

/-! The statements a run has executed: every write and every answer goes back to one. -/

namespace Prog

open List

variable {S : Type} {R : S → Type} {ε α β : Type} {Q : (s : S) → R s → Prop} {P : α → Prop}

/-- The call has no answer satisfying `P` before a statement is answered as `Q` says. -/
def Backed (Q : (s : S) → R s → Prop) (P : α → Prop) : Prog S R ε α → Prop
  | ok a => ¬ P a
  | err _ => True
  | query s k => ∀ r, Q s r ∨ (k r).Backed Q P

theorem Backed.map {f : β → α} {p : Prog S R ε β} (h : p.Backed Q fun b => P (f b)) :
    (f <$> p).Backed Q P := by
  induction p with
  | ok b => exact h
  | err e => trivial
  | query s k ih => exact fun r => (h r).imp id (ih r)

theorem backed_bind {p : Prog S R ε β} {f : β → Prog S R ε α} (hf : ∀ b, (f b).Backed Q P) :
    (p >>= f).Backed Q P := by
  induction p with
  | ok b => exact hf b
  | err e => trivial
  | query s k ih => exact fun r => Or.inr (ih r)

end Prog

namespace ReadCommitted.Service

open List

variable {S : Type} {R : S → Type} {D W L C E ε α κ : Type}
  (M : Service S R D W L C E ε α κ)

/-- In the run the call `c` of session `i` had this statement executed in the state `u`, with
this answer and these writes. -/
structure Sent (s : State S R D W L C ε α κ) (labels : List (Label κ)) (i : ℕ) (c : κ)
    (rd : Reading) (u : State S R D W L C ε α κ) (st : S) (r : R st) (ws : List W) : Prop where
  split : ∃ pre post, labels = pre ++ .exec i rd :: post ∧ Runs.run M.step s pre = some u
  call : ∃ x k, u.sessions i = some x ∧ x.call = c ∧ x.prog = .query st k ∧
    M.eval st x.conn (M.view u.db x.writes) rd = .ok (r, ws)

/-- In the run session `i` had the statement executed with these readings. -/
def Executed (s : State S R D W L C ε α κ) (labels : List (Label κ)) (i : ℕ) (st : S)
    (rd : Reading) : Prop :=
  ∃ c u r ws, M.Sent s labels i c rd u st r ws

variable {M} {s t u : State S R D W L C ε α κ} {l : Label κ} {labels : List (Label κ)}
  {i : ℕ} {c : κ} {rd : Reading} {st : S} {r : R st} {ws : List W}

theorem Sent.later (h : M.Sent s labels i c rd u st r ws) (ls : List (Label κ)) :
    M.Sent s (labels ++ ls) i c rd u st r ws := by
  obtain ⟨⟨pre, post, rfl, hpre⟩, hcall⟩ := h
  exact ⟨⟨pre, post ++ ls, by simp, hpre⟩, hcall⟩

theorem Executed.later (h : M.Executed s labels i st rd) (ls : List (Label κ)) :
    M.Executed s (labels ++ ls) i st rd := by
  obtain ⟨c, u, r, ws, hsent⟩ := h
  exact ⟨c, u, r, ws, hsent.later ls⟩

theorem calls_run (hr : Runs.run M.step s labels = some t) : s.past.calls ⊆ t.past.calls :=
  Runs.run_rel (I := fun _ => True) (R := fun s t => s.past.calls ⊆ t.past.calls)
    (fun _ => List.Subset.refl _) (fun _ _ _ => List.Subset.trans) (fun _ _ _ _ _ => trivial)
    (fun _ _ _ _ h => (step_past (step_cases h)).2) trivial hr

/-- What a transaction has written, its statements have written. -/
theorem written_run (hs : s.Idle) (hr : Runs.run M.step s labels = some t) :
    ∀ i x, t.sessions i = some x → ∀ w ∈ x.writes, ∃ rd u st r ws,
      M.Sent s labels i x.call rd u st r ws ∧ w ∈ ws := by
  refine Runs.run_history (I := fun ls v => ∀ i x, v.sessions i = some x → ∀ w ∈ x.writes,
    ∃ rd u st r ws, M.Sent s ls i x.call rd u st r ws ∧ w ∈ ws)
    (fun i x hx => by simp [hs.sessions] at hx) ?_ hr
  intro ls u l v hu hw hv j y hy w hmem
  have hstep := step_cases hv
  have hold : ∀ x, u.sessions j = some x → x.call = y.call → w ∈ x.writes →
      ∃ rd z st r ws, M.Sent s (ls ++ [l]) j y.call rd z st r ws ∧ w ∈ ws := by
    intro x hx hcall hwx
    obtain ⟨rd, z, st, r, ws, hsent, hws⟩ := hw j x hx w hwx
    exact ⟨rd, z, st, r, ws, hcall ▸ hsent.later [l], hws⟩
  by_cases hj : j = l.session
  · subst hj
    have hnone : y.writes = [] → False := fun he => by simp [he] at hmem
    cases hstep with
    | returned | failed => simp [Label.session] at hy
    | start | refused | committed | outage | lostAck =>
      exact (hnone (State.eq_of_set hy ▸ rfl)).elim
    | @advanced i x st k rd r ws hx hp hc hd hn he =>
      obtain rfl := State.eq_of_set hy
      rcases mem_append.mp hmem with hmem | hmem
      · exact hold x hx rfl hmem
      · exact ⟨rd, u, st, r, ws, ⟨⟨ls, [], rfl, hu⟩, x, k, hx, rfl, hp, he⟩, hmem⟩
  · rw [step_other hstep hj] at hy
    exact hold y hy rfl hmem

/-- Every committed write was written by a statement of a call that was made. -/
theorem committed_sent (hs : s.Idle) (hr : Runs.run M.step s labels = some t) {w : W}
    (hw : w ∈ M.committed s labels) : ∃ i c rd u st r ws, (i, c) ∈ t.past.calls ∧
      M.Sent s labels i c rd u st r ws ∧ w ∈ ws := by
  revert hw
  refine Runs.run_history (I := fun ls v => w ∈ M.committed s ls → ∃ i c rd u st r ws,
    (i, c) ∈ v.past.calls ∧ M.Sent s ls i c rd u st r ws ∧ w ∈ ws) (fun hw => by cases hw) ?_ hr
  intro ls u l v hu ih hv hw
  have hstep := step_cases hv
  have hpast := (step_past hstep).2
  rw [committed_concat hu hv, mem_append] at hw
  rcases hw with hw | hw
  · obtain ⟨i, c, rd, z, st, r, ws, hcall, hsent, hws⟩ := ih hw
    exact ⟨i, c, rd, z, st, r, ws, hpast hcall, hsent.later [l], hws⟩
  · rcases commitOf_cases hstep with ⟨he, _⟩ | ⟨x, _, _, hx, _, _, he, _⟩
    · rw [he] at hw
      cases hw
    · rw [he] at hw
      obtain ⟨rd, z, st, r, ws, hsent, hws⟩ := written_run hs hu _ x hx w hw
      exact ⟨_, _, rd, z, st, r, ws, hpast ((once_run hs hu).1.opened _ x hx), hsent.later [l], hws⟩

section Backed

variable {Q : (s : S) → R s → Prop} {a : α}

/-- The answer of the call, where it has come to it, is backed by a statement. -/
structure Vouched (M : Service S R D W L C E ε α κ) (Q : (s : S) → R s → Prop) (a : α)
    (s : State S R D W L C ε α κ) (labels : List (Label κ)) (i : ℕ) (c : κ)
    (t : State S R D W L C ε α κ) : Prop where
  session : ∀ x, t.sessions i = some x → x.call = c → x.prog.Backed Q (· = a) ∨
    ∃ rd u st r ws, M.Sent s labels i c rd u st r ws ∧ Q st r
  log : (i, c, .ok a) ∈ t.log → ∃ rd u st r ws, M.Sent s labels i c rd u st r ws ∧ Q st r

theorem vouched_step (hprog : (M.program c).Backed Q (· = a))
    (hr : Runs.run M.step s labels = some t) (hl : M.step t l = some u)
    (hs : Vouched M Q a s labels i c t) : Vouched M Q a s (labels ++ [l]) i c u := by
  have hstep := step_cases hl
  have hlater : (∃ rd u st r ws, M.Sent s labels i c rd u st r ws ∧ Q st r) →
      ∃ rd u st r ws, M.Sent s (labels ++ [l]) i c rd u st r ws ∧ Q st r := by
    rintro ⟨rd, z, st, r, ws, hsent, hq⟩
    exact ⟨rd, z, st, r, ws, hsent.later [l], hq⟩
  -- A statement of the call is answered: the answer is the one looked for, or the rest is backed.
  have hnext : ∀ {x st k rd r ws}, l = .exec i rd → t.sessions i = some x → x.call = c →
      x.prog = .query st k → M.eval st x.conn (M.view t.db x.writes) rd = .ok (r, ws) →
      (k r).Backed Q (· = a) ∨ ∃ rd u st r ws, M.Sent s (labels ++ [l]) i c rd u st r ws ∧ Q st r := by
    rintro x st k rd r ws rfl hx hc hp he
    rcases hs.session x hx hc with hb | hsent
    · rw [hp] at hb
      rcases hb r with hq | hb
      · exact Or.inr ⟨rd, t, st, r, ws, ⟨⟨labels, [], rfl, hr⟩, x, k, hx, hc, hp, he⟩, hq⟩
      · exact Or.inl hb
    · exact Or.inr (hlater hsent)
  constructor
  · intro y hy hc
    by_cases hi : i = l.session
    · subst hi
      cases hstep with
      | returned | failed => simp [Label.session] at hy
      | start hi =>
        obtain rfl := State.eq_of_set hy
        cases hc
        exact Or.inl hprog
      | refused | outage | lostAck =>
        exact Or.inl (State.eq_of_set hy ▸ trivial)
      | committed hx hp _ _ _ he | advanced hx hp _ _ _ he =>
        obtain rfl := State.eq_of_set hy
        exact hnext rfl hx hc hp he
    · rw [step_other hstep hi] at hy
      exact (hs.session y hy hc).imp id hlater
  · intro hmem
    cases hstep with
    | @returned j x b hx hp =>
      simp only [mem_append, mem_singleton, Prod.mk.injEq, Except.ok.injEq] at hmem
      rcases hmem with hmem | ⟨rfl, hc, rfl⟩
      · exact hlater (hs.log hmem)
      · refine ((hs.session x hx hc.symm).imp id hlater).resolve_left fun hb => ?_
        rw [hp] at hb
        exact hb rfl
    | failed =>
      simp only [mem_append, mem_singleton, Prod.mk.injEq, reduceCtorEq, and_false,
        or_false] at hmem
      exact hlater (hs.log hmem)
    | _ => exact hlater (hs.log hmem)

theorem backed_run (hprog : (M.program c).Backed Q (· = a)) (hs : s.Idle)
    (hr : Runs.run M.step s labels = some t) (hlog : (i, c, .ok a) ∈ t.log) :
    ∃ rd u st r ws, M.Sent s labels i c rd u st r ws ∧ Q st r := by
  refine (Runs.run_history (I := fun ls v => Vouched M Q a s ls i c v) ⟨fun x hx => ?_, fun h => ?_⟩
    (fun ls u l v hu hvouch hv => vouched_step hprog hu hv hvouch) hr).log hlog
  · simp [hs.sessions] at hx
  · simp [hs.log] at h

end Backed

end ReadCommitted.Service
