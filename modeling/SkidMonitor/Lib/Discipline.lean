import SkidMonitor.Lib.Ledger

/-! Writes under locks. If a transaction holds the locks of the parts of the tables its
writes depend on, what made them legal when their statements ran makes them legal when it
commits. -/
namespace ReadCommitted

open List

variable {S : Type} {R : S → Type} {D W L C E ε α κ P : Type}

/-- Each write is legal in the tables as the writes before it have left them. -/
def Service.Legally (M : Service S R D W L C E ε α κ) (Legal : D → W → Prop) : D → List W → Prop
  | _, [] => True
  | db, w :: ws => Legal db w ∧ M.Legally Legal (M.apply db w) ws

/-- Which writes are legal, and the locks whose parts of the tables decide about it. -/
structure Discipline (M : Service S R D W L C E ε α κ) (P : Type) where
  Legal : D → W → Prop
  Guards : W → L → Prop
  part : L → D → P
  exclusive : ∀ {w a}, Guards w a → M.conflicts a a = true
  legal_congr : ∀ {w db db'}, (∀ a, Guards w a → part a db' = part a db) → Legal db w → Legal db' w
  part_congr : ∀ {w a db db'}, part a db' = part a db →
    part a (M.apply db' w) = part a (M.apply db w)
  part_other : ∀ {w a db}, ¬ Guards w a → part a (M.apply db w) = part a db
  locked : ∀ {st conn db rd r ws}, M.eval st conn db rd = .ok (r, ws) →
    ∀ w ∈ ws, ∀ a, Guards w a → a ∈ M.locks st conn db rd
  legal : ∀ {st conn db rd r ws}, M.eval st conn db rd = .ok (r, ws) → M.Legally Legal db ws

namespace Discipline

variable {M : Service S R D W L C E ε α κ} (K : Discipline M P) {db db' : D} {ws vs : List W}

theorem legally_append : M.Legally K.Legal db (ws ++ vs) ↔
    M.Legally K.Legal db ws ∧ M.Legally K.Legal (M.view db ws) vs := by
  induction ws generalizing db with
  | nil => simp [Service.Legally]
  | cons w ws ih => simp [Service.Legally, ih, and_assoc]

variable {K}

theorem part_view {a : L} (h : ∀ w ∈ ws, ¬ K.Guards w a) :
    K.part a (M.view db ws) = K.part a db :=
  M.view_eq (K.part a) fun w hw _ => K.part_other (h w hw)

theorem legally_congr (h : ∀ w ∈ ws, ∀ a, K.Guards w a → K.part a db' = K.part a db)
    (hlegal : M.Legally K.Legal db ws) : M.Legally K.Legal db' ws := by
  induction ws generalizing db db' with
  | nil => trivial
  | cons w ws ih =>
    refine ⟨K.legal_congr (h w mem_cons_self) hlegal.1, ih (fun v hv a ha => ?_) hlegal.2⟩
    exact K.part_congr (h v (mem_cons_of_mem w hv) a ha)

variable (K)

/-- The writes of a transaction are legal and it holds their locks. -/
structure Obeys (x : Txn W L C κ) (db : D) : Prop where
  legal : M.Legally K.Legal db x.writes
  held : ∀ w ∈ x.writes, ∀ a, K.Guards w a → a ∈ x.held

variable {K} {s t : State S R D W L C ε α κ} {l : Label κ} {labels : List (Label κ)}

/-- What a transaction has written stays legal when another one commits. -/
theorem Obeys.frame {x y : Txn W L C κ} (hx : K.Obeys x db) (hy : K.Obeys y db)
    (hfree : ∀ a ∈ y.held, ∀ b ∈ x.held, M.conflicts a b = false) :
    K.Obeys x (M.view db y.writes) := by
  refine ⟨legally_congr (fun w hw a ha => part_view fun v hv hguard => ?_) hx.legal, hx.held⟩
  have hno := hfree a (hy.held v hv a hguard) a (hx.held w hw a ha)
  rw [K.exclusive ha] at hno
  cases hno

theorem obeys_step (h : M.Step s l t) (hexcl : Service.Exclusive M s)
    (hs : ∀ i x, s.sessions i = some x → K.Obeys x.toTxn s.db) :
    ∀ i x, t.sessions i = some x → K.Obeys x.toTxn t.db := by
  intro j y hy
  by_cases hj : j = l.session
  · subst hj
    have hnone : y.writes = [] → K.Obeys y.toTxn t.db := fun he =>
      ⟨by rw [he]; trivial, by simp [he]⟩
    cases h with
    | returned | failed => simp [Label.session] at hy
    | start | refused | committed | outage | lostAck =>
      exact hnone (State.eq_of_set hy ▸ rfl)
    | @advanced i x st k rd r ws hx hp hc hd hn he =>
      obtain rfl := State.eq_of_set hy
      obtain ⟨hlegal, hheld⟩ := hs _ x hx
      refine ⟨K.legally_append.mpr ⟨hlegal, K.legal he⟩, fun w hw a ha => ?_⟩
      rcases mem_append.mp hw with hw | hw
      · exact mem_append_left _ (hheld w hw a ha)
      · exact mem_append_right _ (K.locked he w hw a ha)
  · rw [Service.step_other h hj] at hy
    rcases Service.step_db h with he | ⟨x, _, _, hx, _, _, he⟩
    · rw [he]
      exact hs j y hy
    · rw [he]
      exact (hs j y hy).frame (hs _ x hx) (hexcl _ j x y (Ne.symm hj) hx hy)

/-- The writes a run commits are legal one after the other. -/
theorem legally_run (hsymm : ∀ a b, M.conflicts a b = M.conflicts b a) (hs : s.Idle)
    (hr : Runs.run M.step s labels = some t) :
    M.Legally K.Legal s.db (M.committed s labels) ∧ Service.Exclusive M t ∧
      ∀ i x, t.sessions i = some x → K.Obeys x.toTxn t.db := by
  refine Runs.run_history (I := fun ls u => M.Legally K.Legal s.db (M.committed s ls) ∧
    Service.Exclusive M u ∧ ∀ i x, u.sessions i = some x → K.Obeys x.toTxn u.db)
    ⟨trivial, fun i j x y _ hx => by simp [hs.sessions] at hx,
      fun i x hx => by simp [hs.sessions] at hx⟩ ?_ hr
  rintro ls u l v hu ⟨hlegal, hexcl, hobeys⟩ hv
  have hstep := Service.step_cases hv
  refine ⟨?_, Service.exclusive_step hsymm hstep (Service.once_run hs hu).1 hexcl,
    obeys_step hstep hexcl hobeys⟩
  rw [Service.committed_concat hu hv, K.legally_append, ← Service.db_committed hu]
  refine ⟨hlegal, ?_⟩
  rcases Service.commitOf_cases hstep with ⟨he, _⟩ | ⟨x, _, _, hx, _, _, he, _⟩
  · rw [he]
    trivial
  · rw [he]
    exact (hobeys _ x hx).legal

end Discipline

end ReadCommitted
