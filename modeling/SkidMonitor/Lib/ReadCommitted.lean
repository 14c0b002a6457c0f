import SkidMonitor.Lib.Run
import SkidMonitor.Lib.Prog

/-! Concurrent calls on a database at the read committed level. Each call runs its
statements in one transaction. A statement sees the rows committed so far under the
writes of its own transaction, waits while another transaction holds a conflicting
lock, and keeps the locks it takes until its transaction ends. -/
namespace ReadCommitted

open List

/-- What a statement reads from outside the tables. -/
structure Reading where
  now : ℕ
  fresh : ℤ
  deriving DecidableEq, Repr

/-- A database with statements `S`, tables `D`, row writes `W`, locks `L`, transaction
settings `C` and errors `E`, and the calls `κ` its clients make on it. -/
structure Service (S : Type) (R : S → Type) (D W L C E ε α κ : Type) where
  apply : D → W → D
  eval : (s : S) → C → D → Reading → Except E (R s × List W)
  locks : S → C → D → Reading → List L
  conflicts : L → L → Bool
  configure : S → Reading → C → C
  idle : C
  commits : S → Bool
  draws : S → Bool
  maxIdentity : ℤ
  outage : E
  program : κ → Prog S R ε α
  raise : E → ε

/-- A call and its transaction: settings, writes not yet committed, locks. -/
structure Txn (W L C κ : Type) where
  call : κ
  conn : C
  writes : List W
  held : List L

/-- `prog` is what the call has still to do. -/
structure Session (S : Type) (R : S → Type) (W L C ε α κ : Type) extends Txn W L C κ where
  prog : Prog S R ε α

/-- What no rollback takes back: the identity value handed out last and the calls made. -/
structure Past (κ : Type) where
  last : ℤ
  calls : List (ℕ × κ)

instance {κ : Type} : LE (Past κ) := ⟨fun p q => p.last ≤ q.last ∧ p.calls ⊆ q.calls⟩

theorem Past.le_refl {κ : Type} (p : Past κ) : p ≤ p := ⟨Int.le_refl _, List.Subset.refl _⟩

structure State (S : Type) (R : S → Type) (D W L C ε α κ : Type) where
  db : D
  past : Past κ
  sessions : ℕ → Option (Session S R W L C ε α κ)
  log : List (ℕ × κ × Except ε α)

/-- `outage` loses a transaction at its next statement. `lostAck` commits it and
loses the acknowledgement. -/
inductive Label (κ : Type) where
  | start (i : ℕ) (c : κ)
  | exec (i : ℕ) (rd : Reading)
  | outage (i : ℕ)
  | lostAck (i : ℕ)
  | finish (i : ℕ)
  deriving DecidableEq

def Label.session {κ : Type} : Label κ → ℕ
  | .start i _ | .exec i _ | .outage i | .lostAck i | .finish i => i

/-- The labels by which a statement or an acknowledgement is lost. -/
def Label.faulty {κ : Type} : Label κ → Bool
  | .outage _ | .lostAck _ => true
  | _ => false

variable {S : Type} {R : S → Type} {D W L C E ε α κ : Type}

namespace State

variable (s : State S R D W L C ε α κ)

def set (i : ℕ) (sess : Session S R W L C ε α κ) : State S R D W L C ε α κ :=
  { s with sessions := Function.update s.sessions i (some sess) }

def drop (i : ℕ) : State S R D W L C ε α κ :=
  { s with sessions := Function.update s.sessions i none }

/-- The state once the call `c` has been made. -/
def call (i : ℕ) (c : κ) : State S R D W L C ε α κ :=
  { s with past := { s.past with calls := (i, c) :: s.past.calls } }

@[simp] theorem set_self (i : ℕ) (x : Session S R W L C ε α κ) :
    (s.set i x).sessions i = some x := by simp [set]
@[simp] theorem set_past (i : ℕ) (x : Session S R W L C ε α κ) : (s.set i x).past = s.past := rfl

theorem eq_of_set {s : State S R D W L C ε α κ} {i : ℕ} {x y : Session S R W L C ε α κ}
    (h : (s.set i x).sessions i = some y) : x = y := Option.some.inj ((s.set_self i x).symm.trans h)

theorem set_ne {i j : ℕ} (x : Session S R W L C ε α κ) (h : j ≠ i) :
    (s.set i x).sessions j = s.sessions j := by simp [set, h]

@[simp] theorem drop_self (i : ℕ) : (s.drop i).sessions i = none := by simp [drop]

theorem drop_ne {i j : ℕ} (h : j ≠ i) : (s.drop i).sessions j = s.sessions j := by
  simp [drop, h]

/-- The session has a statement to send. -/
def Waits (i : ℕ) : Prop := ∃ x st k, s.sessions i = some x ∧ x.prog = .query st k

/-- No call has been made yet. -/
structure Idle : Prop where
  calls : s.past.calls = []
  sessions : ∀ i, s.sessions i = none
  log : s.log = []

end State

namespace Service

variable (M : Service S R D W L C E ε α κ)

/-- The tables as a transaction with these writes sees them. -/
def view (db : D) (ws : List W) : D := ws.foldl M.apply db

@[simp] theorem view_nil (db : D) : M.view db [] = db := rfl
@[simp] theorem view_cons (db : D) (w : W) (ws : List W) :
    M.view db (w :: ws) = M.view (M.apply db w) ws := rfl
theorem view_append (db : D) (ws vs : List W) :
    M.view db (ws ++ vs) = M.view (M.view db ws) vs := by simp [view]

/-- What no write changes is the same in the view. -/
theorem view_eq {β : Type} (f : D → β) {db : D} {ws : List W}
    (h : ∀ w ∈ ws, ∀ db, f (M.apply db w) = f db) : f (M.view db ws) = f db := by
  induction ws generalizing db with
  | nil => rfl
  | cons w ws ih =>
    obtain ⟨hw, hws⟩ := forall_mem_cons.mp h
    exact (ih hws).trans (hw db)

/-- A call with no transaction open: it keeps no write and no lock. -/
def blank (c : κ) : Txn W L C κ := ⟨c, M.idle, [], []⟩

def enter (c : κ) : Session S R W L C ε α κ := ⟨M.blank c, M.program c⟩

/-- No other transaction holds a lock in conflict with these. -/
def clear (s : State S R D W L C ε α κ) (i : ℕ) (ls : List L) : Bool :=
  s.past.calls.all fun c => c.1 == i || (s.sessions c.1).all fun o =>
    ls.all fun l => o.held.all fun h => !M.conflicts l h

/-- The identity value on offer, if the statement draws one, is new. -/
def drawable (s : State S R D W L C ε α κ) (st : S) (rd : Reading) : Bool :=
  !M.draws st || (decide (s.past.last < rd.fresh) && decide (rd.fresh ≤ M.maxIdentity))

/-- The past once the statement has taken its identity value. -/
def after (st : S) (rd : Reading) (past : Past κ) : Past κ :=
  if M.draws st then { past with last := rd.fresh } else past

def draw (s : State S R D W L C ε α κ) (st : S) (rd : Reading) : State S R D W L C ε α κ :=
  { s with past := M.after st rd s.past }

/-- A session whose transaction is over. -/
def close (x : Session S R W L C ε α κ) (p : Prog S R ε α) : Session S R W L C ε α κ :=
  ⟨M.blank x.call, p⟩

/-- A failed statement: the transaction can only be rolled back now. -/
def refuse (x : Session S R W L C ε α κ) (e : E) : Session S R W L C ε α κ :=
  ⟨{ x.toTxn with writes := [] }, .err (M.raise e)⟩

/-- A transaction after one more statement with the writes `ws`. -/
def extend (x : Txn W L C κ) (db : D) (rd : Reading) (st : S) (ws : List W) : Txn W L C κ :=
  ⟨x.call, M.configure st rd x.conn, x.writes ++ ws,
    x.held ++ M.locks st x.conn (M.view db x.writes) rd⟩

def answer (s : State S R D W L C ε α κ) (i : ℕ) (x : Session S R W L C ε α κ)
    (st : S) (k : R st → Prog S R ε α) (rd : Reading) : State S R D W L C ε α κ :=
  match M.eval st x.conn (M.view s.db x.writes) rd with
  | .error e => (M.draw s st rd).set i (M.refuse x e)
  | .ok (r, ws) =>
    if M.commits st then
      { M.draw s st rd with db := M.view s.db x.writes }.set i (M.close x (k r))
    else (M.draw s st rd).set i ⟨M.extend x.toTxn s.db rd st ws, k r⟩

def step (s : State S R D W L C ε α κ) : Label κ → Option (State S R D W L C ε α κ)
  | .start i c =>
    if i ∈ s.past.calls.map Prod.fst then none
    else some ((s.call i c).set i (M.enter c))
  | .exec i rd =>
    match s.sessions i with
    | none => none
    | some x =>
      match x.prog with
      | .query st k =>
        if M.clear s i (M.locks st x.conn (M.view s.db x.writes) rd) && M.drawable s st rd then
          some (M.answer s i x st k rd)
        else none
      | _ => none
  | .outage i =>
    match s.sessions i with
    | none => none
    | some x =>
      match x.prog with
      | .query _ _ => some (s.set i (M.close x (.err (M.raise M.outage))))
      | _ => none
  | .lostAck i =>
    match s.sessions i with
    | none => none
    | some x =>
      match x.prog with
      | .query st _ =>
        if M.commits st then
          some ({ s with db := M.view s.db x.writes }.set i
            (M.close x (.err (M.raise M.outage))))
        else none
      | _ => none
  | .finish i =>
    match s.sessions i with
    | none => none
    | some x =>
      match x.prog with
      | .ok a => some { s.drop i with log := s.log ++ [(i, x.call, .ok a)] }
      | .err e => some { s.drop i with log := s.log ++ [(i, x.call, .error e)] }
      | .query _ _ => none

/-- Everything a label can do, with what it needs. -/
inductive Step (s : State S R D W L C ε α κ) : Label κ → State S R D W L C ε α κ → Prop
  | start {i c} (hi : i ∉ s.past.calls.map Prod.fst) :
      Step s (.start i c) ((s.call i c).set i (M.enter c))
  | refused {i x st k rd e} (hx : s.sessions i = some x) (hp : x.prog = .query st k)
      (hc : M.clear s i (M.locks st x.conn (M.view s.db x.writes) rd) = true)
      (hd : M.drawable s st rd = true)
      (he : M.eval st x.conn (M.view s.db x.writes) rd = .error e) :
      Step s (.exec i rd) ((M.draw s st rd).set i (M.refuse x e))
  | advanced {i x st k rd r ws} (hx : s.sessions i = some x) (hp : x.prog = .query st k)
      (hc : M.clear s i (M.locks st x.conn (M.view s.db x.writes) rd) = true)
      (hd : M.drawable s st rd = true) (hn : M.commits st = false)
      (he : M.eval st x.conn (M.view s.db x.writes) rd = .ok (r, ws)) :
      Step s (.exec i rd) ((M.draw s st rd).set i ⟨M.extend x.toTxn s.db rd st ws, k r⟩)
  | committed {i x st k rd r ws} (hx : s.sessions i = some x) (hp : x.prog = .query st k)
      (hc : M.clear s i (M.locks st x.conn (M.view s.db x.writes) rd) = true)
      (hd : M.drawable s st rd = true) (hn : M.commits st = true)
      (he : M.eval st x.conn (M.view s.db x.writes) rd = .ok (r, ws)) :
      Step s (.exec i rd)
        ({ M.draw s st rd with db := M.view s.db x.writes }.set i (M.close x (k r)))
  | outage {i x st k} (hx : s.sessions i = some x) (hp : x.prog = .query st k) :
      Step s (.outage i) (s.set i (M.close x (.err (M.raise M.outage))))
  | lostAck {i x st k} (hx : s.sessions i = some x) (hp : x.prog = .query st k)
      (hn : M.commits st = true) :
      Step s (.lostAck i)
        ({ s with db := M.view s.db x.writes }.set i (M.close x (.err (M.raise M.outage))))
  | returned {i x a} (hx : s.sessions i = some x) (hp : x.prog = .ok a) :
      Step s (.finish i) { s.drop i with log := s.log ++ [(i, x.call, .ok a)] }
  | failed {i x e} (hx : s.sessions i = some x) (hp : x.prog = .err e) :
      Step s (.finish i) { s.drop i with log := s.log ++ [(i, x.call, .error e)] }

variable {M} {s t : State S R D W L C ε α κ} {l : Label κ} {i j : ℕ}

theorem step_cases (h : M.step s l = some t) : M.Step s l t := by
  unfold step at h
  split at h
  · split at h <;> cases h
    exact .start ‹_›
  all_goals
    split at h
    · cases h
    rename_i x hx
    split at h
  · rename_i st k hp
    split at h <;> cases h
    rename_i hg
    rw [Bool.and_eq_true] at hg
    unfold answer
    split
    · exact .refused hx hp hg.1 hg.2 ‹_›
    · rename_i r ws he
      split
      · exact .committed hx hp hg.1 hg.2 ‹_› he
      · rename_i hn
        exact .advanced hx hp hg.1 hg.2 (Bool.eq_false_iff.mpr hn) he
  · cases h
  · cases h
    exact .outage hx ‹_›
  · cases h
  · split at h <;> cases h
    exact .lostAck hx ‹_› ‹_›
  · cases h
  · cases h
    exact .returned hx ‹_›
  · cases h
    exact .failed hx ‹_›
  · cases h

theorem step_eq (h : M.Step s l t) : M.step s l = some t := by
  cases h with
  | start hi => simp only [step, if_neg hi]
  | refused hx hp hc hd he => simp [step, hx, hp, hc, hd, answer, he]
  | advanced hx hp hc hd hn he | committed hx hp hc hd hn he =>
    simp [step, hx, hp, hc, hd, answer, he, hn]
  | outage hx hp => simp [step, hx, hp]
  | lostAck hx hp hn => simp [step, hx, hp, hn]
  | returned hx hp | failed hx hp => simp [step, hx, hp]

/-- A statement that the database accepts extends the transaction of its session. -/
theorem step_exec_ok {x : Session S R W L C ε α κ} {st : S} {k : R st → Prog S R ε α}
    {rd : Reading} {r : R st} {ws : List W} (h : M.step s (.exec i rd) = some t)
    (hx : s.sessions i = some x) (hp : x.prog = .query st k) (hn : M.commits st = false)
    (he : M.eval st x.conn (M.view s.db x.writes) rd = .ok (r, ws)) :
    t = (M.draw s st rd).set i ⟨M.extend x.toTxn s.db rd st ws, k r⟩ := by
  simp only [step, hx, hp] at h
  split at h
  · cases h
    simp [answer, he, hn]
  · cases h

@[simp] theorem draw_past (st : S) (rd : Reading) :
    (M.draw s st rd).past = M.after st rd s.past := rfl

theorem drawable_iff {st : S} {rd : Reading} : M.drawable s st rd = true ↔
    (M.draws st = true → s.past.last < rd.fresh ∧ rd.fresh ≤ M.maxIdentity) := by
  cases h : M.draws st <;> simp [drawable, h]

theorem past_le_after {st : S} {rd : Reading} (h : M.drawable s st rd = true) :
    s.past ≤ M.after st rd s.past := by
  rw [drawable_iff] at h
  unfold after
  split
  · exact ⟨Int.le_of_lt (h ‹_›).1, List.Subset.refl _⟩
  · exact s.past.le_refl

/-- A label moves only its own session. -/
theorem step_other (h : M.Step s l t) (hj : j ≠ l.session) : t.sessions j = s.sessions j := by
  cases h <;> simp_all [Label.session, State.set, State.drop, State.call, draw, Function.update]

theorem step_past (h : M.Step s l t) : s.past ≤ t.past := by
  cases h with
  | start _ => exact ⟨Int.le_refl _, subset_cons_self _ _⟩
  | refused _ _ _ hd | advanced _ _ _ hd | committed _ _ _ hd => exact past_le_after hd
  | _ => exact s.past.le_refl

/-- The tables change only as one session commits, and then by its writes. -/
theorem step_db (h : M.Step s l t) : t.db = s.db ∨ ∃ x st k,
    s.sessions l.session = some x ∧ x.prog = .query st k ∧ M.commits st = true ∧
      t.db = M.view s.db x.writes := by
  cases h with
  | committed hx hp _ _ hn | lostAck hx hp hn => exact Or.inr ⟨_, _, _, hx, hp, hn, rfl⟩
  | _ => exact Or.inl rfl

/-- A session whose step changes the tables holds no lock afterwards. -/
theorem held_of_step_db {y : Session S R W L C ε α κ} (h : M.Step s l t) (hdb : t.db ≠ s.db)
    (hy : t.sessions l.session = some y) : y.held = [] := by
  cases h with
  | committed | lostAck =>
    exact State.eq_of_set hy ▸ rfl
  | _ => exact (hdb rfl).elim

theorem step_log (h : M.Step s l t) : t.log = s.log ∨ ∃ i, l = .finish i := by
  cases h with
  | returned | failed => exact Or.inr ⟨_, rfl⟩
  | _ => exact Or.inl rfl

theorem log_step (h : M.Step s l t) : s.log ⊆ t.log := by
  cases h with
  | returned | failed => exact subset_append_left _ _
  | _ => exact List.Subset.refl _

theorem after_calls (st : S) (rd : Reading) (past : Past κ) :
    (M.after st rd past).calls = past.calls := by
  unfold after
  split <;> rfl

/-- A call is made by a label that starts it. -/
theorem calls_step {c : ℕ × κ} (h : M.Step s l t) (hc : c ∈ t.past.calls) :
    c ∈ s.past.calls ∨ l = .start c.1 c.2 := by
  cases h with
  | start hi =>
    rcases mem_cons.mp hc with rfl | hc
    · exact Or.inr rfl
    · exact Or.inl hc
  | refused | advanced | committed => exact Or.inl (after_calls (M := M) _ _ s.past ▸ hc)
  | _ => exact Or.inl hc

/-- Each session and each answer belongs to a call that was made. -/
structure Known (s : State S R D W L C ε α κ) : Prop where
  opened : ∀ i x, s.sessions i = some x → (i, x.call) ∈ s.past.calls
  answered : ∀ i c res, (i, c, res) ∈ s.log → (i, c) ∈ s.past.calls

theorem Known.fresh (hs : Known s) (hi : i ∉ s.past.calls.map Prod.fst) :
    s.sessions i = none ∧ ∀ c res, (i, c, res) ∉ s.log := by
  constructor
  · cases hx : s.sessions i with
    | none => rfl
    | some x => exact (hi (mem_map_of_mem (hs.opened i x hx))).elim
  · exact fun c res h => hi (mem_map_of_mem (hs.answered i c res h))

/-- A session keeps the call it was started for. -/
theorem step_call {y : Session S R W L C ε α κ} (h : M.Step s l t)
    (hy : t.sessions l.session = some y) :
    l = .start l.session y.call ∨ ∃ x, s.sessions l.session = some x ∧ x.call = y.call := by
  cases h with
  | returned | failed => simp [Label.session] at hy
  | start hi =>
    exact Or.inl (State.eq_of_set hy ▸ rfl)
  | refused hx | advanced hx | committed hx | outage hx | lostAck hx =>
    exact Or.inr ⟨_, hx, State.eq_of_set hy ▸ rfl⟩

theorem known_step (h : M.Step s l t) (hs : Known s) : Known t := by
  have hpast := (step_past h).2
  constructor
  · intro j y hy
    by_cases he : j = l.session
    · subst he
      rcases step_call h hy with hl | ⟨x, hx, hc⟩
      · rw [hl] at h
        generalize l.session = i, y.call = c at h ⊢
        cases h with
        | start => exact mem_cons_self
      · exact hc ▸ hpast (hs.opened _ x hx)
    · rw [step_other h he] at hy
      exact hpast (hs.opened j y hy)
  · intro j c res hmem
    cases h with
    | returned hx hp | failed hx hp =>
      rcases mem_append.mp hmem with hmem | hmem
      · exact hs.answered j c res hmem
      · cases mem_singleton.mp hmem
        exact hs.opened j _ hx
    | _ => exact hpast (hs.answered j c res hmem)

theorem clear_iff (hs : Known s) {ls : List L} :
    M.clear s i ls = true ↔ ∀ j x, j ≠ i → s.sessions j = some x →
      ∀ l ∈ ls, ∀ h ∈ x.held, M.conflicts l h = false := by
  simp only [clear, all_eq_true, Bool.or_eq_true, beq_iff_eq, Option.all_eq_true,
    Bool.not_eq_true']
  constructor
  · intro h j x hj hx
    rcases h (j, x.call) (hs.opened j x hx) with he | he
    · exact absurd he hj
    · exact he x hx
  · intro h c _
    by_cases hj : c.1 = i
    · exact Or.inl hj
    · exact Or.inr fun x hx => h c.1 x hj hx

/-- No lock a transaction holds conflicts with a lock another one holds. -/
def Exclusive (M : Service S R D W L C E ε α κ) (s : State S R D W L C ε α κ) : Prop :=
  ∀ i j x y, i ≠ j → s.sessions i = some x → s.sessions j = some y →
    ∀ l ∈ x.held, ∀ h ∈ y.held, M.conflicts l h = false

/-- Locks stay exclusive if each session's locks are old ones or were clear. -/
theorem exclusive_of_held (hsymm : ∀ a b, M.conflicts a b = M.conflicts b a)
    (hs : Exclusive M s) (hother : ∀ j, j ≠ i → t.sessions j = s.sessions j)
    (hown : ∀ y, t.sessions i = some y → ∀ l ∈ y.held,
      (∃ x, s.sessions i = some x ∧ l ∈ x.held) ∨
        ∀ j z, j ≠ i → s.sessions j = some z → ∀ h ∈ z.held, M.conflicts l h = false) :
    Exclusive M t := by
  have key : ∀ j y z, j ≠ i → t.sessions i = some y → t.sessions j = some z →
      ∀ l ∈ y.held, ∀ h ∈ z.held, M.conflicts l h = false := by
    intro j y z hj hy hz l hl h hh
    rw [hother j hj] at hz
    rcases hown y hy l hl with ⟨x, hx, hlx⟩ | hclear
    · exact hs i j x z (Ne.symm hj) hx hz l hlx h hh
    · exact hclear j z hj hz h hh
  intro a b x y hab hx hy l hl h hh
  by_cases ha : a = i
  · subst ha
    exact key b x y (Ne.symm hab) hx hy l hl h hh
  · by_cases hb : b = i
    · subst hb
      rw [hsymm]
      exact key a y x ha hy hx h hh l hl
    · rw [hother a ha] at hx
      rw [hother b hb] at hy
      exact hs a b x y hab hx hy l hl h hh

theorem exclusive_step (hsymm : ∀ a b, M.conflicts a b = M.conflicts b a)
    (h : M.Step s l t) (hk : Known s) (hs : Exclusive M s) : Exclusive M t := by
  apply exclusive_of_held hsymm hs (fun j hj => step_other h hj)
  intro y hy l hl
  -- A session that just entered, or whose transaction is over, holds nothing.
  have hnone : y.held = [] → False := fun hy => by simp [hy] at hl
  cases h with
  | start hi =>
    exact (hnone (State.eq_of_set hy ▸ rfl)).elim
  | refused hx _ _ _ _ =>
    obtain rfl := State.eq_of_set hy
    exact Or.inl ⟨_, hx, hl⟩
  | advanced hx _ hc _ _ _ =>
    obtain rfl := State.eq_of_set hy
    rcases mem_append.mp hl with hl | hl
    · exact Or.inl ⟨_, hx, hl⟩
    · exact Or.inr fun j z hj hz h hh => (clear_iff hk).mp hc j z hj hz l hl h hh
  | committed hx _ _ _ _ _ | outage hx _ | lostAck hx _ _ =>
    exact (hnone (State.eq_of_set hy ▸ rfl)).elim
  | returned hx _ | failed hx _ => simp [Label.session] at hy

section Issued

variable (M) (Q : κ → S → Prop)

/-- What a session has still to send, and what its writes came from, are statements its
call may send. -/
structure Issued (x : Session S R W L C ε α κ) : Prop where
  rest : x.prog.All (Q x.call)
  writes : ∀ w ∈ x.writes, ∃ st conn db rd r ws,
    Q x.call st ∧ M.eval st conn db rd = .ok (r, ws) ∧ w ∈ ws

variable {M Q}

theorem issued_step (hQ : ∀ c, (M.program c).All (Q c)) (h : M.Step s l t)
    (hs : ∀ i x, s.sessions i = some x → M.Issued Q x) :
    ∀ i x, t.sessions i = some x → M.Issued Q x := by
  intro j y hy
  by_cases hj : j = l.session
  · subst hj
    -- A session with no writes left has only the rest of its program to answer for.
    have hclosed : ∀ p : Prog S R ε α, ∀ z : Txn W L C κ, z.writes = [] → p.All (Q z.call) →
        M.Issued Q ⟨z, p⟩ := fun p z hz hp => ⟨hp, by simp [hz]⟩
    have hnext : ∀ {x st k}, s.sessions l.session = some x → x.prog = .query st k →
        Q x.call st ∧ ∀ r, (k r).All (Q x.call) := by
      intro x st k hx hp
      have hrest := (hs _ x hx).rest
      rw [hp] at hrest
      exact hrest
    cases h with
    | returned | failed => simp [Label.session] at hy
    | start hi =>
      exact State.eq_of_set hy ▸ hclosed _ _ rfl (hQ _)
    | refused hx hp | outage hx hp | lostAck hx hp =>
      exact State.eq_of_set hy ▸ hclosed _ _ rfl trivial
    | committed hx hp =>
      exact State.eq_of_set hy ▸ hclosed _ _ rfl ((hnext hx hp).2 _)
    | @advanced i x st k rd r ws hx hp hc hd hn he =>
      obtain rfl := State.eq_of_set hy
      refine ⟨(hnext hx hp).2 r, fun w hw => ?_⟩
      rcases mem_append.mp hw with hw | hw
      · exact (hs _ x hx).writes w hw
      · exact ⟨st, _, _, rd, r, ws, (hnext hx hp).1, he, hw⟩
  · rw [step_other h hj] at hy
    exact hs j y hy

end Issued

section Alone

/-- No session but `i` is open. -/
def Alone (i : ℕ) (s : State S R D W L C ε α κ) : Prop := ∀ j, j ≠ i → s.sessions j = none

theorem clear_of_alone (h : Alone i s) (ls : List L) : M.clear s i ls = true := by
  simp only [clear, all_eq_true, Bool.or_eq_true, beq_iff_eq]
  intro c _
  by_cases hc : c.1 = i
  · exact Or.inl hc
  · exact Or.inr (by simp [h c.1 hc])

theorem alone_step (h : M.Step s l t) (hl : l.session = i) (hs : Alone i s) : Alone i t := by
  intro j hj
  rw [step_other h (hl ▸ hj)]
  exact hs j hj

/-- A session with only its answer left to return. -/
theorem finish_answer {x : Session S R W L C ε α κ} (hx : s.sessions i = some x)
    (hp : (∃ a, x.prog = .ok a) ∨ ∃ e, x.prog = .err e) :
    ∃ t res, M.step s (.finish i) = some t ∧ t.log = s.log ++ [(i, x.call, res)] := by
  rcases hp with ⟨a, hp⟩ | ⟨e, hp⟩
  · exact ⟨{ s.drop i with log := s.log ++ [(i, x.call, .ok a)] }, .ok a,
      by simp only [step, hx, hp], rfl⟩
  · exact ⟨{ s.drop i with log := s.log ++ [(i, x.call, .error e)] }, .error e,
      by simp only [step, hx, hp], rfl⟩

/-- A call that runs alone comes to its answer. -/
theorem finishes_alone {x : Session S R W L C ε α κ} {n : ℕ} (now : ℕ)
    (hx : s.sessions i = some x) (halone : Alone i s) (hdraws : x.prog.AtMost M.draws n)
    (hmax : s.past.last + n ≤ M.maxIdentity) :
    ∃ labels t res, Runs.run M.step s labels = some t ∧
      (∀ l ∈ labels, (∃ rd, l = .exec i rd) ∨ l = .finish i) ∧
      t.log = s.log ++ [(i, x.call, res)] := by
  -- By induction on what is left of the program: one statement, then the rest.
  obtain ⟨z, p⟩ := x
  induction p generalizing s z n with
  | ok a =>
    obtain ⟨t, res, ht, hlog⟩ := finish_answer hx (Or.inl ⟨a, rfl⟩)
    exact ⟨[.finish i], t, res, Runs.run_cons.mpr ⟨t, ht, rfl⟩, by simp, hlog⟩
  | err e =>
    obtain ⟨t, res, ht, hlog⟩ := finish_answer hx (Or.inr ⟨e, rfl⟩)
    exact ⟨[.finish i], t, res, Runs.run_cons.mpr ⟨t, ht, rfl⟩, by simp, hlog⟩
  | query st k ih =>
    let rd : Reading := ⟨now, s.past.last + 1⟩
    have hdraw : M.drawable s st rd = true := by
      rw [drawable_iff]
      intro hd
      have := hdraws.1 hd
      change s.past.last < s.past.last + 1 ∧ s.past.last + 1 ≤ M.maxIdentity
      omega
    have hstep : M.step s (.exec i rd) = some (M.answer s i ⟨z, .query st k⟩ st k rd) := by
      simp only [step, hx]
      rw [clear_of_alone halone, hdraw]
      rfl
    set u := M.answer s i ⟨z, .query st k⟩ st k rd with hu
    have halone' : Alone i u := alone_step (step_cases hstep) rfl halone
    have hlast : u.past.last + (if M.draws st then n - 1 else n : ℕ) ≤ M.maxIdentity := by
      have hpast : u.past = M.after st rd s.past := by
        rw [hu, answer]
        split
        · rfl
        · split <;> rfl
      have hfresh : rd.fresh = s.past.last + 1 := rfl
      rw [hpast, after]
      cases hd : M.draws st with
      | false => simpa using hmax
      | true =>
        have := hdraws.1 hd
        simp only [if_true]
        omega
    -- Whatever the answer, the session goes on with its call and has written no log.
    obtain ⟨z', p', hu', hcall, hlog, hp'⟩ : ∃ z' p', u.sessions i = some ⟨z', p'⟩ ∧
        z'.call = z.call ∧ u.log = s.log ∧ ((∃ e, p' = .err e) ∨ ∃ r, p' = k r) := by
      rw [hu, answer]
      split
      · exact ⟨_, _, State.set_self _ _ _, rfl, rfl, Or.inl ⟨_, rfl⟩⟩
      · rename_i r ws _
        split
        · exact ⟨_, _, State.set_self _ _ _, rfl, rfl, Or.inr ⟨r, rfl⟩⟩
        · exact ⟨_, _, State.set_self _ _ _, rfl, rfl, Or.inr ⟨r, rfl⟩⟩
    obtain ⟨labels, t, res, hrun, hlabels, hend⟩ : ∃ labels t res,
        Runs.run M.step u labels = some t ∧
        (∀ l ∈ labels, (∃ rd, l = .exec i rd) ∨ l = .finish i) ∧
        t.log = u.log ++ [(i, z'.call, res)] := by
      rcases hp' with ⟨e, rfl⟩ | ⟨r, rfl⟩
      · obtain ⟨t, res, ht, hend⟩ := finish_answer hu' (Or.inr ⟨e, rfl⟩)
        exact ⟨[.finish i], t, res, Runs.run_cons.mpr ⟨t, ht, rfl⟩, by simp, hend⟩
      · exact ih r halone' hlast z' hu' (hdraws.2 r)
    refine ⟨.exec i rd :: labels, t, res, Runs.run_cons.mpr ⟨u, hstep, hrun⟩, ?_, ?_⟩
    · intro l hl
      rcases mem_cons.mp hl with rfl | hl
      · exact Or.inl ⟨rd, rfl⟩
      · exact hlabels l hl
    · rw [hend, hlog, hcall]

variable (M) in
/-- The answer of a call that has the tables to itself, where all its statements read `rd`, and
the tables it leaves. -/
def solo (rd : Reading) (db : D) (conn : C) (ws : List W) : Prog S R ε α → Except ε α × D
  | .ok a => (.ok a, db)
  | .err e => (.error e, db)
  | .query st k =>
    match M.eval st conn (M.view db ws) rd with
    | .error e => (.error (M.raise e), db)
    | .ok (r, new) =>
      if M.commits st then solo rd (M.view db ws) M.idle [] (k r)
      else solo rd db (M.configure st rd conn) (ws ++ new) (k r)

theorem solo_query {rd : Reading} {db : D} {conn : C} {ws new : List W} {st : S} {r : R st}
    {k : R st → Prog S R ε α} (heval : M.eval st conn (M.view db ws) rd = .ok (r, new))
    (hcommits : M.commits st = false) :
    M.solo rd db conn ws (.query st k) =
      M.solo rd db (M.configure st rd conn) (ws ++ new) (k r) := by
  rw [solo, heval]
  exact if_neg (by simp [hcommits])

theorem solo_commit {rd : Reading} {db : D} {conn : C} {ws new : List W} {st : S} {r : R st}
    {k : R st → Prog S R ε α} (heval : M.eval st conn (M.view db ws) rd = .ok (r, new))
    (hcommits : M.commits st = true) :
    M.solo rd db conn ws (.query st k) = M.solo rd (M.view db ws) M.idle [] (k r) := by
  rw [solo, heval]
  exact if_pos hcommits

end Alone

end Service
end ReadCommitted
