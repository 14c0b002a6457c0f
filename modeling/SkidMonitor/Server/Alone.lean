import SkidMonitor.Server.Books
import SkidMonitor.Server.Explain

/-! An append with no other call beside it. It always comes to an answer, and the tables
stay as they are as long as it has a statement to send. -/
namespace SkidMonitor

open ReadCommitted

variable {sd : Serde} {s t : StoreState} {i : ℕ} {envelope : SignalEnvelope}
  {labels : List StoreLabel}

section Draws

theorem beginFor_draws (t : TenantId) : (beginFor t).All fun st => st.draws = false :=
  ⟨rfl, fun _ => ⟨rfl, fun _ => ⟨rfl, by rintro (_ | _ | _) <;> trivial⟩⟩⟩

theorem confirmExisting_draws (t : TenantId) (payload : Value) :
    (confirmExisting sd t envelope payload).All fun st => st.draws = false := by
  refine ⟨rfl, ?_⟩
  rintro (_ | row)
  · trivial
  · refine Prog.all_check fun existing => ?_
    split
    · trivial
    · exact Prog.all_check fun _ => ⟨rfl, fun _ => trivial⟩

theorem recordInserted_draws (t : TenantId) (cursor : ℤ) :
    (recordInserted t envelope cursor).All fun st => st.draws = false := by
  refine Prog.all_check fun _ => Prog.all_check fun _ => ?_
  refine ⟨rfl, fun _ => ⟨rfl, ?_⟩⟩
  rintro (_ | p)
  · trivial
  · exact ⟨rfl, fun _ => ⟨rfl, fun _ => ⟨rfl, fun _ => ⟨rfl, fun _ => trivial⟩⟩⟩⟩

/-- An append takes one identity value at most. -/
theorem append_atMost (sd : Serde) (envelope : SignalEnvelope) :
    (appendEnvelope sd envelope).AtMost Stmt.draws 1 := by
  refine (Prog.all_ofExcept _).bind_atMost fun t => (Prog.all_ofExcept _).bind_atMost fun c => ?_
  refine (beginFor_draws t).bind_atMost fun _ => ⟨by simp [Stmt.draws], fun _ => ?_⟩
  refine ⟨by simp [Stmt.draws], ?_⟩
  rintro (_ | _ | _)
  · trivial
  · trivial
  · refine ⟨fun _ => Nat.one_pos, ?_⟩
    rintro (_ | cursor)
    · exact Prog.atMost_of_all (confirmExisting_draws t _) _
    · exact Prog.atMost_of_all (recordInserted_draws t cursor) _

end Draws

/-- The tenant and the agent of an envelope are enabled. -/
def Enabled (envelope : SignalEnvelope) (db : Db) : Prop := ∃ t,
  envelope.scope = .tenant t ∧ db.tenantEnabled t = some true ∧
    db.agentEnabled t envelope.agentId.text = some true

theorem enabled_iff {v : Append sd} {db : Db} : Enabled v.envelope db ↔
    db.tenantEnabled v.tenant = some true ∧ db.agentEnabled v.tenant v.agent = some true := by
  constructor
  · rintro ⟨T, hscope, h⟩
    cases SignalScope.tenant.inj (hscope.symm.trans v.scope)
    exact h
  · exact fun h => ⟨v.tenant, v.scope, h⟩

/-- The steps of one append that loses no statement. -/
def Own (i : ℕ) (envelope : SignalEnvelope) (l : StoreLabel) : Prop :=
  l = .start i (.append envelope) ∨ (∃ rd, l = .exec i rd) ∨ l = .finish i

theorem Own.session {l : StoreLabel} (h : Own i envelope l) : l.session = i := by
  rcases h with rfl | ⟨rd, rfl⟩ | rfl <;> rfl

theorem Own.call {c : Call} (h : Own i envelope (.start i c)) : c = .append envelope := by
  rcases h with h | ⟨rd, h⟩ | h <;> cases h
  rfl

theorem appends_of_own (hown : ∀ l ∈ labels, Own i envelope l) : Appends i envelope labels where
  call c hc := (hown _ hc).call
  sound l hl _ := by rcases hown l hl with rfl | ⟨rd, rfl⟩ | rfl <;> rfl

theorem reachable_tallied (hs : Reachable sd s) :
    ∀ i x, s.sessions i = some x → (pg sd).Tallied Stmt.entries Call.due Write.entries x := by
  obtain ⟨start, labels, hinit, hr⟩ := hs
  exact Service.tallied_run (program_balanced sd) (fun _ he => eval_entries he) hinit.idle hr

/-- Whatever the steps of a session write, it is there only after its last statement. -/
theorem unchanged_alone {db : Db} (hs : Reachable sd s) (hown : ∀ l ∈ labels, l.session = i)
    (h : s.db = db ∨ i ∈ s.past.calls.map Prod.fst ∧ ¬ s.Waits i) :
    Runs.Along (pg sd).step (fun u => u.Waits i → u.db = db) s labels := by
  have hnow : s.Waits i → s.db = db := fun hwaits => h.resolve_right fun hover => hover.2 hwaits
  induction labels generalizing s with
  | nil => exact Runs.along_nil hnow
  | cons l labels ih =>
    refine Runs.along_cons hnow fun u hu => ?_
    obtain rfl := hown l List.mem_cons_self
    have hstep := Service.step_cases hu
    have hcalls := List.map_subset Prod.fst (Service.step_past hstep).2
    have hu' : u.db = db ∨ l.session ∈ u.past.calls.map Prod.fst ∧ ¬ u.Waits l.session := by
      rcases h with h | ⟨hcall, hover⟩
      · by_cases hdb : u.db = s.db
        · exact Or.inl (hdb.trans h)
        · obtain he | ⟨x, _, _, hx, _⟩ := Service.step_db hstep
          · exact (hdb he).elim
          · exact Or.inr ⟨hcalls (List.mem_map_of_mem ((reachable_invariant hs).known.opened _ x hx)),
              Service.over_of_commit hstep (reachable_tallied hs _) hdb⟩
      · refine Or.inr ⟨hcalls hcall, fun ⟨x, st, k, hx, hp⟩ => ?_⟩
        exact Service.over_step hstep hcall (fun y st k hy hq => hover ⟨y, st, k, hy, hq⟩) x st k hx hp
    exact ih (Runs.reachable_step hs hu) (fun k hk => hown k (List.mem_cons_of_mem l hk)) hu'
      fun hwaits => hu'.resolve_right fun hover => hover.2 hwaits

/-- An append that runs alone comes to its answer. -/
theorem append_alone (sd : Serde) (envelope : SignalEnvelope) (now : ℕ)
    (hquiet : ∀ j, s.sessions j = none) (hi : i ∉ s.past.calls.map Prod.fst)
    (hmax : s.past.last < 2 ^ 63 - 1) :
    ∃ labels t res, Runs.run (pg sd).step s (.start i (.append envelope) :: labels) = some t ∧
      (∀ l ∈ .start i (.append envelope) :: labels, Own i envelope l) ∧
      t.log = s.log ++ [(i, .append envelope, res)] := by
  set u := (s.call i (.append envelope)).set i ((pg sd).enter (.append envelope)) with hu
  have hstart : (pg sd).step s (.start i (.append envelope)) = some u := if_neg hi
  have halone : Service.Alone i u := by
    intro j hj
    rw [hu, State.set_ne _ _ hj]
    exact hquiet j
  have hlast : u.past.last + (1 : ℕ) ≤ (pg sd).maxIdentity := by
    change s.past.last + 1 ≤ 2 ^ 63 - 1
    omega
  obtain ⟨labels, t, res, hr, hown, hlog⟩ := Service.finishes_alone (M := pg sd) now
    (State.set_self _ i _) halone ((append_atMost sd envelope).map Reply.appended) hlast
  refine ⟨labels, t, res, Runs.run_cons.mpr ⟨u, hstart, hr⟩, ?_, hlog⟩
  intro l hl
  rcases List.mem_cons.mp hl with rfl | hl
  · exact Or.inl rfl
  · exact Or.inr (hown l hl)

/-- The append of the sample logs. -/
def Sample.logsAppend : Append Sample.serde :=
  ⟨Sample.logs Sample.tenant 3, Sample.tenant, ⟨emptyLogs.2.2, emptyLogs.2.1.length⟩, rfl, rfl⟩

end SkidMonitor
