import SkidMonitor.Client.Desktop

/-! The alerts of the desktop as they are persisted: which keys are active, and the log of their
transitions. -/
namespace SkidMonitor.Client

open List

namespace AlertStore

/-- Every alert is kept under its own key. -/
def Keyed (s : AlertStore) : Prop := ∀ key alert, s.active.lookup key = some alert → alert.key = key

variable {s : AlertStore} {outcome : AlertStore × Option AlertChange}

theorem Observes.keyed (h : Observes s outcome) (hs : s.Keyed) : outcome.1.Keyed := by
  have hinsert : ∀ alert : AlertSnapshot, Keyed ⟨s.active.insert alert.key alert⟩ := by
    intro alert key found hfound
    obtain ⟨rfl, rfl⟩ | hold := SortedMap.lookup_insert_some hfound
    · rfl
    · exact hs key found hold
  cases h with
  | same => exact hs
  | again | fired => exact hinsert _
  | resolved _ => exact fun key found hfound => hs key found (SortedMap.lookup_erase_some hfound).2

end AlertStore

/-- The tables the alerts are written to. -/
structure AlertTables where
  alertState : SortedMap Str AlertStateRow
  alertEvents : List AlertRecord

def StateDb.alertTables (db : StateDb) : AlertTables := ⟨db.alertState, db.alertEvents⟩

def AlertTables.report (tables : AlertTables) (now : Reading) : Option AlertChange → AlertTables
  | none => tables
  | some change =>
    ((⟨.empty, tables.alertState, tables.alertEvents⟩ : StateDb).recordAlert
      (.ofChange now change)).alertTables

namespace DashboardState

variable (clock : ℕ → Reading) (display : Display) {db : StateDb} {s t : NativeState}

/-- The database once the worker has handled all that was sent. -/
def settled (db : StateDb) (s : NativeState) : StateDb :=
  (s.storage.getD []).foldl StateDb.handleTelemetry db

theorem settled_send (hstorage : t.storage = s.storage) (h : s.storage.isSome)
    (command : StorageCommand) :
    settled db (t.send command) = (settled db s).handleTelemetry command := by
  obtain ⟨queue, hqueue⟩ := Option.isSome_iff_exists.mp h
  simp [settled, send, StateStorage.send, hstorage, hqueue]

/-- The alerts and their tables move together. -/
structure Reports (db : StateDb) (s t : NativeState) : Prop where
  storage : t.storage.isSome
  moves : ∃ outcome now, s.alerts.Observes outcome ∧ t.alerts = outcome.1 ∧
    (settled db t).alertTables = (settled db s).alertTables.report now outcome.2

/-- Neither the alerts nor their tables move. -/
structure AlertsStill (db : StateDb) (s t : NativeState) : Prop where
  storage : t.storage.isSome
  alerts : t.alerts = s.alerts
  tables : (settled db t).alertTables = (settled db s).alertTables

theorem AlertsStill.reports (h : AlertsStill db s t) : Reports db s t :=
  ⟨h.storage, _, ⟨0, 0, []⟩, .same, h.alerts, h.tables⟩

theorem AlertsStill.trans {u : NativeState} (hst : AlertsStill db s t) (htu : AlertsStill db t u) :
    AlertsStill db s u :=
  ⟨htu.storage, htu.alerts.trans hst.alerts, htu.tables.trans hst.tables⟩

/-- Commands about edges do not touch the alerts. -/
theorem still_send (hstorage : t.storage = s.storage) (halerts : t.alerts = s.alerts)
    (h : s.storage.isSome) (command : StorageCommand)
    (hedge : ∀ alert, command ≠ .recordAlert alert) : AlertsStill db s (t.send command) := by
  have hsome : t.storage.isSome := hstorage ▸ h
  refine ⟨by simpa [send] using hsome, halerts, ?_⟩
  rw [settled_send hstorage h]
  cases command with
  | upsertEdge | deleteEdge => rfl
  | recordAlert alert => exact absurd rfl (hedge alert)

theorem Quiet.alertsStill (hquiet : Quiet s t) (h : s.storage.isSome) : AlertsStill db s t where
  storage := by rw [hquiet.storage]; exact h
  alerts := hquiet.alerts
  tables := by rw [settled, hquiet.storage, settled]

theorem reports_applyAlert (h : s.storage.isSome) {outcome : AlertStore × Option AlertChange}
    (hobserves : s.alerts.Observes outcome) : Reports db s (applyAlert clock s outcome) := by
  have hstorage := applyAlert_storage clock s outcome
  obtain ⟨alerts, change⟩ := outcome
  cases change with
  | none =>
    refine ⟨by rw [hstorage]; exact h, _, clock s.ticks, hobserves, applyAlert_alerts .., ?_⟩
    rw [settled, hstorage]
    rfl
  | some change =>
    have hsettled : settled db _ = _ :=
      settled_send rfl h (.recordAlert (.ofChange (clock s.ticks) change))
    refine ⟨?_, _, clock s.ticks, hobserves, applyAlert_alerts .., ?_⟩
    · rw [hstorage]
      simpa using h
    · have heq : settled db (applyAlert clock s (alerts, some change)) =
          settled db (s.send (.recordAlert (.ofChange (clock s.ticks) change))) := by
        rw [settled, hstorage]
        rfl
      rw [heq, hsettled]
      rfl

theorem still_storeNode (h : s.storage.isSome) (key : Str) (entry : NodeSummary)
    (lastSignal : Str) : AlertsStill db s (storeNode clock s key entry lastSignal) := by
  refine still_send ?_ ?_ h (.upsertEdge _) nofun <;> rfl

theorem still_putSeverity (h : s.storage.isSome) (key : Str) (d : EdgeSignalDecoration)
    (severity : Option AlertSeverity) : AlertsStill db s (putSeverity clock s key d severity) := by
  refine still_send ?_ ?_ h (.upsertEdge _) nofun <;> rfl

theorem still_forgetNode (h : s.storage.isSome) (key : Str) :
    AlertsStill db s (forgetNode s key) := by
  refine still_send ?_ ?_ h (.deleteEdge key) nofun <;> rfl

theorem still_clears (keys : List Str) (h : s.storage.isSome) :
    AlertsStill db s (keys.foldl (clearSeverity clock) s) := by
  induction keys generalizing s with
  | nil => exact ⟨h, rfl, rfl⟩
  | cons key keys ih =>
    have hclear : AlertsStill db s (clearSeverity clock s key) := by
      obtain ⟨heq, _⟩ | ⟨d, _, heq⟩ := clearSeverity_cases clock s key
      · rw [heq]
        exact ⟨h, rfl, rfl⟩
      · rw [heq]
        exact still_putSeverity clock h key d none
    exact hclear.trans (ih hclear.storage)

/-- Every change but one moves the alerts and their tables together; when the alerts are dropped,
the tables stay. -/
theorem reports_change (db : StateDb) {a : Action} (h : s.storage.isSome)
    (hchange : Change clock a s t) :
    Reports db s t ∨ a = .setAlertsEnabled false ∧ t.storage.isSome ∧ t.alerts = .empty ∧
      (settled db t).alertTables = (settled db s).alertTables := by
  cases hchange with
  | quiet hquiet => exact .inl (hquiet.alertsStill h).reports
  | counted | enabled => exact .inl (AlertsStill.reports ⟨h, rfl, rfl⟩)
  | alert _ hobserves => exact .inl (reports_applyAlert clock h hobserves)
  | stored _ => exact .inl (still_storeNode clock h _ _ _).reports
  | severity _ => exact .inl (still_putSeverity clock h _ _ _).reports
  | forgotten => exact .inl (still_forgetNode h _).reports
  | dropped ha => exact .inr ⟨ha, h, rfl, rfl⟩

end DashboardState

/-- Firing and resolving in turns, firing first. -/
structure Alternating (ts : List AlertTransition) : Prop where
  first : ∀ t ∈ ts.head?, t = .fired
  turns : ts.IsChain (· ≠ ·)

theorem alternating_append {ts : List AlertTransition} {t : AlertTransition} :
    Alternating (ts ++ [t]) ↔
      Alternating ts ∧ (t = .fired ↔ ts.getLast? ≠ some .fired) := by
  rcases eq_nil_or_concat ts with rfl | ⟨ts, last, rfl⟩
  · constructor
    · intro h
      exact ⟨⟨by simp, .nil⟩, by simpa using h.first⟩
    · rintro ⟨_, ht⟩
      exact ⟨by simpa using ht, .singleton _⟩
  · have hhead : (ts ++ [last] ++ [t]).head? = (ts ++ [last]).head? := by
      cases ts <;> rfl
    have hlast : (last ≠ t) ↔ (t = .fired ↔ some last ≠ some .fired) := by
      cases t <;> cases last <;> simp
    rw [concat_eq_append, getLast?_append_of_ne_nil _ (by simp)]
    simp only [getLast?_singleton, ← hlast]
    constructor
    · intro h
      have hturns := isChain_append.mp h.turns
      exact ⟨⟨hhead ▸ h.first, hturns.1⟩, hturns.2.2 last (by simp) t (by simp)⟩
    · rintro ⟨h, hne⟩
      refine ⟨hhead ▸ h.first, isChain_append.mpr ⟨h.turns, .singleton _, ?_⟩⟩
      simpa using hne

/-- The transitions of one alert, in the order of the log. -/
def AlertTables.transitions (tables : AlertTables) (key : Str) : List AlertTransition :=
  (tables.alertEvents.filter (·.key = key)).map AlertRecord.transition

/-- The tables tell about an alert what is so. -/
structure Tells (alerts : AlertStore) (tables : AlertTables) (key : Str) : Prop where
  state : (tables.alertState.lookup key).isSome ↔ (alerts.active.lookup key).isSome
  alternating : Alternating (tables.transitions key)
  last : (tables.transitions key).getLast? = some .fired ↔ (alerts.active.lookup key).isSome

/-- The log of an alert has gone wrong, or says that an alert fires which is not active. -/
def Lost (alerts : AlertStore) (tables : AlertTables) (key : Str) : Prop :=
  ¬ Alternating (tables.transitions key) ∨
    (tables.transitions key).getLast? = some .fired ∧ alerts.active.lookup key = none

section Report

variable {alerts : AlertStore} {tables : AlertTables} {key : Str} {now : Reading}
  {outcome : AlertStore × Option AlertChange}

theorem Lost.not_tells (h : Lost alerts tables key) : ¬ Tells alerts tables key := by
  intro ht
  rcases h with h | ⟨hlast, hnone⟩
  · exact h ht.alternating
  · rw [ht.last, hnone] at hlast
    cases hlast

theorem report_transitions (change : AlertChange) :
    (tables.report now (some change)).transitions key =
      tables.transitions key ++ if change.snapshot.key = key then [change.transition] else [] := by
  have hevents : (tables.report now (some change)).alertEvents =
      tables.alertEvents ++ [.ofChange now change] := rfl
  rw [AlertTables.transitions, hevents, filter_append, map_append, AlertTables.transitions]
  by_cases h : change.snapshot.key = key
  · simp [AlertRecord.ofChange, h]
  · simp [AlertRecord.ofChange, h]

theorem report_state (change : AlertChange) :
    ((tables.report now (some change)).alertState.lookup key).isSome ↔
      if change.snapshot.key = key then change.snapshot.status = .firing
      else (tables.alertState.lookup key).isSome := by
  simp only [AlertTables.report, StateDb.recordAlert, StateDb.insertAlertEvent,
    StateDb.updateAlertState, StateDb.alertTables, AlertRecord.ofChange]
  split_ifs with h
  · subst h
    cases change.snapshot.status <;> simp
  · cases change.snapshot.status with
    | firing => rw [SortedMap.lookup_insert_of_ne (Ne.symm h)]
    | resolved => rw [SortedMap.lookup_erase_of_ne (Ne.symm h)]

/-- An observation that reports nothing leaves the same keys active. -/
theorem again_active {alert : AlertSnapshot} (h : (alerts.active.lookup alert.key).isSome) :
    ((alerts.active.insert alert.key alert).lookup key).isSome ↔
      (alerts.active.lookup key).isSome := by
  by_cases hk : key = alert.key
  · subst hk
    simpa using h
  · rw [SortedMap.lookup_insert_of_ne hk]

/-- What is reported about another alert changes nothing. -/
theorem tells_other {change : AlertChange} {after : AlertStore} (hk : change.snapshot.key ≠ key)
    (hlookup : after.active.lookup key = alerts.active.lookup key)
    (h : Tells alerts tables key) : Tells after (tables.report now (some change)) key where
  state := by
    rw [report_state, if_neg hk, hlookup]
    exact h.state
  alternating := by
    rw [report_transitions, if_neg hk, append_nil]
    exact h.alternating
  last := by
    rw [report_transitions, if_neg hk, append_nil, hlookup]
    exact h.last

theorem tells_report (hkeyed : alerts.Keyed) (hobserves : alerts.Observes outcome)
    (h : Tells alerts tables key) : Tells outcome.1 (tables.report now outcome.2) key := by
  cases hobserves with
  | same => exact h
  | again hactive =>
    exact ⟨h.state.trans (again_active hactive).symm, h.alternating,
      h.last.trans (again_active hactive).symm⟩
  | fired hnone hfiring =>
    rename_i alert
    by_cases hk : alert.key = key
    · subst hk
      have hquiet : (tables.transitions alert.key).getLast? ≠ some .fired := by
        rw [Ne, h.last, hnone]
        simp
      refine ⟨?_, ?_, ?_⟩
      · simp [report_state, hfiring]
      · rw [report_transitions, if_pos rfl]
        exact alternating_append.mpr ⟨h.alternating, by simpa using hquiet⟩
      · simp [report_transitions]
    · exact tells_other hk (SortedMap.lookup_insert_of_ne (Ne.symm hk)) h
  | resolved hactive =>
    rename_i resolved detail alert
    obtain rfl := hkeyed resolved alert hactive
    by_cases hk : alert.key = key
    · subst hk
      have hfiring : (tables.transitions alert.key).getLast? = some .fired := by
        rw [h.last, hactive]
        rfl
      refine ⟨?_, ?_, ?_⟩
      · simp [report_state]
      · rw [report_transitions, if_pos rfl]
        exact alternating_append.mpr ⟨h.alternating, by simpa using hfiring⟩
      · simp [report_transitions]
    · exact tells_other hk (SortedMap.lookup_erase_of_ne (Ne.symm hk)) h

theorem alternating_report (change : Option AlertChange)
    (h : Alternating ((tables.report now change).transitions key)) :
    Alternating (tables.transitions key) := by
  cases change with
  | none => exact h
  | some change =>
    rw [report_transitions] at h
    split_ifs at h
    · exact (alternating_append.mp h).1
    · rwa [append_nil] at h

/-- What has gone wrong stays wrong: an alert that is lost can only fire a second time. -/
theorem lost_report (hkeyed : alerts.Keyed) (hobserves : alerts.Observes outcome)
    (h : Lost alerts tables key) : Lost outcome.1 (tables.report now outcome.2) key := by
  rcases h with h | ⟨hlast, hnone⟩
  · exact .inl fun halternating => h (alternating_report _ halternating)
  · cases hobserves with
    | same => exact .inr ⟨hlast, hnone⟩
    | again hactive =>
      rename_i alert
      refine .inr ⟨hlast, ?_⟩
      have hk : key ≠ alert.key := by
        rintro rfl
        rw [hnone] at hactive
        cases hactive
      exact (SortedMap.lookup_insert_of_ne hk).trans hnone
    | fired _ _ =>
      rename_i alert _ _
      by_cases hk : alert.key = key
      · refine .inl fun halternating => ?_
        rw [report_transitions, if_pos hk] at halternating
        exact (alternating_append.mp halternating).2.mp rfl hlast
      · refine .inr ⟨?_, (SortedMap.lookup_insert_of_ne (Ne.symm hk)).trans hnone⟩
        rwa [report_transitions, if_neg hk, append_nil]
    | resolved hactive =>
      rename_i resolved detail alert
      obtain rfl := hkeyed resolved alert hactive
      have hk : alert.key ≠ key := by
        rintro rfl
        rw [hnone] at hactive
        cases hactive
      refine .inr ⟨?_, (SortedMap.lookup_erase_of_ne (Ne.symm hk)).trans hnone⟩
      rwa [report_transitions, if_neg hk, append_nil]

end Report

namespace DashboardState

variable (clock : ℕ → Reading) (display : Display) {db : StateDb} {s t : NativeState} {key : Str}
  {a : Action}

/-- Alerts are kept under their keys, in a state with a storage; disabled, there are none. -/
structure AlertsSound (s : NativeState) : Prop where
  storage : s.storage.isSome
  keyed : s.alerts.Keyed
  off : s.alertsEnabled = false → s.alerts = .empty

theorem off_change (hchange : Change clock a s t)
    (h : s.alertsEnabled = false → s.alerts = .empty) :
    t.alertsEnabled = false → t.alerts = .empty := by
  cases hchange with
  | quiet hquiet =>
    rw [hquiet.alertsEnabled, hquiet.alerts]
    exact h
  | alert hon _ =>
    intro hoff
    rw [applyAlert_alertsEnabled, hon] at hoff
    cases hoff
  | enabled => nofun
  | dropped _ => exact fun _ => rfl
  | counted | stored _ | severity _ | forgotten => exact h

theorem sound_change (hchange : Change clock a s t) (h : AlertsSound s) : AlertsSound t := by
  obtain ⟨hstorage, outcome, _, hobserves, halerts, _⟩ | ⟨_, hstorage, hempty, _⟩ :=
    reports_change clock .empty h.storage hchange
  · refine ⟨hstorage, ?_, off_change clock hchange h.off⟩
    rw [halerts]
    exact hobserves.keyed h.keyed
  · refine ⟨hstorage, ?_, fun _ => hempty⟩
    rw [hempty]
    exact nofun

theorem sound_act (h : AlertsSound s) (a : Action) : AlertsSound (act clock display s a) :=
  change_invariant clock display (fun _ _ hchange => sound_change clock hchange) h

/-- What the tables tell once everything is written. -/
def Told (db : StateDb) (s : NativeState) (key : Str) : Prop :=
  Tells s.alerts (settled db s).alertTables key

def Astray (db : StateDb) (s : NativeState) (key : Str) : Prop :=
  Lost s.alerts (settled db s).alertTables key

theorem told_act (ha : a ≠ .setAlertsEnabled false) (hsound : AlertsSound s) (h : Told db s key) :
    Told db (act clock display s a) key := by
  refine (change_invariant clock display (I := fun s => AlertsSound s ∧ Told db s key) ?_
    ⟨hsound, h⟩).2
  rintro t u hchange ⟨hsound, htold⟩
  refine ⟨sound_change clock hchange hsound, ?_⟩
  obtain ⟨_, outcome, now, hobserves, halerts, htables⟩ | ⟨hdisabled, _⟩ :=
    reports_change clock db hsound.storage hchange
  · rw [Told, halerts, htables]
    exact tells_report hsound.keyed hobserves htold
  · exact absurd hdisabled ha

theorem astray_act (hsound : AlertsSound s) (h : Astray db s key) (a : Action) :
    Astray db (act clock display s a) key := by
  refine (change_invariant clock display (I := fun s => AlertsSound s ∧ Astray db s key) ?_
    ⟨hsound, h⟩).2
  rintro t u hchange ⟨hsound, hastray⟩
  refine ⟨sound_change clock hchange hsound, ?_⟩
  obtain ⟨_, outcome, now, hobserves, halerts, htables⟩ | ⟨_, _, hempty, htables⟩ :=
    reports_change clock db hsound.storage hchange
  · rw [Astray, halerts, htables]
    exact lost_report hsound.keyed hobserves hastray
  · rw [Astray, hempty, htables]
    exact hastray.imp_right fun hlast => ⟨hlast.1, rfl⟩

/-- Disabling drops the alerts and tells the storage nothing. -/
theorem disable_alerts (db : StateDb) (hsound : AlertsSound s) :
    (act clock display s (.setAlertsEnabled false)).alerts = .empty ∧
      (settled db (act clock display s (.setAlertsEnabled false))).alertTables =
        (settled db s).alertTables := by
  rw [act, setAlertsEnabled]
  split_ifs with hoff hfalse
  · exact ⟨hsound.off hoff, rfl⟩
  · exact hfalse.elim
  · have hcleared : AlertsStill db { s with alertsEnabled := false, alerts := s.alerts.clear } _ :=
      still_clears clock s.edgeDecorations.keys hsound.storage
    exact ⟨hcleared.alerts, hcleared.tables⟩

theorem told_disable (hsound : AlertsSound s) (h : Told db s key) :
    (s.alerts.active.lookup key = none →
      Told db (act clock display s (.setAlertsEnabled false)) key) ∧
    ((s.alerts.active.lookup key).isSome →
      Astray db (act clock display s (.setAlertsEnabled false)) key) := by
  obtain ⟨hempty, htables⟩ := disable_alerts clock display db hsound
  rw [Told, Astray, hempty, htables]
  constructor
  · intro hnone
    have hstate := h.state
    have hlast := h.last
    rw [hnone] at hstate hlast
    exact ⟨hstate, h.alternating, hlast⟩
  · intro hactive
    exact .inr ⟨h.last.mpr hactive, rfl⟩

end DashboardState

namespace Desktop

open DashboardState

variable (clock : ℕ → Reading) (display : Display) {d d' d₀ : Desktop} {key : Str}
  {event : DesktopEvent} {events : List DesktopEvent}

/-- An event of a run without a restart in which every write succeeds. -/
def Steady : DesktopEvent → Prop
  | .act _ => True
  | .handle outcome => outcome = .written
  | .restart _ => False

theorem settled_handle (h : step clock display d (.handle .written) = some d') :
    settled d'.db d'.dashboard = settled d.db d.dashboard ∧
      d'.dashboard.alerts = d.dashboard.alerts ∧
      (AlertsSound d.dashboard → AlertsSound d'.dashboard) := by
  obtain ⟨command, queue, hstorage, rfl⟩ := step_handle h
  refine ⟨?_, rfl, fun hsound => ⟨rfl, hsound.keyed, hsound.off⟩⟩
  rw [settled, settled, hstorage]
  rfl

theorem sound_step (hsteady : Steady event) (hstep : step clock display d event = some d')
    (h : AlertsSound d.dashboard) : AlertsSound d'.dashboard := by
  cases event with
  | act action =>
    cases hstep
    exact sound_act clock display h action
  | handle outcome =>
    cases hsteady
    exact (settled_handle clock display hstep).2.2 h
  | restart start => exact hsteady.elim

theorem astray_step (hsteady : Steady event) (hstep : step clock display d event = some d')
    (hsound : AlertsSound d.dashboard) (h : Astray d.db d.dashboard key) :
    Astray d'.db d'.dashboard key := by
  cases event with
  | act action =>
    cases hstep
    exact astray_act clock display hsound h action
  | handle outcome =>
    cases hsteady
    obtain ⟨hsettled, halerts, _⟩ := settled_handle clock display hstep
    rw [Astray, hsettled, halerts]
    exact h
  | restart start => exact hsteady.elim

theorem astray_run (hsteady : ∀ e ∈ events, Steady e)
    (hrun : run clock display d events = some d') (hsound : AlertsSound d.dashboard)
    (h : Astray d.db d.dashboard key) : Astray d'.db d'.dashboard key := by
  induction events generalizing d with
  | nil =>
    cases hrun
    exact h
  | cons e events ih =>
    obtain ⟨u, hu, hrest⟩ := Runs.run_cons.mp hrun
    obtain ⟨hfirst, hlater⟩ := forall_mem_cons.mp hsteady
    exact ih hlater hrest (sound_step clock display hfirst hu hsound)
      (astray_step clock display hfirst hu hsound h)

/-- The condition on an event: the alert is not active when the alerts are disabled. -/
def DropsInactive (key : Str) (d : Desktop) (event : DesktopEvent) : Prop :=
  event = .act (.setAlertsEnabled false) → d.dashboard.alerts.active.lookup key = none

theorem told_step (hsteady : Steady event) (hstep : step clock display d event = some d')
    (hsound : AlertsSound d.dashboard) (h : Told d.db d.dashboard key)
    (hkeeps : DropsInactive key d event) : Told d'.db d'.dashboard key := by
  cases event with
  | act action =>
    cases hstep
    by_cases ha : action = .setAlertsEnabled false
    · subst ha
      exact (told_disable clock display hsound h).1 (hkeeps rfl)
    · exact told_act clock display ha hsound h
  | handle outcome =>
    cases hsteady
    obtain ⟨hsettled, halerts, _⟩ := settled_handle clock display hstep
    rw [Told, hsettled, halerts]
    exact h
  | restart start => exact hsteady.elim

/-- Along a run, the tables tell about an alert just until it is dropped while it is active. -/
theorem told_run_iff (hsteady : ∀ e ∈ events, Steady e)
    (hrun : run clock display d events = some d') (hsound : AlertsSound d.dashboard)
    (h : Told d.db d.dashboard key) :
    Told d'.db d'.dashboard key ↔ Runs.Meets (step clock display) (DropsInactive key) d events := by
  induction events generalizing d with
  | nil =>
    cases hrun
    exact iff_of_true h Runs.meets_nil
  | cons e events ih =>
    obtain ⟨u, hu, hrest⟩ := Runs.run_cons.mp hrun
    obtain ⟨hfirst, hlater⟩ := forall_mem_cons.mp hsteady
    have hsound' := sound_step clock display hfirst hu hsound
    rw [Runs.meets_cons hu]
    by_cases hkeeps : DropsInactive key d e
    · have htold := told_step clock display hfirst hu hsound h hkeeps
      rw [ih hlater hrest hsound' htold, and_iff_right hkeeps]
    · obtain ⟨rfl, hactive⟩ := Classical.not_imp.mp hkeeps
      have hastray : Astray u.db u.dashboard key := by
        cases hu
        exact (told_disable clock display hsound h).2 (Option.isSome_iff_ne_none.mpr hactive)
      have hlost := astray_run clock display hlater hrest hsound' hastray
      exact iff_of_false hlost.not_tells fun hmeets => hkeeps hmeets.1

/-- The condition on an event: no alert is active when the alerts are disabled. -/
def DropsNothing (d : Desktop) (event : DesktopEvent) : Prop :=
  event = .act (.setAlertsEnabled false) → d.dashboard.alerts.active.entries = []

theorem dropsNothing_iff {d : Desktop} {event : DesktopEvent} :
    DropsNothing d event ↔ ∀ key, DropsInactive key d event := by
  constructor
  · intro h key he
    rw [SortedMap.lookup, h he]
    rfl
  · intro h he
    refine eq_nil_iff_forall_not_mem.mpr fun entry hentry => ?_
    have hactive := SortedMap.mem_entries.mp hentry
    rw [h entry.1 he] at hactive
    cases hactive

/-- On an empty database, once everything is written, the persisted alerts mirror the live ones just
if no alert was active whenever the alerts were disabled. -/
theorem alerts_mirrored_iff {rows : List EdgeRow} {message : Str}
    (hstart : started clock .empty 0 (.ready rows message) = some d₀)
    (hsteady : ∀ e ∈ events, Steady e) (hrun : run clock display d₀ events = some d)
    (hwritten : d.dashboard.storage = some []) :
    (∀ key, Tells d.dashboard.alerts d.db.alertTables key) ↔
      Runs.Meets (step clock display) DropsNothing d₀ events := by
  obtain ⟨_, rfl⟩ := started_ready hstart
  have hsound : AlertsSound (.new clock (some []) 0 (StateDb.loadEdgeStates rows) (some message)) :=
    ⟨rfl, nofun, nofun⟩
  have hfresh : ∀ key, Told .empty
      (.new clock (some []) 0 (StateDb.loadEdgeStates rows) (some message)) key := fun key =>
    ⟨Iff.rfl, ⟨nofun, .nil⟩, iff_of_false nofun nofun⟩
  have hsettled : settled d.db d.dashboard = d.db := by
    rw [settled, hwritten]
    rfl
  have hiff := fun key => told_run_iff clock display hsteady hrun hsound (hfresh key)
  simp only [Told, hsettled] at hiff
  simp only [hiff]
  constructor
  · intro hmeets pre e post u hevents hu
    exact dropsNothing_iff.mpr fun key => hmeets key pre e post u hevents hu
  · intro hmeets key pre e post u hevents hu
    exact dropsNothing_iff.mp (hmeets pre e post u hevents hu) key

/-- An alert that fires after the alerts were disabled and enabled again. -/
def reenabled : List DesktopEvent :=
  [.act (.setAlertsEnabled false), .act (.setAlertsEnabled true), .act (.error none []),
    .handle .written]

theorem alerts_mirrored_iff_sample : ∃ d,
    run stoppedClock plainDisplay freshDesktop reenabled = some d ∧
    d.dashboard.storage = some [] ∧ d.dashboard.alerts.active.entries.length = 1 ∧
    ∀ key, Tells d.dashboard.alerts d.db.alertTables key := by
  have hstart : started stoppedClock .empty 0 (.ready [] []) = some freshDesktop := rfl
  have hsteady : ∀ e ∈ reenabled, Steady e := by simp [reenabled, Steady]
  refine ⟨_, rfl, rfl, rfl, ?_⟩
  refine (alerts_mirrored_iff stoppedClock plainDisplay hstart hsteady rfl rfl).mpr ?_
  refine (Runs.meets_cons rfl).mpr ⟨fun _ => rfl, ?_⟩
  refine (Runs.meets_cons rfl).mpr ⟨nofun, ?_⟩
  refine (Runs.meets_cons rfl).mpr ⟨nofun, ?_⟩
  exact (Runs.meets_cons rfl).mpr ⟨nofun, Runs.meets_nil⟩

/-- An alert that was active when the alerts were disabled stays in the database. -/
theorem dropped_alert_persists : ∃ d,
    run stoppedClock plainDisplay freshDesktop [.act (.error none []), .act (.setAlertsEnabled false),
      .handle .written] = some d ∧
    d.dashboard.storage = some [] ∧ d.dashboard.alerts.active.entries = [] ∧
    d.db.alertState.entries.length = 1 ∧ d.db.alertEvents.map AlertRecord.transition = [.fired] :=
  ⟨_, rfl, rfl, rfl, rfl, rfl⟩

end Desktop

end SkidMonitor.Client
