import SkidMonitor.Client.AlertLog
import SkidMonitor.Client.Presence

/-! The alerts over whole histories of observations: which of them are active, and the transitions
that were returned on the way. -/
namespace SkidMonitor.Client

open List

/-- The calls that change the alerts. -/
inductive AlertCall where
  | observeMetric (sample : MetricSample)
  | observeReceiverError (listener error : Str)
  | observeReceiverRecovered (listener detail : Str)
  | observeExtensionError (error : Str)
  | clear

def AlertCall.isClear : AlertCall → Bool
  | .clear => true
  | _ => false

variable (display : Display)

/-- The alert that a call observes, and whether it fires. -/
def AlertCall.observes : AlertCall → Option (Str × Bool)
  | .observeMetric sample => (MetricEvaluation.fromSample display sample).map fun evaluation =>
    (evaluation.snapshot.key, evaluation.firing)
  | .observeReceiverError listener _ => some (AlertStore.receiverErrorKey listener, true)
  | .observeReceiverRecovered listener _ => some (AlertStore.receiverErrorKey listener, false)
  | .observeExtensionError _ => some (AlertStore.extensionErrorRule, true)
  | .clear => none

/-- The last observation of an alert since the last clearing: whether it fired. -/
def lastObservation (key : Str) (calls : List AlertCall) : Option Bool :=
  ((calls.reverse.takeWhile fun call => !call.isClear).filterMap
    (AlertCall.observes display)).lookup key

namespace AlertStore

def Active (s : AlertStore) (key : Str) : Prop := (s.active.lookup key).isSome = true

instance (s : AlertStore) (key : Str) : Decidable (s.Active key) :=
  inferInstanceAs (Decidable (_ = true))

/-- A call and what it returns; clearing returns nothing. -/
def call (s : AlertStore) : AlertCall → AlertStore × Option AlertChange
  | .observeMetric sample => s.observeMetric display sample
  | .observeReceiverError listener error => s.observeReceiverError listener error
  | .observeReceiverRecovered listener detail => s.observeReceiverRecovered listener detail
  | .observeExtensionError error => s.observeExtensionError error
  | .clear => (s.clear, none)

def after (s : AlertStore) (calls : List AlertCall) : AlertStore :=
  calls.foldl (fun s call => (s.call display call).1) s

/-- What the calls return. -/
def changes (s : AlertStore) : List AlertCall → List AlertChange
  | [] => []
  | call :: calls => (s.call display call).2.toList ++ changes (s.call display call).1 calls

variable {display} {s : AlertStore} {call : AlertCall} {calls : List AlertCall} {key : Str}
  {outcome : AlertStore × Option AlertChange}

theorem after_concat : s.after display (calls ++ [call]) =
    ((s.after display calls).call display call).1 := by
  rw [after, foldl_append]
  rfl

theorem changes_concat : s.changes display (calls ++ [call]) =
    s.changes display calls ++ ((s.after display calls).call display call).2.toList := by
  induction calls generalizing s with
  | nil => simp [changes, after]
  | cons c calls ih =>
    rw [cons_append, changes, ih, changes, append_assoc]
    rfl

theorem observes_call (display : Display) (s : AlertStore) (hcall : call.isClear = false) :
    Observes s (s.call display call) := by
  cases call with
  | observeMetric sample => exact observes_metric display s sample
  | observeReceiverError listener error => exact observes_fire s rfl
  | observeReceiverRecovered listener detail => exact observes_resolve s _ _
  | observeExtensionError error => exact observes_fire s rfl
  | clear => cases hcall

theorem call_clear (hcall : call.isClear = true) : s.call display call = (empty, none) := by
  cases call with
  | clear => rfl
  | _ => cases hcall

theorem keyed_empty : empty.Keyed := fun _ _ h => by cases h

theorem keyed_after (display : Display) (hs : s.Keyed) (calls : List AlertCall) :
    (s.after display calls).Keyed := by
  induction calls using List.reverseRecOn with
  | nil => exact hs
  | append_singleton calls call ih =>
    rw [after_concat]
    cases hclear : call.isClear with
    | false => exact (observes_call display _ hclear).keyed ih
    | true =>
      rw [call_clear hclear]
      exact keyed_empty

/-- A call that is not a clearing observes nothing, or fires, or resolves. -/
theorem call_cases (display : Display) (s : AlertStore) (hcall : call.isClear = false) :
    (call.observes display = none ∧ s.call display call = (s, none)) ∨
    (∃ alert, call.observes display = some (alert.key, true) ∧
      s.call display call = s.fire alert) ∨
    ∃ key detail, call.observes display = some (key, false) ∧
      s.call display call = s.resolve key detail := by
  cases call with
  | observeMetric sample =>
    simp only [AlertCall.observes, AlertStore.call, observeMetric]
    cases MetricEvaluation.fromSample display sample with
    | none => exact .inl ⟨rfl, rfl⟩
    | some evaluation =>
      cases hfiring : evaluation.firing with
      | true => exact .inr (.inl ⟨evaluation.snapshot, by simp [hfiring], by simp [hfiring]⟩)
      | false => exact .inr (.inr ⟨evaluation.snapshot.key, evaluation.snapshot.detail,
          by simp [hfiring], by simp [hfiring]⟩)
  | observeReceiverError listener error => exact .inr (.inl ⟨_, rfl, rfl⟩)
  | observeReceiverRecovered listener detail => exact .inr (.inr ⟨_, detail, rfl, rfl⟩)
  | observeExtensionError error => exact .inr (.inl ⟨_, rfl, rfl⟩)
  | clear => cases hcall

/-- The alerts that a call does not observe stay as they are. -/
theorem lookup_call (hcall : call.isClear = false)
    (hkey : (call.observes display).map Prod.fst ≠ some key) :
    (s.call display call).1.active.lookup key = s.active.lookup key := by
  obtain ⟨_, heq⟩ | ⟨alert, hobserves, heq⟩ | ⟨resolved, detail, hobserves, heq⟩ :=
    call_cases display s hcall
  · rw [heq]
  · rw [hobserves] at hkey
    rw [heq]
    exact SortedMap.lookup_insert_of_ne fun h => hkey (h ▸ rfl)
  · rw [hobserves] at hkey
    rw [heq, resolve]
    split
    · rfl
    · exact SortedMap.lookup_erase_of_ne fun h => hkey (h ▸ rfl)

/-- The alert that a call observes is active just if it fires. -/
theorem active_call {firing : Bool} (hobserves : call.observes display = some (key, firing)) :
    (s.call display call).1.Active key ↔ firing = true := by
  have hcall : call.isClear = false := by
    cases call with
    | clear => cases hobserves
    | _ => rfl
  obtain ⟨hnone, _⟩ | ⟨alert, hfires, heq⟩ | ⟨resolved, detail, hresolves, heq⟩ :=
    call_cases display s hcall
  · rw [hnone] at hobserves
    cases hobserves
  · rw [hfires] at hobserves
    cases hobserves
    rw [heq, Active, fire, SortedMap.lookup_insert_self]
    simp
  · rw [hresolves] at hobserves
    cases hobserves
    rw [heq, Active, resolve]
    split
    · rename_i hnone
      simp [hnone]
    · simp

theorem active_insert (alert : AlertSnapshot) :
    Active ⟨s.active.insert alert.key alert⟩ key ↔ key = alert.key ∨ s.Active key := by
  unfold Active
  by_cases hk : key = alert.key
  · subst hk
    simp
  · rw [SortedMap.lookup_insert_of_ne hk]
    simp [hk]

theorem active_erase (erased : Str) :
    Active ⟨s.active.erase erased⟩ key ↔ key ≠ erased ∧ s.Active key := by
  unfold Active
  by_cases hk : key = erased
  · subst hk
    simp
  · rw [SortedMap.lookup_erase_of_ne hk]
    simp [hk]

/-- What a call reports about an alert. -/
def transition (key : Str) (change : Option AlertChange) : Option AlertTransition :=
  change.bind fun change => if change.snapshot.key = key then some change.transition else none

theorem transition_eq_some {change : Option AlertChange} {kind : AlertTransition} :
    transition key change = some kind ↔ ∃ alert, change = some ⟨kind, alert⟩ ∧ alert.key = key := by
  constructor
  · intro h
    obtain ⟨⟨found, alert⟩, rfl, hkind⟩ := Option.bind_eq_some_iff.mp h
    split_ifs at hkind with hk
    cases hkind
    exact ⟨alert, rfl, hk⟩
  · rintro ⟨alert, rfl, rfl⟩
    simp [transition]

/-- A change is reported just if the alert was turned active, or was so and no longer is. -/
theorem transition_call (display : Display) (key : Str) (hs : s.Keyed)
    (hcall : call.isClear = false) :
    transition key (s.call display call).2 =
      if s.Active key then if (s.call display call).1.Active key then none else some .resolved
      else if (s.call display call).1.Active key then some .fired else none := by
  have hobserves := observes_call display s hcall
  generalize s.call display call = outcome at hobserves ⊢
  cases hobserves with
  | same => by_cases hactive : s.Active key <;> simp [hactive, transition]
  | @again alert hold =>
    by_cases hk : key = alert.key
    · have hactive : s.Active key := hk ▸ hold
      simp [hactive, active_insert, transition]
    · by_cases hactive : s.Active key <;> simp [hactive, active_insert, hk, transition]
  | @fired alert hnone _ =>
    by_cases hk : key = alert.key
    · subst hk
      have hactive : ¬ s.Active alert.key := by simp [Active, hnone]
      simp [hactive, active_insert, transition]
    · by_cases hactive : s.Active key <;>
        simp [hactive, active_insert, hk, Ne.symm hk, transition]
  | @resolved erased detail alert hold =>
    have hown := hs erased alert hold
    by_cases hk : key = erased
    · subst hk
      have hactive : s.Active key := by simp [Active, hold]
      simp [hactive, active_erase, hown, transition]
    · by_cases hactive : s.Active key <;>
        simp [hactive, active_erase, hk, Ne.symm hk, hown, transition]

theorem fired_iff (hs : s.Keyed) (hcall : call.isClear = false) :
    (∃ alert, (s.call display call).2 = some ⟨.fired, alert⟩ ∧ alert.key = key) ↔
      ¬ s.Active key ∧ (s.call display call).1.Active key := by
  rw [← transition_eq_some, transition_call display key hs hcall]
  split_ifs <;> simp_all

theorem resolved_iff (hs : s.Keyed) (hcall : call.isClear = false) :
    (∃ alert, (s.call display call).2 = some ⟨.resolved, alert⟩ ∧ alert.key = key) ↔
      s.Active key ∧ ¬ (s.call display call).1.Active key := by
  rw [← transition_eq_some, transition_call display key hs hcall]
  split_ifs <;> simp_all

theorem active_after (key : Str) (calls : List AlertCall) :
    (empty.after display calls).Active key ↔ lastObservation display key calls = some true := by
  induction calls using List.reverseRecOn with
  | nil => exact iff_of_false (fun h => by cases h) (fun h => by cases h)
  | append_singleton calls call ih =>
    rw [after_concat, lastObservation, reverse_append, reverse_singleton,
      singleton_append, takeWhile_cons]
    cases hclear : call.isClear with
    | true =>
      rw [call_clear hclear]
      exact iff_of_false (fun h => by cases h) (fun h => by cases h)
    | false =>
      rw [Bool.not_false, if_pos rfl, filterMap_cons]
      cases hobserves : call.observes display with
      | none =>
        rw [Active, lookup_call hclear (by simp [hobserves])]
        exact ih
      | some observed =>
        obtain ⟨observed, firing⟩ := observed
        dsimp only
        rw [lookup_cons]
        by_cases hk : key = observed
        · subst hk
          rw [active_call hobserves, beq_self_eq_true]
          simp
        · rw [Active, lookup_call hclear (by simp [hobserves, Ne.symm hk]),
            beq_eq_false_iff_ne.mpr hk]
          exact ih

/-- The transitions of one alert among the changes. -/
def transitions (key : Str) (changes : List AlertChange) : List AlertTransition :=
  (changes.filter fun change => change.snapshot.key = key).map AlertChange.transition

theorem transitions_append {l l' : List AlertChange} :
    transitions key (l ++ l') = transitions key l ++ transitions key l' := by
  rw [transitions, filter_append, map_append]
  rfl

theorem transitions_toList (change : Option AlertChange) :
    transitions key change.toList = (transition key change).toList := by
  cases change with
  | none => rfl
  | some change =>
    by_cases hk : change.snapshot.key = key <;> simp [transitions, transition, hk]

/-- Without a clearing, the transitions of an alert that starts inactive alternate, and the last of
them says whether it is active. -/
theorem alternating_changes (hs : s.Keyed) (hinactive : ¬ s.Active key)
    (hclear : ∀ call ∈ calls, call.isClear = false) :
    Alternating (transitions key (s.changes display calls)) ∧
      ((transitions key (s.changes display calls)).getLast? = some .fired ↔
        (s.after display calls).Active key) := by
  induction calls using List.reverseRecOn with
  | nil => exact ⟨⟨by simp [changes, transitions], .nil⟩, iff_of_false (by simp [changes, transitions])
      hinactive⟩
  | append_singleton calls call ih =>
    obtain ⟨halt, hlast⟩ := ih fun c hc => hclear c (mem_append_left _ hc)
    have hcall := hclear call (mem_append_right _ (mem_singleton_self _))
    rw [changes_concat, transitions_append, transitions_toList, after_concat,
      transition_call display key (keyed_after display hs calls) hcall]
    split_ifs with hbefore hafter hafter
    · exact ⟨by simpa using halt, iff_of_true (by simpa using hlast.mpr hbefore) hafter⟩
    · have hfired := hlast.mpr hbefore
      exact ⟨alternating_append.mpr ⟨halt, by simp [hfired]⟩, iff_of_false (by simp) hafter⟩
    · have hresolved := mt hlast.mp hbefore
      exact ⟨alternating_append.mpr ⟨halt, by simp [hresolved]⟩, iff_of_true (by simp) hafter⟩
    · have hresolved := mt hlast.mp hbefore
      exact ⟨by simpa using halt, iff_of_false (by simpa using hresolved) hafter⟩

theorem after_fresh {fresh : List AlertCall}
    (hfresh : fresh = [] ∨ ∃ before, fresh = before ++ [.clear]) :
    empty.after display fresh = empty := by
  obtain rfl | ⟨before, rfl⟩ := hfresh
  · rfl
  · rw [after_concat]
    rfl

/-- An alert is active just if its last observation since the last clearing fired. A call returns a
change just if it turns an alert active, or inactive, and it leaves the other alerts alone. Between
two clearings the transitions of an alert alternate. -/
theorem alert_transition_discipline (display : Display) (calls : List AlertCall) :
    (∀ key, (empty.after display calls).Active key ↔
      lastObservation display key calls = some true) ∧
    (∀ before call rest, calls = before ++ call :: rest → call.isClear = false →
      let s := empty.after display before
      (∀ key, (∃ alert, (s.call display call).2 = some ⟨.fired, alert⟩ ∧ alert.key = key) ↔
        ¬ s.Active key ∧ (s.call display call).1.Active key) ∧
      (∀ key, (∃ alert, (s.call display call).2 = some ⟨.resolved, alert⟩ ∧ alert.key = key) ↔
        s.Active key ∧ ¬ (s.call display call).1.Active key) ∧
      ∀ key, (call.observes display).map Prod.fst ≠ some key →
        (s.call display call).1.active.lookup key = s.active.lookup key) ∧
    ∀ fresh between rest, calls = fresh ++ between ++ rest →
      (fresh = [] ∨ ∃ before, fresh = before ++ [.clear]) →
      (∀ call ∈ between, call.isClear = false) → ∀ key,
        Alternating (transitions key ((empty.after display fresh).changes display between)) := by
  refine ⟨fun key => active_after key calls, ?_, ?_⟩
  · intro before call rest _ hcall s
    have hkeyed : s.Keyed := keyed_after display keyed_empty before
    exact ⟨fun key => fired_iff hkeyed hcall, fun key => resolved_iff hkeyed hcall,
      fun key hkey => lookup_call hcall hkey⟩
  · rintro fresh between rest _ hfresh hclear key
    rw [after_fresh hfresh]
    exact (alternating_changes keyed_empty (fun h => by cases h) hclear).1

end AlertStore

section Isolation

open AlertStore

variable (display : Display)

def ruleOfMetric (name : Str) : Option Str :=
  if name = cpuMetric then some cpuRule
  else if name = memoryMetric then some memoryRule
  else if name = fileRootMetric then some fileRootRule
  else none

def metricAlertKey (sample : MetricSample) : Option Str :=
  (ruleOfMetric sample.name).map (ruleMetricKey · sample)

/-- The alert that a sample fires. -/
def firedBy (sample : MetricSample) : Option AlertSnapshot :=
  (MetricEvaluation.fromSample display sample).bind fun evaluation =>
    if evaluation.firing then some evaluation.snapshot else none

/-- The key under which a sample is evaluated whose point has these attributes. -/
def keyText (sample : MetricSample) (pointAttrs : List KeyValue) : Option Str :=
  (ruleOfMetric sample.name).map fun rule => rule ++ ':' :: sample.endpoint ++ ':' ::
    trendKey display sample.endpoint sample.name sample.source sample.node pointAttrs

/-- Two samples are evaluated under one key, the first has a number and the second fires. -/
def Collides (a b : MetricSample) (attrs attrs' : List KeyValue) : Prop :=
  a.numeric.isSome ∧ (firedBy display b).isSome ∧ keyText display a attrs = keyText display b attrs'

variable {display} {a b : MetricSample} {alert : AlertSnapshot}

theorem fromSample_key (display : Display) (sample : MetricSample) :
    (MetricEvaluation.fromSample display sample).map (·.snapshot.key) =
      sample.numeric.bind fun _ => metricAlertKey sample := by
  unfold MetricEvaluation.fromSample metricAlertKey ruleOfMetric
  cases sample.numeric with
  | none => rfl
  | some value =>
    simp only [Option.bind_some]
    split_ifs <;> rfl

theorem firedBy_some (h : firedBy display b = some alert) :
    metricAlertKey b = some alert.key ∧ alert.endpoint = b.endpoint ∧ alert.node = b.node := by
  obtain ⟨evaluation, hevaluation, hfiring⟩ := Option.bind_eq_some_iff.mp h
  split_ifs at hfiring
  cases hfiring
  obtain ⟨_, _, hendpoint, hnode⟩ := fromSample_snapshot display hevaluation
  have hkey := fromSample_key display b
  rw [hevaluation] at hkey
  obtain ⟨_, _, hkey⟩ := Option.bind_eq_some_iff.mp hkey.symm
  exact ⟨hkey, hendpoint, hnode⟩

theorem lookup_firedBy (s : AlertStore) (h : firedBy display b = some alert) :
    (s.observeMetric display b).1.active.lookup alert.key = some alert := by
  obtain ⟨evaluation, hevaluation, hfiring⟩ := Option.bind_eq_some_iff.mp h
  split_ifs at hfiring with hfires
  cases hfiring
  rw [observeMetric, hevaluation]
  simp only [hfires, if_true]
  exact SortedMap.lookup_insert_self

/-- A sample of another node that is evaluated under the key of an alert resolves or replaces it. -/
theorem lookup_ne_of_key (s : AlertStore)
    (hdiff : ¬ (a.endpoint = alert.endpoint ∧ a.node = alert.node))
    (hnumeric : a.numeric.isSome) (hkey : metricAlertKey a = some alert.key) :
    (s.observeMetric display a).1.active.lookup alert.key ≠ some alert := by
  obtain ⟨value, hvalue⟩ := Option.isSome_iff_exists.mp hnumeric
  have hmap := fromSample_key display a
  rw [hvalue, Option.bind_some, hkey] at hmap
  obtain ⟨evaluation, hevaluation, hown⟩ := Option.map_eq_some_iff.mp hmap
  obtain ⟨_, _, hendpoint, hnode⟩ := fromSample_snapshot display hevaluation
  rw [observeMetric, hevaluation]
  dsimp only
  split_ifs
  · rw [fire, hown, SortedMap.lookup_insert_self]
    rintro heq
    cases heq
    exact hdiff ⟨hendpoint.symm, hnode.symm⟩
  · rw [← hown, resolve]
    split
    · rename_i hnone
      simp [hnone]
    · simp

theorem colon_notMem_rule {name rule : Str} (h : ruleOfMetric name = some rule) : ':' ∉ rule := by
  unfold ruleOfMetric at h
  split_ifs at h <;> cases h <;> decide

/-- Samples of different nodes do not collide if their sources and nodes have no slash, and neither
have their listeners, unless it is one. -/
theorem not_collides {attrs attrs' : List KeyValue}
    (hdiff : ¬ (a.endpoint = b.endpoint ∧ a.node = b.node))
    (ha : '/' ∉ a.source ∧ '/' ∉ a.node) (hb : '/' ∉ b.source ∧ '/' ∉ b.node)
    (hlistener : a.endpoint = b.endpoint ∨ '/' ∉ a.endpoint ∧ '/' ∉ b.endpoint) :
    ¬ Collides display a b attrs attrs' := by
  rintro ⟨_, hfires, hkey⟩
  obtain ⟨alert, halert⟩ := Option.isSome_iff_exists.mp hfires
  obtain ⟨rule, hrule, _⟩ := Option.map_eq_some_iff.mp (firedBy_some halert).1
  rw [keyText, keyText, hrule, Option.map_some] at hkey
  obtain ⟨rule', hrule', hkey⟩ := Option.map_eq_some_iff.mp hkey
  simp only [trendKey, append_assoc, cons_append] at hkey
  have htext :=
    (Text.append_cons_cancel (colon_notMem_rule hrule') (colon_notMem_rule hrule) hkey).2
  have hendpoint : a.endpoint = b.endpoint := by
    rcases hlistener with h | ⟨hslash, hslash'⟩
    · exact h
    · have hgroup : ∀ x y z : Str, x ++ ':' :: (y ++ '/' :: z) = (x ++ ':' :: y) ++ '/' :: z :=
        fun x y z => by simp
      rw [hgroup, hgroup] at htext
      have hhead : a.endpoint ++ ':' :: a.endpoint = b.endpoint ++ ':' :: b.endpoint :=
        (Text.append_cons_cancel (by simp [hslash]) (by simp [hslash']) htext).1
      have hlength := congrArg length hhead
      simp only [length_append, length_cons] at hlength
      exact append_inj_left hhead (by omega)
  rw [hendpoint] at htext
  have hrest := (cons.inj (append_cancel_left (cons.inj (append_cancel_left htext)).2)).2
  obtain ⟨_, hrest⟩ := Text.append_cons_cancel ha.1 hb.1 hrest
  exact hdiff ⟨hendpoint, (Text.append_cons_cancel ha.2 hb.2 hrest).1⟩

/-- A sample never resolves or replaces the alert that a sample of another node fired, just if the
keys of the two do not collide. -/
theorem node_alerts_isolated_iff {request request' : List (ResourceGroup Metric)}
    {listener listener' : Str} (ha : a ∈ metricSamples display request listener)
    (hb : b ∈ metricSamples display request' listener')
    (hdiff : ¬ (a.endpoint = b.endpoint ∧ a.node = b.node)) :
    ∃ attrs attrs', keyText display a attrs = metricAlertKey a ∧
      keyText display b attrs' = metricAlertKey b ∧
      ((∀ calls alert, firedBy display b = some alert →
        (empty.after display calls).active.lookup alert.key = some alert →
        ((empty.after display calls).observeMetric display a).1.active.lookup alert.key =
          some alert) ↔ ¬ Collides display a b attrs attrs') := by
  obtain ⟨rfl, attrs, hkeyA⟩ := exists_trendKey ha
  obtain ⟨rfl, attrs', hkeyB⟩ := exists_trendKey hb
  have hA : keyText display a attrs = metricAlertKey a := by rw [keyText, ← hkeyA]; rfl
  have hB : keyText display b attrs' = metricAlertKey b := by rw [keyText, ← hkeyB]; rfl
  refine ⟨attrs, attrs', hA, hB, ?_⟩
  rw [Collides, hA, hB]
  constructor
  · rintro h ⟨hnumeric, hfires, hkey⟩
    obtain ⟨alert, halert⟩ := Option.isSome_iff_exists.mp hfires
    obtain ⟨hown, hendpoint, hnode⟩ := firedBy_some halert
    rw [← hendpoint, ← hnode] at hdiff
    refine lookup_ne_of_key _ hdiff hnumeric (hkey.trans hown) (h [.observeMetric b] alert halert ?_)
    exact lookup_firedBy empty halert
  · intro h calls alert halert hactive
    obtain ⟨hown, _⟩ := firedBy_some halert
    have hcall : (AlertCall.observeMetric a).isClear = false := rfl
    rw [← hactive]
    refine lookup_call hcall fun hobserves => h ?_
    rw [AlertCall.observes, Option.map_map] at hobserves
    have hmap := (fromSample_key display a).symm.trans hobserves
    obtain ⟨value, hvalue, hkey⟩ := Option.bind_eq_some_iff.mp hmap
    exact ⟨by rw [hvalue]; rfl, by rw [halert]; rfl, hkey.trans hown.symm⟩

def cpuResource (source node : Str) : List KeyValue :=
  [⟨metricResourceSourceKey, some (some (.stringValue source)), ⟨[]⟩⟩,
    ⟨"host.name".toList, some (some (.stringValue node)), ⟨[]⟩⟩]

/-- A request with one CPU sample, of this source and node. -/
def cpuRequest (source node : Str) (value : F64) : List (ResourceGroup Metric) :=
  [⟨some (cpuResource source node), [⟨none, [⟨cpuMetric, [],
    some (.gauge [⟨[], some (.asDouble value), ⟨[]⟩⟩]), ⟨[]⟩⟩], ⟨[]⟩⟩], ⟨[]⟩⟩]

def cpuSample (source node : Str) (value : F64) : MetricSample :=
  metricSample plainDisplay cpuMetric [] (some value) source metricEmptyField metricEmptyField
    "gauge".toList (cpuResource source node) [] ['l']

theorem cpuSample_mem (source node : Str) (value : F64) :
    cpuSample source node value ∈ metricSamples plainDisplay (cpuRequest source node value) ['l'] :=
  mem_singleton_self _

theorem node_alerts_isolated_iff_sample :
    ∃ a ∈ metricSamples plainDisplay (cpuRequest ['s'] ['m'] F64.zero) ['l'],
    ∃ b ∈ metricSamples plainDisplay (cpuRequest ['s'] ['n'] F64.ninety) ['l'],
      (firedBy plainDisplay b).isSome ∧ ∀ calls alert, firedBy plainDisplay b = some alert →
        (empty.after plainDisplay calls).active.lookup alert.key = some alert →
        ((empty.after plainDisplay calls).observeMetric plainDisplay a).1.active.lookup alert.key =
          some alert := by
  refine ⟨_, cpuSample_mem _ _ _, _, cpuSample_mem _ _ _, by decide, ?_⟩
  obtain ⟨_, _, _, _, hiff⟩ := node_alerts_isolated_iff (cpuSample_mem ['s'] ['m'] F64.zero)
    (cpuSample_mem ['s'] ['n'] F64.ninety) (by decide)
  exact hiff.mpr (not_collides (by decide) (by decide) (by decide) (.inl rfl))

/-- The source `s/m` with the node `n` has the key of the source `s` with the node `m/n`. -/
theorem slashed_node_resolves :
    ∃ a ∈ metricSamples plainDisplay (cpuRequest ['s'] ['m', '/', 'n'] F64.zero) ['l'],
    ∃ b ∈ metricSamples plainDisplay (cpuRequest ['s', '/', 'm'] ['n'] F64.ninety) ['l'],
    ∃ alert, a.node ≠ b.node ∧ firedBy plainDisplay b = some alert ∧
      (empty.after plainDisplay [.observeMetric b]).active.lookup alert.key = some alert ∧
      ((empty.after plainDisplay [.observeMetric b]).observeMetric plainDisplay a).1.active.lookup
        alert.key = none := by
  refine ⟨_, cpuSample_mem _ _ _, _, cpuSample_mem _ _ _, _, by decide, rfl, ?_, ?_⟩
  · exact lookup_firedBy empty rfl
  · decide +kernel

end Isolation

end SkidMonitor.Client
