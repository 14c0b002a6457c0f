import SkidMonitor.Client.Alignment
import SkidMonitor.Client.Presence

/-! The severity kept for a node against the alerts that are active for it. -/
namespace SkidMonitor.Client

open List

/-- The alert is about this node. -/
def AlertSnapshot.About (alert : AlertSnapshot) (endpoint node : Str) : Prop :=
  alert.endpoint = endpoint ∧ alert.node = node

namespace AlertStore

variable {s t : AlertStore} {endpoint node key : Str} {alert : AlertSnapshot}

theorem max?_congr {l l' : List AlertSeverity} (h : ∀ a, a ∈ l ↔ a ∈ l') : l.max? = l'.max? := by
  symm
  cases hl : l.max? with
  | none =>
    rw [max?_eq_none_iff] at hl ⊢
    subst hl
    exact eq_nil_iff_forall_not_mem.mpr fun a ha => not_mem_nil ((h a).mpr ha)
  | some a =>
    rw [max?_eq_some_iff] at hl ⊢
    exact ⟨(h a).mp hl.1, fun b hb => hl.2 b ((h b).mpr hb)⟩

/-- The alerts about a node are the same in both. -/
def SameAbout (s t : AlertStore) (endpoint node : Str) : Prop :=
  ∀ key alert, alert.About endpoint node →
    (s.active.lookup key = some alert ↔ t.active.lookup key = some alert)

theorem mem_severities {severity : AlertSeverity} :
    severity ∈ (s.active.values.filter fun alert => alert.endpoint = endpoint ∧ alert.node =
        node).map AlertSnapshot.severity ↔
      ∃ key alert, s.active.lookup key = some alert ∧ alert.About endpoint node ∧
        alert.severity = severity := by
  simp only [mem_map, mem_filter, SortedMap.mem_values, decide_eq_true_eq,
    AlertSnapshot.About]
  constructor
  · rintro ⟨alert, ⟨⟨key, hkey⟩, habout⟩, hseverity⟩
    exact ⟨key, alert, hkey, habout, hseverity⟩
  · rintro ⟨key, alert, hkey, habout, hseverity⟩
    exact ⟨alert, ⟨⟨key, hkey⟩, habout⟩, hseverity⟩

theorem SameAbout.highest (h : SameAbout s t endpoint node) :
    s.highestForNode endpoint node = t.highestForNode endpoint node := by
  refine max?_congr fun severity => ?_
  rw [mem_severities, mem_severities]
  constructor
  · rintro ⟨key, alert, hkey, habout, hseverity⟩
    exact ⟨key, alert, (h key alert habout).mp hkey, habout, hseverity⟩
  · rintro ⟨key, alert, hkey, habout, hseverity⟩
    exact ⟨key, alert, (h key alert habout).mpr hkey, habout, hseverity⟩

theorem highest_eq_none : s.highestForNode endpoint node = none ↔
    ∀ key alert, s.active.lookup key = some alert → ¬ alert.About endpoint node := by
  rw [highestForNode, max?_eq_none_iff, eq_nil_iff_forall_not_mem]
  simp only [mem_severities]
  constructor
  · exact fun h key alert hkey habout => h alert.severity ⟨key, alert, hkey, habout, rfl⟩
  · rintro h severity ⟨key, alert, hkey, habout, _⟩
    exact h key alert hkey habout

theorem sameAbout_insert (hnew : ¬ alert.About endpoint node)
    (hold : ∀ old, s.active.lookup key = some old → ¬ old.About endpoint node) :
    SameAbout s ⟨s.active.insert key alert⟩ endpoint node := by
  intro k found habout
  by_cases hk : k = key
  · subst hk
    refine iff_of_false (fun h => hold found h habout) fun h => ?_
    rw [SortedMap.lookup_insert_self] at h
    exact hnew (Option.some.inj h ▸ habout)
  · rw [SortedMap.lookup_insert_of_ne hk]

theorem sameAbout_erase
    (hold : ∀ old, s.active.lookup key = some old → ¬ old.About endpoint node) :
    SameAbout s ⟨s.active.erase key⟩ endpoint node := by
  intro k found habout
  by_cases hk : k = key
  · subst hk
    refine iff_of_false (fun h => hold found h habout) fun h => ?_
    rw [SortedMap.lookup_erase_self] at h
    cases h
  · rw [SortedMap.lookup_erase_of_ne hk]

theorem sameAbout_fire (hnew : ¬ alert.About endpoint node)
    (hold : ∀ old, s.active.lookup alert.key = some old → ¬ old.About endpoint node) :
    SameAbout s (s.fire alert).1 endpoint node :=
  sameAbout_insert hnew hold

theorem sameAbout_resolve {detail : Str}
    (hold : ∀ old, s.active.lookup key = some old → ¬ old.About endpoint node) :
    SameAbout s (s.resolve key detail).1 endpoint node := by
  unfold resolve
  split
  · exact fun _ _ _ => Iff.rfl
  · exact sameAbout_erase hold

theorem resolve_lookup {detail : Str} : (s.resolve key detail).1.active.lookup key = none := by
  unfold resolve
  split
  · assumption
  · exact SortedMap.lookup_erase_self

/-- A sample concerns the alerts of its own rule keys. -/
theorem sameAbout_observeMetric (display : Display) {sample : MetricSample}
    (hnames : ¬ (sample.endpoint = endpoint ∧ sample.node = node))
    (hold : ∀ rule ∈ metricRules, ∀ old, s.active.lookup (ruleMetricKey rule sample) = some old →
      ¬ old.About endpoint node) :
    SameAbout s (s.observeMetric display sample).1 endpoint node := by
  unfold observeMetric
  split
  · exact fun _ _ _ => Iff.rfl
  · rename_i evaluation hevaluation
    obtain ⟨hrule, hkey, hendpoint, hnode⟩ := fromSample_snapshot display hevaluation
    have hkept := hold _ hrule
    rw [← hkey] at hkept
    split_ifs
    · refine sameAbout_fire ?_ hkept
      rwa [AlertSnapshot.About, hendpoint, hnode]
    · exact sameAbout_resolve hkept

end AlertStore

/-- Two samples that share the key of a rule are about the same node. -/
def Distinct (samples : MetricSample → Prop) : Prop :=
  ∀ a b, samples a → samples b → ∀ rule ∈ metricRules, ruleMetricKey rule a = ruleMetricKey rule b →
    a.endpoint = b.endpoint ∧ a.node = b.node

/-- Where an alert comes from. -/
inductive Comes (samples : MetricSample → Prop) (key : Str) (alert : AlertSnapshot) : Prop where
  | metric (sample : MetricSample) : samples sample → alert.ruleId ∈ metricRules →
      key = ruleMetricKey alert.ruleId sample → alert.endpoint = sample.endpoint →
      alert.node = sample.node → Comes samples key alert
  | receiver (listener : Str) : alert.ruleId = AlertStore.receiverErrorRule →
      key = AlertStore.receiverErrorKey listener → alert.About listener listener →
      Comes samples key alert
  | extension : alert.ruleId = AlertStore.extensionErrorRule →
      key = AlertStore.extensionErrorRule →
      alert.About "frontend".toList "extension-host".toList → Comes samples key alert

section Keys

variable {rule rule' : Str} {a b : MetricSample}

/-- The rules can be told apart by the beginnings of their keys. -/
theorem metricKey_take (h : rule ∈ metricRules) (sample : MetricSample) :
    (ruleMetricKey rule sample).take 8 = rule.take 8 := by
  have hlength : ∀ rule ∈ metricRules, 8 ≤ rule.length := by decide
  rw [ruleMetricKey, append_assoc]
  exact take_append_of_le_length (hlength rule h)

theorem metricKey_rule (h : rule ∈ metricRules) (h' : rule' ∈ metricRules)
    (hkey : ruleMetricKey rule a = ruleMetricKey rule' b) : rule = rule' := by
  have hapart : ∀ r ∈ metricRules, ∀ r' ∈ metricRules, r.take 8 = r'.take 8 → r = r' := by decide
  refine hapart rule h rule' h' ?_
  rw [← metricKey_take h a, hkey, metricKey_take h' b]

theorem receiverErrorKey_take (listener : Str) :
    (AlertStore.receiverErrorKey listener).take 8 = AlertStore.receiverErrorRule.take 8 :=
  take_append_of_le_length (by decide)

theorem metricKey_ne_receiver (h : rule ∈ metricRules) (sample : MetricSample) (listener : Str) :
    ruleMetricKey rule sample ≠ AlertStore.receiverErrorKey listener := by
  intro hkey
  have hapart : ∀ r ∈ metricRules, r.take 8 ≠ AlertStore.receiverErrorRule.take 8 := by decide
  exact hapart rule h (by rw [← metricKey_take h sample, hkey, receiverErrorKey_take])

theorem metricKey_ne_extension (h : rule ∈ metricRules) (sample : MetricSample) :
    ruleMetricKey rule sample ≠ AlertStore.extensionErrorRule := by
  intro hkey
  have hapart : ∀ r ∈ metricRules, r.take 8 ≠ AlertStore.extensionErrorRule.take 8 := by decide
  exact hapart rule h (by rw [← metricKey_take h sample, hkey])

theorem receiverErrorKey_injective {l l' : Str}
    (h : AlertStore.receiverErrorKey l = AlertStore.receiverErrorKey l') : l = l' :=
  (List.cons.inj (append_cancel_left h)).2

theorem receiverErrorKey_ne_extension (listener : Str) :
    AlertStore.receiverErrorKey listener ≠ AlertStore.extensionErrorRule := by
  intro hkey
  have hapart : AlertStore.receiverErrorRule.take 8 ≠ AlertStore.extensionErrorRule.take 8 := by
    decide
  exact hapart (by rw [← receiverErrorKey_take listener, hkey])

end Keys

namespace Comes

variable {samples : MetricSample → Prop} {alert : AlertSnapshot} {listener : Str}

theorem receiverKey (h : Comes samples (AlertStore.receiverErrorKey listener) alert) :
    alert.About listener listener := by
  cases h with
  | metric sample _ hrule hkey => exact absurd hkey.symm (metricKey_ne_receiver hrule sample listener)
  | receiver other _ hkey habout =>
    obtain rfl := receiverErrorKey_injective hkey
    exact habout
  | extension _ hkey => exact absurd hkey (receiverErrorKey_ne_extension listener)

theorem extensionKey (h : Comes samples AlertStore.extensionErrorRule alert) :
    alert.About "frontend".toList "extension-host".toList := by
  cases h with
  | metric sample _ hrule hkey => exact absurd hkey.symm (metricKey_ne_extension hrule sample)
  | receiver other _ hkey => exact absurd hkey.symm (receiverErrorKey_ne_extension other)
  | extension _ _ habout => exact habout

theorem metricKey (hdistinct : Distinct samples) {sample : MetricSample} (hsample : samples sample)
    {rule : Str} (hrule : rule ∈ metricRules) (h : Comes samples (ruleMetricKey rule sample) alert) :
    alert.About sample.endpoint sample.node := by
  cases h with
  | metric other hother hrule' hkey hendpoint hnode =>
    have hsame := metricKey_rule hrule hrule' hkey
    rw [← hsame] at hkey
    obtain ⟨he, hn⟩ := hdistinct sample other hsample hother rule hrule hkey
    exact ⟨hendpoint.trans he.symm, hnode.trans hn.symm⟩
  | receiver other _ hkey => exact absurd hkey (metricKey_ne_receiver hrule sample other)
  | extension _ hkey => exact absurd hkey (metricKey_ne_extension hrule sample)

end Comes

namespace DashboardState

variable {σ : Type} [StateStorage σ] (clock : ℕ → Reading) (display : Display)
  {samples : MetricSample → Prop} {s t : DashboardState σ} {a : Action} {key : Str}

/-- After a sample the row of its node has the severity of the alerts; other rows stay. -/
theorem enterSample_rows (s : DashboardState σ) (sample : MetricSample) :
    (∀ j ≠ edgeKey sample.endpoint sample.node,
      (enterSample clock display s sample).edgeDecorations.rows.lookup j =
        s.edgeDecorations.rows.lookup j) ∧
    ∃ d, (enterSample clock display s sample).edgeDecorations.rows.lookup
        (edgeKey sample.endpoint sample.node) = some d ∧
      d.severity = if s.alertsEnabled then
        (enterSample clock display s sample).alerts.highestForNode sample.endpoint sample.node
      else (s.edgeDecorations.rows.lookup (edgeKey sample.endpoint sample.node)).bind
        EdgeSignalDecoration.severity := by
  obtain ⟨d, hrows, hkept⟩ : ∃ d, (observeMetricSample clock s sample).edgeDecorations.rows =
      s.edgeDecorations.rows.insert (edgeKey sample.endpoint sample.node) d ∧
      d.severity = (s.edgeDecorations.rows.lookup (edgeKey sample.endpoint sample.node)).bind
        EdgeSignalDecoration.severity := by
    refine ⟨_, rfl, ?_⟩
    cases hold : s.edgeDecorations.rows.lookup (edgeKey sample.endpoint sample.node) with
    | none | some => simp only [NodeSummary.observeSample, hold]; rfl
  have hquiet := quiet_pushHistory (observeMetricSample clock s sample) sample
  have henabled : ((observeMetricSample clock s sample).pushHistory sample).alertsEnabled =
      s.alertsEnabled := hquiet.alertsEnabled
  unfold enterSample observeAlert
  rw [henabled]
  split_ifs
  · set applied := applyAlert clock ((observeMetricSample clock s sample).pushHistory sample) _
    have happlied : applied.edgeDecorations.rows =
        s.edgeDecorations.rows.insert (edgeKey sample.endpoint sample.node) d := by
      rw [applyAlert_edgeDecorations, hquiet.edgeDecorations, hrows]
    have hd : applied.edgeDecorations.rows.lookup (edgeKey sample.endpoint sample.node) = some d := by
      rw [happlied, SortedMap.lookup_insert_self]
    rw [updateEdgeAlertSeverity_of_some clock applied hd]
    refine ⟨fun j hj => ?_, _, SortedMap.lookup_insert_self, rfl⟩
    change (applied.edgeDecorations.rows.insert _ _).lookup j = _
    rw [SortedMap.lookup_insert_of_ne hj, happlied, SortedMap.lookup_insert_of_ne hj]
  · rw [hquiet.edgeDecorations, hrows]
    exact ⟨fun j hj => SortedMap.lookup_insert_of_ne hj, d, SortedMap.lookup_insert_self, hkept⟩

/-- The severity of every node is that of its alerts, and what keeps it so. -/
structure Agreed (samples : MetricSample → Prop) (s : DashboardState σ) : Prop where
  aligned : Aligned s.nodes s.edgeDecorations.rows
  severity : ∀ key node d, s.nodes.lookup key = some node →
    s.edgeDecorations.rows.lookup key = some d →
    d.severity = s.alerts.highestForNode node.endpoint node.node
  comes : ∀ key alert, s.alerts.active.lookup key = some alert → Comes samples key alert
  present : Present s
  receiver : ∀ listener, (s.alerts.active.lookup (AlertStore.receiverErrorKey listener)).isSome →
    ∀ key node, s.nodes.lookup key = some node →
      ¬ (node.endpoint = listener ∧ node.node = listener)
  off : s.alertsEnabled = false → s.alerts = .empty

/-- The node of this name is not there. -/
def Absent (s : DashboardState σ) (endpoint name : Str) : Prop :=
  ∀ key node, s.nodes.lookup key = some node → ¬ (node.endpoint = endpoint ∧ node.node = name)

/-- The condition on an action under which severities and alerts stay in step. -/
def Proper (samples : MetricSample → Prop) (s : DashboardState σ) : Action → Prop
  | .signal listener (.metrics request) =>
    ∀ sample ∈ metricSamples display request listener, samples sample
  | .error listener _ =>
    s.Absent (listener.getD "receiver".toList) (listener.getD "receiver".toList)
  | .extensionError _ => s.Absent "frontend".toList "extension-host".toList
  | .registerAgent endpoint node _ =>
    s.alerts.highestForNode (Text.trim endpoint) (registeredNode endpoint node) = none
  | .removeAgent key => s.Unalerted key
  | _ => True

/-- An alert that is resolved or fired about no node that is there leaves all in step. -/
theorem agreed_applyAlert (h : Agreed samples s) {outcome : AlertStore × Option AlertChange}
    (hsame : ∀ key node, s.nodes.lookup key = some node →
      s.alerts.SameAbout outcome.1 node.endpoint node.node)
    (hcomes : ∀ key alert, outcome.1.active.lookup key = some alert → Comes samples key alert)
    (hmetric : ∀ key alert, outcome.1.active.lookup key = some alert → alert.ruleId ∈ metricRules →
      s.alerts.active.lookup key = some alert)
    (hreceiver : ∀ listener,
      (outcome.1.active.lookup (AlertStore.receiverErrorKey listener)).isSome →
      (s.alerts.active.lookup (AlertStore.receiverErrorKey listener)).isSome ∨
        s.Absent listener listener)
    (hon : s.alertsEnabled = true) : Agreed samples (applyAlert clock s outcome) where
  aligned := by
    rw [applyAlert_nodes, applyAlert_edgeDecorations]
    exact h.aligned
  severity key node d := by
    rw [applyAlert_nodes, applyAlert_edgeDecorations, applyAlert_alerts]
    intro hnode hd
    rw [← (hsame key node hnode).highest]
    exact h.severity key node d hnode hd
  comes := by
    rw [applyAlert_alerts]
    exact hcomes
  present := by
    refine h.present.mono (fun k hk => ?_) fun k alert halert hrule => ?_
    · rwa [applyAlert_nodes]
    · rw [applyAlert_alerts] at halert
      exact hmetric k alert halert hrule
  receiver listener := by
    rw [applyAlert_nodes, applyAlert_alerts]
    intro hactive
    obtain hold | habsent := hreceiver listener hactive
    · exact h.receiver listener hold
    · exact habsent
  off hoff := by
    rw [applyAlert_alertsEnabled, hon] at hoff
    cases hoff

theorem agreed_recovered (h : Agreed samples s) (listener detail : Str)
    (hon : s.alertsEnabled = true) : Agreed samples (observeRecovered clock s listener detail) := by
  refine agreed_applyAlert clock h ?_ ?_ ?_ ?_ hon
  · intro key node hnode
    refine AlertStore.sameAbout_resolve fun old hold habout => ?_
    obtain ⟨hendpoint, hname⟩ := (h.comes _ old hold).receiverKey
    refine h.receiver listener (by rw [hold]; rfl) key node hnode ⟨?_, ?_⟩
    · rw [← habout.1, hendpoint]
    · rw [← habout.2, hname]
  · exact fun key alert halert => h.comes key alert (resolve_active halert)
  · exact fun key alert halert _ => resolve_active halert
  · intro other hactive
    obtain ⟨alert, halert⟩ := Option.isSome_iff_exists.mp hactive
    exact .inl (by rw [resolve_active halert]; rfl)

/-- An alert of no metric rule fires about a node that is not there. -/
theorem agreed_fired (h : Agreed samples s) {alert : AlertSnapshot}
    (hrule : alert.ruleId ∉ metricRules) (hcomes : Comes samples alert.key alert)
    (hkey : ∀ old, Comes samples alert.key old → old.About alert.endpoint alert.node)
    (habsent : s.Absent alert.endpoint alert.node)
    (hreceiver : ∀ listener, AlertStore.receiverErrorKey listener = alert.key →
      s.Absent listener listener)
    (hon : s.alertsEnabled = true) :
    Agreed samples (applyAlert clock s (s.alerts.fire alert)) := by
  refine agreed_applyAlert clock h ?_ ?_ ?_ ?_ hon
  · intro key node hnode
    have hother := habsent key node hnode
    refine AlertStore.sameAbout_fire (fun habout => hother ⟨habout.1.symm, habout.2.symm⟩) ?_
    intro old hold habout
    obtain ⟨hendpoint, hname⟩ := hkey old (h.comes _ old hold)
    exact hother ⟨by rw [← habout.1, hendpoint], by rw [← habout.2, hname]⟩
  · intro key found hfound
    obtain ⟨rfl, rfl⟩ | hold := fire_active hfound
    · exact hcomes
    · exact h.comes key found hold
  · intro key found hfound hmetric
    obtain ⟨rfl, rfl⟩ | hold := fire_active hfound
    · exact absurd hmetric hrule
    · exact hold
  · intro listener hactive
    obtain ⟨found, hfound⟩ := Option.isSome_iff_exists.mp hactive
    obtain ⟨hsame, _⟩ | hold := fire_active hfound
    · exact .inr (hreceiver listener hsame)
    · exact .inl (by rw [hold]; rfl)

/-- A node is stored with the severity it has kept. -/
theorem agreed_storeNode (h : Agreed samples s) {entry : NodeSummary}
    (hkey : key = edgeKey entry.endpoint entry.node) (lastSignal : Str)
    (hseverity : (s.edgeDecorations.rows.lookup key).bind EdgeSignalDecoration.severity =
      s.alerts.highestForNode entry.endpoint entry.node)
    (hreceiver : ∀ listener,
      (s.alerts.active.lookup (AlertStore.receiverErrorKey listener)).isSome →
        ¬ (entry.endpoint = listener ∧ entry.node = listener)) :
    Agreed samples (storeNode clock s key entry lastSignal) where
  aligned := aligned_change clock (.stored (a := .listening []) fun _ => hkey) h.aligned
  severity j node d hnode hd := by
    subst hkey
    by_cases hj : j = edgeKey entry.endpoint entry.node
    · subst hj
      change (s.nodes.insert _ entry).lookup _ = some node at hnode
      change (s.edgeDecorations.rows.insert _ _).lookup _ = some d at hd
      rw [SortedMap.lookup_insert_self] at hnode hd
      cases hnode
      cases hd
      change _ = s.alerts.highestForNode entry.endpoint entry.node
      rw [← hseverity]
      cases s.edgeDecorations.rows.lookup (edgeKey entry.endpoint entry.node) <;> rfl
    · change (s.nodes.insert _ entry).lookup _ = some node at hnode
      change (s.edgeDecorations.rows.insert _ _).lookup _ = some d at hd
      rw [SortedMap.lookup_insert_of_ne hj] at hnode hd
      exact h.severity j node d hnode hd
  comes := h.comes
  present := h.present.mono (fun _ hk => SortedMap.isSome_lookup_insert hk) fun _ _ halert _ => halert
  receiver listener hactive j node hnode := by
    obtain ⟨_, rfl⟩ | hold := SortedMap.lookup_insert_some hnode
    · exact hreceiver listener hactive
    · exact h.receiver listener hactive j node hold
  off := h.off

/-- A sample touches no alert about another node. -/
theorem enterSample_sameAbout (hdistinct : Distinct samples) (h : Agreed samples s)
    {sample : MetricSample} (hsample : samples sample) {endpoint node : Str}
    (hnames : ¬ (sample.endpoint = endpoint ∧ sample.node = node)) :
    s.alerts.SameAbout (enterSample clock display s sample).alerts endpoint node := by
  rw [(enterSample_fields clock display s sample).2.1]
  split_ifs
  · refine AlertStore.sameAbout_observeMetric display hnames fun rule hrule old hold habout => ?_
    obtain ⟨hendpoint, hnode⟩ := (h.comes _ old hold).metricKey hdistinct hsample hrule
    exact hnames ⟨by rw [← hendpoint, habout.1], by rw [← hnode, habout.2]⟩
  · exact fun _ _ _ => Iff.rfl

theorem enterSample_comes {sample : MetricSample} (hsample : samples sample) {alert : AlertSnapshot}
    (halert : (enterSample clock display s sample).alerts.active.lookup key = some alert) :
    s.alerts.active.lookup key = some alert ∨ Comes samples key alert ∧
      ∀ listener, key ≠ AlertStore.receiverErrorKey listener := by
  rw [(enterSample_fields clock display s sample).2.1] at halert
  split_ifs at halert
  · obtain hold | ⟨hrule, rfl, hendpoint, hnode⟩ := observeMetric_active display halert
    · exact .inl hold
    · exact .inr ⟨.metric sample hsample hrule rfl hendpoint hnode,
        metricKey_ne_receiver hrule sample⟩
  · exact .inl halert

omit [StateStorage σ] in
/-- Without alerts no severity is left. -/
theorem Agreed.unalarmed (h : Agreed samples s) (hoff : s.alertsEnabled = false) (key : Str) :
    (s.edgeDecorations.rows.lookup key).bind EdgeSignalDecoration.severity = none := by
  cases hd : s.edgeDecorations.rows.lookup key with
  | none => rfl
  | some d =>
    obtain ⟨node, hnode, _⟩ := h.aligned.of_row hd
    have hseverity := h.severity key node d hnode hd
    rw [h.off hoff] at hseverity
    exact hseverity

theorem agreed_enterSample (hdistinct : Distinct samples) (h : Agreed samples s)
    {sample : MetricSample} (hsample : samples sample)
    (hreceived : s.alerts.active.lookup (AlertStore.receiverErrorKey sample.endpoint) = none) :
    Agreed samples (enterSample clock display s sample) := by
  obtain ⟨hnodes, halerts, henabled, _⟩ := enterSample_fields clock display s sample
  obtain ⟨hothers, d, hd, hseverity⟩ := enterSample_rows clock display s sample
  refine ⟨aligned_changes clock (changes_enterSample (a := .listening []) clock display sample)
    h.aligned, ?_, ?_,
    present_enterSample clock display h.present sample, ?_, ?_⟩
  · intro j node found hnode hfound
    rw [hnodes] at hnode
    by_cases hj : j = edgeKey sample.endpoint sample.node
    · subst hj
      obtain rfl := Option.some.inj (SortedMap.lookup_insert_self.symm.trans hnode)
      obtain rfl := Option.some.inj (hd.symm.trans hfound)
      rw [hseverity]
      cases hon : s.alertsEnabled with
      | true => rfl
      | false =>
        rw [halerts, hon, if_neg (by simp), h.off hon]
        exact h.unalarmed hon _
    · replace hnode := (SortedMap.lookup_insert_of_ne hj).symm.trans hnode
      rw [hothers j hj] at hfound
      obtain ⟨_, _, hagrees⟩ := h.aligned.of_node hnode
      have hnames : ¬ (sample.endpoint = node.endpoint ∧ sample.node = node.node) := by
        rintro ⟨he, hn⟩
        exact hj (by rw [hagrees.nodeKey, he, hn])
      rw [← (enterSample_sameAbout clock display hdistinct h hsample hnames).highest]
      exact h.severity j node found hnode hfound
  · intro key alert halert
    obtain hold | ⟨hcomes, _⟩ := enterSample_comes clock display hsample halert
    · exact h.comes key alert hold
    · exact hcomes
  · intro listener hactive j node hnode
    obtain ⟨alert, halert⟩ := Option.isSome_iff_exists.mp hactive
    obtain hold | ⟨_, hne⟩ := enterSample_comes clock display hsample halert
    · rw [hnodes] at hnode
      obtain ⟨_, rfl⟩ | hnode := SortedMap.lookup_insert_some hnode
      · rintro ⟨rfl, _⟩
        exact absurd (hreceived.symm.trans hold) nofun
      · exact h.receiver listener (by rw [hold]; rfl) j node hnode
    · exact absurd rfl (hne listener)
  · intro hoff
    rw [henabled] at hoff
    rw [halerts, hoff]
    exact h.off hoff

omit [StateStorage σ] in
/-- A listener without a node and without an error has no alert under its name. -/
theorem Agreed.listener_unalerted (h : Agreed samples s) {listener : Str}
    (hnode : s.nodes.lookup (edgeKey listener listener) = none)
    (hreceived : s.alerts.active.lookup (AlertStore.receiverErrorKey listener) = none) :
    s.alerts.highestForNode listener listener = none := by
  refine AlertStore.highest_eq_none.mpr fun key alert halert habout => ?_
  cases h.comes key alert halert with
  | metric _ _ hrule =>
    have hpresent := h.present key alert halert hrule
    rw [habout.1, habout.2, hnode] at hpresent
    cases hpresent
  | receiver other _ hkey hother =>
    obtain rfl : other = listener := hother.1.symm.trans habout.1
    rw [hkey, hreceived] at halert
    cases halert
  | extension _ _ hother =>
    have hsame : "frontend".toList = "extension-host".toList := by
      rw [← hother.1, habout.1, ← habout.2, hother.2]
    exact absurd hsame (by decide)

theorem agreed_observeSignalItems (h : Agreed samples s) {listener : Str}
    (hreceived : s.alerts.active.lookup (AlertStore.receiverErrorKey listener) = none)
    (kind : ItemKind) (count : ℕ) :
    Agreed samples (observeSignalItems clock s listener kind count) := by
  have hticked : Agreed samples { s with ticks := s.ticks + 1 } :=
    ⟨h.aligned, h.severity, h.comes, h.present, h.receiver, h.off⟩
  unfold observeSignalItems
  dsimp only
  cases hnode : s.nodes.lookup (edgeKey listener listener) with
  | none =>
    refine agreed_storeNode clock hticked ?_ _ ?_ ?_
    · rfl
    · have hquiet := h.listener_unalerted hnode hreceived
      simp only [h.aligned.row_none hnode, Option.getD_none, Option.bind_none]
      exact hquiet.symm
    · rintro other hactive ⟨rfl, _⟩
      rw [Option.isSome_iff_ne_none] at hactive
      exact hactive hreceived
  | some node =>
    obtain ⟨d, hd, hagrees⟩ := h.aligned.of_node hnode
    refine agreed_storeNode clock hticked ?_ _ ?_ ?_
    · exact hagrees.nodeKey
    · simp only [hd, Option.getD_some, Option.bind_some]
      exact h.severity _ node d hnode hd
    · exact fun other hactive => h.receiver other hactive _ node hnode

theorem agreed_registered (h : Agreed samples s) {endpoint node label : Str} {now : Reading}
    (hnone : s.nodes.lookup (edgeKey endpoint node) = none)
    (hquiet : s.alerts.highestForNode endpoint node = none) (lastSignal : Str) :
    Agreed samples (storeNode clock s (edgeKey endpoint node) (manualNode endpoint node label now)
      lastSignal) := by
  refine agreed_storeNode clock h ?_ lastSignal ?_ ?_
  · rfl
  · rw [h.aligned.row_none hnone]
    exact hquiet.symm
  · rintro listener hactive ⟨hendpoint, hname⟩
    obtain rfl : endpoint = listener := hendpoint
    obtain rfl : node = endpoint := hname
    obtain ⟨alert, halert⟩ := Option.isSome_iff_exists.mp hactive
    exact AlertStore.highest_eq_none.mp hquiet _ alert halert (h.comes _ alert halert).receiverKey

theorem agreed_forgetNode (h : Agreed samples s) (hnone : s.Unalerted key) :
    Agreed samples (forgetNode s key) where
  aligned := aligned_erase h.aligned key
  severity j node d hnode hd :=
    h.severity j node d (SortedMap.lookup_erase_some hnode).2 (SortedMap.lookup_erase_some hd).2
  comes := h.comes
  present k alert halert hrule := by
    have hstays := SortedMap.lookup_erase_of_ne (m := s.nodes) (hnone k alert halert hrule)
    exact hstays ▸ h.present k alert halert hrule
  receiver listener hactive j node hnode :=
    h.receiver listener hactive j node (SortedMap.lookup_erase_some hnode).2
  off := h.off

/-- Each row is cleared when its turn comes. -/
theorem clearSeverities_rows (keys : List Str) {s : DashboardState σ} {d : EdgeSignalDecoration}
    (h : (keys.foldl (clearSeverity clock) s).edgeDecorations.rows.lookup key = some d) :
    d.severity = none ∨ key ∉ keys ∧ s.edgeDecorations.rows.lookup key = some d := by
  induction keys generalizing s with
  | nil => exact .inr ⟨not_mem_nil, h⟩
  | cons k keys ih =>
    obtain hnone | ⟨hkey, hrow⟩ := ih h
    · exact .inl hnone
    · obtain ⟨heq, hclear⟩ | ⟨found, hfound, heq⟩ := clearSeverity_cases clock s k
      · rw [heq] at hrow
        by_cases hk : key = k
        · subst hk
          exact .inl (hclear d hrow)
        · exact .inr ⟨by simp [hk, hkey], hrow⟩
      · rw [heq] at hrow
        by_cases hk : key = k
        · obtain rfl := Option.some.inj (SortedMap.lookup_insert_self.symm.trans (hk ▸ hrow))
          exact .inl rfl
        · exact .inr ⟨by simp [hk, hkey], (SortedMap.lookup_insert_of_ne hk).symm.trans hrow⟩

theorem agreed_dropAlerts (h : Aligned s.nodes s.edgeDecorations.rows) :
    Agreed samples (dropAlerts clock s) := by
  have hdecorates := decorates_clearSeverities clock s.edgeDecorations.keys
    { s with alertsEnabled := false, alerts := s.alerts.clear }
  have halerts : (dropAlerts clock s).alerts = .empty := hdecorates.alerts
  refine ⟨?_, ?_, ?_, ?_, ?_, fun _ => halerts⟩
  · exact aligned_changes clock (.head (.dropped rfl) (changes_clearSeverities clock _)) h
  · intro key node d _ hd
    rw [halerts]
    obtain hnone | ⟨hkey, hrow⟩ := clearSeverities_rows clock s.edgeDecorations.keys hd
    · exact hnone
    · exact absurd (mem_map_of_mem (SortedMap.mem_entries.mpr hrow)) hkey
  · intro key alert halert
    rw [halerts] at halert
    cases halert
  · intro key alert halert
    rw [halerts] at halert
    cases halert
  · intro listener hactive
    rw [halerts] at hactive
    cases hactive

omit [StateStorage σ] in
theorem proper_signal {listener : Str} {signal : Signal} (u : DashboardState σ)
    (h : Proper display samples s (.signal listener signal)) :
    Proper display samples u (.signal listener signal) := by
  cases signal <;> exact h

theorem proper_part (hpart : Part clock display a s t) (h : Proper display samples s a) :
    Proper display samples t a := by
  cases hpart with
  | quiet hquiet =>
    cases a with
    | signal listener signal => exact proper_signal display t h
    | error | extensionError =>
      intro key node hnode
      exact h key node (hquiet.nodes ▸ hnode)
    | registerAgent endpoint node service =>
      rw [Proper, hquiet.alerts]
      exact h
    | removeAgent key =>
      intro k alert halert
      exact h k alert (hquiet.alerts ▸ halert)
    | listening | setAlertsEnabled => trivial
  | counted => exact proper_signal display _ h
  | sample _ => exact h
  | items | received => exact proper_signal display _ h
  | listening _ _ => trivial
  | error | extensionError =>
    intro key node hnode
    rw [applyAlert_nodes] at hnode
    exact h key node hnode
  | registered | removed => exact h
  | enabled | disabled => trivial

omit [StateStorage σ] in
theorem Quiet.agreed (hquiet : Quiet s t) (h : Agreed samples s) : Agreed samples t := by
  obtain ⟨_, hnodes, hrows, halerts, henabled, _⟩ := hquiet
  refine ⟨?_, ?_, ?_, ?_, ?_, ?_⟩
  · rw [hnodes, hrows]
    exact h.aligned
  · rw [hnodes, hrows, halerts]
    exact h.severity
  · rw [halerts]
    exact h.comes
  · intro key alert
    rw [halerts, hnodes]
    exact h.present key alert
  · rw [halerts, hnodes]
    exact h.receiver
  · rw [halerts, henabled]
    exact h.off

/-- In step, and no error of this listener is active. -/
def AgreedWith (samples : MetricSample → Prop) (listener : Str) (s : DashboardState σ) : Prop :=
  Agreed samples s ∧ s.alerts.active.lookup (AlertStore.receiverErrorKey listener) = none

/-- A signal has first resolved the error of its listener. -/
theorem agreed_signal_part (hdistinct : Distinct samples) {listener : Str} {signal : Signal}
    (hpart : Part clock display (.signal listener signal) s t)
    (hproper : Proper display samples s (.signal listener signal))
    (h : AgreedWith samples listener s) : AgreedWith samples listener t := by
  obtain ⟨hagreed, hnone⟩ := h
  cases hpart with
  | quiet hquiet => exact ⟨hquiet.agreed hagreed, hquiet.alerts ▸ hnone⟩
  | counted =>
    refine ⟨?_, hnone⟩
    exact ⟨hagreed.aligned, hagreed.severity, hagreed.comes, hagreed.present, hagreed.receiver,
      hagreed.off⟩
  | sample hsample =>
    have hlistener := (exists_trendKey hsample).1
    have hproper := hproper _ hsample
    refine ⟨agreed_enterSample clock display hdistinct hagreed hproper (hlistener ▸ hnone), ?_⟩
    refine Option.eq_none_iff_forall_ne_some.mpr fun alert halert => ?_
    obtain hold | ⟨_, hne⟩ := enterSample_comes clock display hproper halert
    · exact absurd (hnone.symm.trans hold) nofun
    · exact hne listener rfl
  | items => exact ⟨agreed_observeSignalItems clock hagreed hnone _ _, hnone⟩
  | received hon =>
    refine ⟨agreed_recovered clock hagreed listener _ hon, ?_⟩
    rw [observeRecovered, applyAlert_alerts]
    exact Option.eq_none_iff_forall_ne_some.mpr fun alert halert =>
      absurd (hnone.symm.trans (resolve_active halert)) nofun

theorem agreed_observeSignalMessage (hdistinct : Distinct samples) {listener : Str}
    {signal : Signal} (hproper : Proper display samples s (.signal listener signal))
    (h : Agreed samples s) :
    Agreed samples (observeSignalMessage clock display s listener signal) := by
  obtain ⟨t, hquiet, heq⟩ := observeSignalMessage_eq clock display (s := s) listener signal
  have hagreed := hquiet.agreed h
  rw [heq]
  refine (parts_invariant clock display (fun v w hpart hv => agreed_signal_part clock display
    hdistinct hpart (proper_signal display v hproper) hv)
    (parts_ingestSignal clock display listener signal) ?_).1
  split_ifs with hon
  · refine ⟨agreed_recovered clock hagreed listener _ hon, ?_⟩
    rw [observeRecovered, applyAlert_alerts]
    exact AlertStore.resolve_lookup
  · refine ⟨hagreed, ?_⟩
    rw [hagreed.off (by simpa using hon)]
    rfl

/-- Of the other actions, each part leaves severities and alerts in step. -/
theorem agreed_part (hpart : Part clock display a s t) (ha : ∀ listener signal,
      a ≠ .signal listener signal)
    (hproper : Proper display samples s a) (h : Agreed samples s) : Agreed samples t := by
  cases hpart with
  | quiet hquiet => exact hquiet.agreed h
  | counted | sample | items | received => exact absurd rfl (ha _ _)
  | listening _ hon => exact agreed_recovered clock h _ _ hon
  | error hon =>
    refine agreed_fired clock h receiverErrorRule_not_metric (.receiver _ rfl rfl ⟨rfl, rfl⟩)
      (fun old hold => hold.receiverKey) hproper (fun listener hkey => ?_) hon
    rw [receiverErrorKey_injective hkey]
    exact hproper
  | extensionError hon =>
    exact agreed_fired clock h extensionErrorRule_not_metric (.extension rfl rfl ⟨rfl, rfl⟩)
      (fun old hold => hold.extensionKey) hproper
      (fun listener hkey => absurd hkey (receiverErrorKey_ne_extension listener)) hon
  | registered hnone => exact agreed_registered clock h hnone hproper _
  | removed _ => exact agreed_forgetNode h hproper
  | enabled hoff =>
    exact ⟨h.aligned, h.severity, h.comes, h.present, h.receiver, nofun⟩
  | disabled _ => exact agreed_dropAlerts clock h.aligned

/-- A proper action leaves severities and alerts in step. -/
theorem agreed_act (hdistinct : Distinct samples) (hproper : Proper display samples s a)
    (h : Agreed samples s) : Agreed samples (act clock display s a) := by
  by_cases ha : ∃ listener signal, a = .signal listener signal
  · obtain ⟨listener, signal, rfl⟩ := ha
    exact agreed_observeSignalMessage clock display hdistinct hproper h
  · have hother : ∀ listener signal, a ≠ .signal listener signal := fun listener signal heq =>
      ha ⟨listener, signal, heq⟩
    refine (act_invariant (I := fun s => Proper display samples s a ∧ Agreed samples s) clock display
      (fun t u hpart ht => ?_) ⟨hproper, h⟩).2
    exact ⟨proper_part clock display hpart ht.1, agreed_part clock display hpart hother ht.1 ht.2⟩

end DashboardState

namespace Desktop

variable (clock : ℕ → Reading) (display : Display) {samples : MetricSample → Prop}
  {d d' : Desktop} {event : DesktopEvent}

/-- The condition on an event: proper actions, and no severity found at a start. -/
def Proper (samples : MetricSample → Prop) (d : Desktop) : DesktopEvent → Prop
  | .act action => d.dashboard.Proper display samples action
  | .restart (.ready rows _) => ∀ e ∈ StateDb.loadEdgeStates rows, e.severity = none
  | _ => True

theorem agreed_started (h : Kept d) {start : Start}
    (hstart : started clock d.db d.dashboard.ticks start = some d')
    (hproper : Proper display samples d (.restart start)) :
    d'.dashboard.Agreed samples := by
  have haligned := (kept_started clock h.rows hstart).dashboard.aligned
  cases start with
  | ready rows message =>
    obtain ⟨_, rfl⟩ := started_ready hstart
    refine ⟨haligned, ?_, nofun, nofun, nofun, fun _ => rfl⟩
    intro key node row _ hrow
    obtain hold | ⟨state, hstate, now', rfl⟩ := restore_rows hrow
    · cases hold
    · exact hproper state hstate
  | disabled message =>
    cases hstart
    exact ⟨haligned, nofun, nofun, nofun, nofun, fun _ => rfl⟩

theorem agreed_step (hdistinct : Distinct samples) (hkept : Kept d)
    (h : d.dashboard.Agreed samples) (hproper : Proper display samples d event)
    (hstep : step clock display d event = some d') : d'.dashboard.Agreed samples := by
  cases event with
  | act action =>
    cases hstep
    exact DashboardState.agreed_act clock display hdistinct hproper h
  | handle outcome =>
    obtain ⟨command, queue, _, rfl⟩ := step_handle hstep
    exact ⟨h.aligned, h.severity, h.comes, h.present, h.receiver, h.off⟩
  | restart start => exact agreed_started clock display hkept hstep hproper

/-- The samples of all metrics in a list of events. -/
def SampleOf (events : List DesktopEvent) (sample : MetricSample) : Prop :=
  ∃ listener request, .act (.signal listener (.metrics request)) ∈ events ∧
    sample ∈ metricSamples display request listener

/-- On whatever an earlier run left, as long as a start finds no severity, no error comes from a
node, no node is registered or removed with an alert about it, and no two nodes share an alert key,
every node has the severity of its alerts. -/
theorem severity_agrees {start : Start} {events : List DesktopEvent}
    (hprior : Reachable clock display d)
    (hrun : run clock display d (.restart start :: events) = some d')
    (hdistinct : Distinct (SampleOf display events))
    (hmeets : Runs.Meets (step clock display) (Proper display (SampleOf display events)) d
      (.restart start :: events)) :
    ∀ node ∈ d'.dashboard.nodes.values, d'.dashboard.nodeSeverity node =
      d'.dashboard.alerts.highestForNode node.endpoint node.node := by
  obtain ⟨u, hstart, hrest⟩ := Runs.run_cons.mp hrun
  obtain ⟨hproper, hmeets⟩ := (Runs.meets_cons hstart).mp hmeets
  have hkept := kept_reachable clock display hprior
  have hfirst := agreed_started clock display hkept hstart hproper
  have hlast := Runs.run_meets
    (I := fun d => Kept d ∧ d.dashboard.Agreed (SampleOf display events))
    (fun s a t hs ha ht => ⟨kept_step clock display hs.1 ht,
      agreed_step clock display hdistinct hs.1 hs.2 ha ht⟩)
    hmeets hrest ⟨kept_step clock display hkept hstart, hfirst⟩
  intro node hnode
  obtain ⟨key, hkey⟩ := SortedMap.mem_values.mp hnode
  obtain ⟨row, hrow, hagrees⟩ := hlast.2.aligned.of_node hkey
  have hseverity := hlast.2.severity key node row hkey hrow
  rw [hagrees.nodeKey] at hrow
  rw [DashboardState.nodeSeverity, EdgeSignalDecorations.get, hrow]
  exact hseverity

theorem severity_agrees_sample :
    (run stoppedClock plainDisplay freshDesktop [.restart (.ready [] []), hotEvent]).map
      (fun d => d.dashboard.nodes.values.map fun node => (d.dashboard.nodeSeverity node,
        d.dashboard.alerts.highestForNode node.endpoint node.node)) =
      some [(some .warning, some .warning)] ∧
    ∀ d', run stoppedClock plainDisplay freshDesktop [.restart (.ready [] []), hotEvent] = some d' →
      ∀ node ∈ d'.dashboard.nodes.values, d'.dashboard.nodeSeverity node =
        d'.dashboard.alerts.highestForNode node.endpoint node.node := by
  refine ⟨by decide +kernel, fun d' hrun => ?_⟩
  have hprior : Reachable stoppedClock plainDisplay freshDesktop :=
    ⟨freshDesktop, [], ⟨.ready [] [], rfl⟩, rfl⟩
  have honly : ∀ sample, SampleOf plainDisplay [hotEvent] sample →
      sample ∈ metricSamples plainDisplay hotRequest ['a'] := by
    rintro sample ⟨listener, request, hmem, hsample⟩
    obtain ⟨⟩ := mem_singleton.mp hmem
    exact hsample
  refine severity_agrees stoppedClock plainDisplay hprior hrun ?_ ?_
  · intro a b ha hb _ _ _
    have hsame : ∀ a ∈ metricSamples plainDisplay hotRequest ['a'],
        a.endpoint = ['a'] ∧ a.node = metricUnknownSource ++ ['@', 'a'] := by decide
    obtain ⟨he, hn⟩ := hsame a (honly a ha)
    obtain ⟨he', hn'⟩ := hsame b (honly b hb)
    exact ⟨he.trans he'.symm, hn.trans hn'.symm⟩
  · refine (Runs.meets_cons rfl).mpr ⟨nofun, (Runs.meets_cons rfl).mpr ⟨?_, Runs.meets_nil⟩⟩
    exact fun sample hsample => ⟨['a'], _, mem_singleton_self _, hsample⟩

/-- A severity that was stored outlives the alert it came from, and the error of a listener does
not reach the node of that name. -/
theorem severity_goes_stale :
    (∃ rows, (run stoppedClock plainDisplay freshDesktop [hotEvent, .handle .written,
        .handle .written, .handle .written, .restart (.ready rows [])]).map
      (fun d => (d.dashboard.alertsEnabled, d.dashboard.nodes.values.map fun node =>
        (d.dashboard.nodeSeverity node,
          d.dashboard.alerts.highestForNode node.endpoint node.node))) =
      some (true, [(some .warning, none)])) ∧
    (run stoppedClock plainDisplay freshDesktop [.act (.registerAgent ['a'] [] []),
        .act (.error (some ['a']) [])]).map
      (fun d => (d.dashboard.alertsEnabled, d.dashboard.nodes.values.map fun node =>
        (d.dashboard.nodeSeverity node,
          d.dashboard.alerts.highestForNode node.endpoint node.node))) =
      some (true, [(none, some .critical)]) := by
  refine ⟨⟨((run stoppedClock plainDisplay freshDesktop [hotEvent, .handle .written,
    .handle .written, .handle .written]).map (·.db.edgeState.values)).getD [], ?_⟩, ?_⟩
  · decide +kernel
  · decide +kernel

end Desktop

end SkidMonitor.Client
