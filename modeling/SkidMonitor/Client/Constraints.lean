import SkidMonitor.Client.VrmHumanoid
import SkidMonitor.Lib.Ancestry
import SkidMonitor.Lib.Float64
import SkidMonitor.Lib.Toposort

/-! The node constraints of a VRM model and the order they are applied in. -/
namespace SkidMonitor.Client.Vrm

open Fallible Relation Ancestry List

/-- `T` is the type of the transforms of the nodes. -/
structure CpuNode (T : Type) where
  rest : T
  parent : Option ℕ
  active : Bool

/-- `V` is the type of the axes. -/
inductive ConstraintKind (V : Type) where
  | rotation
  | roll (axis : V)
  | aim (axis : V)

structure CpuNodeConstraint (V : Type) where
  destination : ℕ
  source : ℕ
  weight : F32
  kind : ConstraintKind V

section Definitions

variable {T V : Type} (nodes : List (CpuNode T)) (constraints : List (CpuNodeConstraint V))

/-- The climb from a node to its ancestors, so many rounds long. -/
def climb (ancestor : ℕ) : ℕ → Option ℕ → LoadM Bool
  | 0, _ => .ok false
  | _ + 1, none => .ok false
  | rounds + 1, some node =>
    if node = ancestor then .ok true
    else match nodes[node]? with
      | none => .error .outOfBounds
      | some entry => climb ancestor rounds entry.parent

def isDescendant (ancestor descendant : ℕ) : LoadM Bool :=
  climb nodes ancestor nodes.length (some descendant)

def isStrictAncestor (ancestor descendant : ℕ) : LoadM Bool :=
  if ancestor = descendant then .ok false else isDescendant nodes ancestor descendant

/-- The map from the destinations to the constraints. -/
def byDestination : AList fun _ : ℕ => ℕ :=
  Table.collect (constraints.zipIdx.map fun (constraint, index) => (constraint.destination, index))

def pushAbove (index : ℕ) (constraint : CpuNodeConstraint V) (dependencies : List ℕ)
    (entry : CpuNodeConstraint V × ℕ) : LoadM (List ℕ) :=
  if entry.2 = index then .ok dependencies
  else do
    let above ← isStrictAncestor nodes entry.1.destination constraint.source <||>
      isStrictAncestor nodes entry.1.destination constraint.destination
    return if above then dependencies ++ [entry.2] else dependencies

def aimDependencies (index : ℕ) (constraint : CpuNodeConstraint V) : LoadM (List ℕ) :=
  constraints.zipIdx.foldlM (pushAbove nodes index constraint) []

def foundDependencies (index : ℕ) (constraint : CpuNodeConstraint V) : LoadM (List ℕ) :=
  match constraint.kind with
  | .rotation | .roll _ => .ok ((byDestination constraints).lookup constraint.source).toList
  | .aim _ => aimDependencies nodes constraints index constraint

def dependencies (index : ℕ) : LoadM (List ℕ) :=
  match constraints[index]? with
  | none => .error .outOfBounds
  | some constraint => do
    let dependencies ← foundDependencies nodes constraints index constraint
    return (dependencies.insertionSort (· ≤ ·)).destutter (· ≠ ·)

def constraintFailures : Toposort.Failures LoadError where
  cycle := .failed "VRM node constraints contain a circular dependency"
  missing := .outOfBounds
  unfinished := .unfinished

def orderConstraints : LoadM (List (CpuNodeConstraint V)) :=
  (Toposort.sort constraintFailures (dependencies nodes constraints) constraints.length).map
    fun indices => indices.filterMap fun index => constraints[index]?

end Definitions

section Ancestors

variable {T : Type} {nodes : List (CpuNode T)} {ancestor descendant : ℕ}

def parentOf (nodes : List (CpuNode T)) (node : ℕ) : Option ℕ := nodes[node]?.bind CpuNode.parent

/-- The parents of the nodes are nodes, and no node is its own ancestor. -/
structure Hierarchy (nodes : List (CpuNode T)) : Prop where
  parent : ∀ child parent, parentOf nodes child = some parent → parent < nodes.length
  acyclic : Acyclic (parentOf nodes)

theorem climb_eq (h : Hierarchy nodes) {rounds : ℕ} {start : Option ℕ}
    (hstart : ∀ node, start = some node → node < nodes.length) :
    climb nodes ancestor rounds start =
      .ok (decide (ancestor ∈ chain (parentOf nodes) rounds start)) := by
  induction rounds generalizing start with
  | zero => rfl
  | succ rounds ih =>
    cases start with
    | none => rfl
    | some node =>
      obtain ⟨entry, hentry⟩ : ∃ entry, nodes[node]? = some entry :=
        ⟨_, getElem?_eq_getElem (hstart node rfl)⟩
      have hparent : parentOf nodes node = entry.parent := by
        rw [parentOf, hentry]
        rfl
      rw [climb, chain]
      split_ifs with heq
      · simp [heq]
      · rw [hentry]
        dsimp only
        rw [← hparent, ih (h.parent node)]
        simp [Ne.symm heq]

theorem isStrictAncestor_eq (h : Hierarchy nodes) (ancestor : ℕ)
    (hlt : descendant < nodes.length) :
    ∃ above, isStrictAncestor nodes ancestor descendant = .ok above ∧
      (above = true ↔ TransGen (Parent (parentOf nodes)) descendant ancestor) := by
  have hmem := mem_chain_iff h.acyclic h.parent hlt (b := ancestor)
  rw [isStrictAncestor]
  split_ifs with heq
  · subst heq
    exact ⟨false, rfl, by simpa using h.acyclic ancestor⟩
  · refine ⟨_, climb_eq h (by simpa using hlt), ?_⟩
    rw [decide_eq_true_iff, hmem, reflTransGen_iff_eq_or_transGen]
    exact or_iff_right heq

end Ancestors

section Reading

variable {T V : Type} {nodes : List (CpuNode T)} {constraints : List (CpuNodeConstraint V)}
  {constraint : CpuNodeConstraint V} {index dependency : ℕ}

/-- The nodes whose rotations a constraint reads. An aim looks at places in the world, which the
rotations above its two nodes decide on. -/
def Reads (nodes : List (CpuNode T)) (constraint : CpuNodeConstraint V) (node : ℕ) : Prop :=
  match constraint.kind with
  | .rotation | .roll _ => node = constraint.source
  | .aim _ => TransGen (Parent (parentOf nodes)) constraint.source node ∨
      TransGen (Parent (parentOf nodes)) constraint.destination node

/-- Two different constraints, the first of which reads the rotation that the second one writes,
that of its destination. -/
def ReadsFrom (nodes : List (CpuNode T)) (constraints : List (CpuNodeConstraint V))
    (index dependency : ℕ) : Prop :=
  dependency ≠ index ∧ ∃ first second, constraints[index]? = some first ∧
    constraints[dependency]? = some second ∧ Reads nodes first second.destination

/-- The constraints are about nodes, no two write to one node, and none reads what it writes. -/
structure Constrained (nodes : List (CpuNode T)) (constraints : List (CpuNodeConstraint V)) :
    Prop where
  index : ∀ c ∈ constraints, c.source < nodes.length ∧ c.destination < nodes.length
  destinations : (constraints.map CpuNodeConstraint.destination).Nodup
  source : ∀ c ∈ constraints, c.source ≠ c.destination

theorem lookup_byDestination (h : (constraints.map CpuNodeConstraint.destination).Nodup)
    {node : ℕ} : (byDestination constraints).lookup node = some dependency ↔
      ∃ c, constraints[dependency]? = some c ∧ node = c.destination := by
  have hmem : ∀ index, (node, index) ∈ (constraints.zipIdx.map fun (constraint, index) =>
      (constraint.destination, index)) ↔
      ∃ c, constraints[index]? = some c ∧ node = c.destination := by
    intro index
    rw [mem_map]
    constructor
    · rintro ⟨⟨c, i⟩, hc, heq⟩
      cases heq
      exact ⟨c, mem_zipIdx_iff_getElem?.mp hc, rfl⟩
    · rintro ⟨c, hc, rfl⟩
      exact ⟨(c, index), mem_zipIdx_iff_getElem?.mpr hc, rfl⟩
  constructor
  · exact fun hlookup => (hmem dependency).mp (Table.mem_of_lookup_collect hlookup)
  · rintro ⟨c, hc, rfl⟩
    obtain ⟨other, hother⟩ := Table.lookup_collect_of_mem ((hmem dependency).mpr ⟨c, hc, rfl⟩)
    obtain ⟨c', hc', heq⟩ := (hmem other).mp (Table.mem_of_lookup_collect hother)
    have hsame : dependency = other := by
      have hdest : (constraints.map CpuNodeConstraint.destination)[dependency]? =
          (constraints.map CpuNodeConstraint.destination)[other]? := by
        rw [getElem?_map, getElem?_map, hc, hc', Option.map_some, Option.map_some, heq]
      exact (getElem?_inj (by simpa using (List.getElem?_eq_some_iff.mp hc).1) h).mp hdest
    rw [hsame]
    exact hother

theorem pushAbove_eq (hnodes : Hierarchy nodes) (h : Constrained nodes constraints)
    (hmem : constraint ∈ constraints) {axis : V} (hkind : constraint.kind = .aim axis)
    (found : List ℕ) (entry : CpuNodeConstraint V × ℕ)
    [Decidable (entry.2 ≠ index ∧ Reads nodes constraint entry.1.destination)] :
    pushAbove nodes index constraint found entry =
      .ok (if decide (entry.2 ≠ index ∧ Reads nodes constraint entry.1.destination) then
        found ++ [entry.2] else found) := by
  obtain ⟨hsource, hdestination⟩ := h.index constraint hmem
  obtain ⟨above, habove, hiff⟩ := isStrictAncestor_eq hnodes entry.1.destination hsource
  obtain ⟨above', habove', hiff'⟩ := isStrictAncestor_eq hnodes entry.1.destination hdestination
  rw [pushAbove, habove, habove']
  simp only [Reads, hkind, ← hiff, ← hiff']
  by_cases heq : entry.2 = index
  · simp [heq]
  · cases above <;> cases above' <;> simp [heq] <;> rfl

theorem aimDependencies_spec (hnodes : Hierarchy nodes) (h : Constrained nodes constraints)
    (hmem : constraint ∈ constraints) {axis : V} (hkind : constraint.kind = .aim axis)
    (index : ℕ) :
    ∃ found, aimDependencies nodes constraints index constraint = .ok found ∧
      ∀ dependency, dependency ∈ found ↔ dependency ≠ index ∧
        ∃ c, constraints[dependency]? = some c ∧ Reads nodes constraint c.destination := by
  classical
  refine ⟨_, foldlM_push (fun entry _ found => pushAbove_eq hnodes h hmem hkind found entry) [], ?_⟩
  intro dependency
  simp only [nil_append, mem_map, mem_filter, decide_eq_true_iff]
  constructor
  · rintro ⟨⟨c, i⟩, ⟨hc, hne, hreads⟩, rfl⟩
    exact ⟨hne, c, mem_zipIdx_iff_getElem?.mp hc, hreads⟩
  · rintro ⟨hne, c, hc, hreads⟩
    exact ⟨(c, dependency), ⟨mem_zipIdx_iff_getElem?.mpr hc, hne, hreads⟩, rfl⟩

theorem foundDependencies_spec (hnodes : Hierarchy nodes) (h : Constrained nodes constraints)
    (hconstraint : constraints[index]? = some constraint) :
    ∃ found, foundDependencies nodes constraints index constraint = .ok found ∧
      ∀ dependency, dependency ∈ found ↔ dependency ≠ index ∧
        ∃ c, constraints[dependency]? = some c ∧ Reads nodes constraint c.destination := by
  have hmem := mem_of_getElem? hconstraint
  have hdirect : (∀ node, Reads nodes constraint node ↔ node = constraint.source) →
      ∀ dependency, dependency ∈ ((byDestination constraints).lookup constraint.source).toList ↔
        dependency ≠ index ∧
          ∃ c, constraints[dependency]? = some c ∧ Reads nodes constraint c.destination := by
    intro hreads dependency
    rw [Option.mem_toList, lookup_byDestination h.destinations]
    simp only [hreads, eq_comm (b := constraint.source), iff_and_self]
    rintro ⟨c, hc, hsource⟩ rfl
    obtain rfl := Option.some.inj (hc.symm.trans hconstraint)
    exact h.source c hmem hsource
  cases hkind : constraint.kind with
  | rotation | roll =>
    refine ⟨_, by rw [foundDependencies, hkind], hdirect fun node => ?_⟩
    simp only [Reads, hkind]
  | aim axis =>
    rw [foundDependencies, hkind]
    exact aimDependencies_spec hnodes h hmem hkind index

theorem mem_destutter'_ne {l : List ℕ} {a b : ℕ} (h : a ∈ b :: l) :
    a ∈ l.destutter' (· ≠ ·) b := by
  induction l generalizing b with
  | nil => exact h
  | cons c l ih =>
    rw [List.destutter'_cons]
    split_ifs with hne
    · rcases mem_cons.mp h with rfl | h
      · exact mem_cons_self
      · exact mem_cons_of_mem b (ih h)
    · obtain rfl := not_not.mp hne
      rcases mem_cons.mp h with rfl | h
      · exact ih mem_cons_self
      · exact ih h

theorem mem_destutter_ne {l : List ℕ} {a : ℕ} : a ∈ l.destutter (· ≠ ·) ↔ a ∈ l := by
  refine ⟨fun h => (destutter_sublist _ l).subset h, fun h => ?_⟩
  cases l with
  | nil => exact h
  | cons b l => exact mem_destutter'_ne h

/-- The dependencies of a constraint are those it reads from. -/
theorem dependencies_spec (hnodes : Hierarchy nodes) (h : Constrained nodes constraints)
    (hindex : index < constraints.length) :
    ∃ found, dependencies nodes constraints index = .ok found ∧
      ∀ dependency, dependency ∈ found ↔ ReadsFrom nodes constraints index dependency := by
  obtain ⟨constraint, hconstraint⟩ : ∃ c, constraints[index]? = some c :=
    ⟨_, getElem?_eq_getElem hindex⟩
  obtain ⟨found, hfound, hiff⟩ := foundDependencies_spec hnodes h hconstraint
  refine ⟨(found.insertionSort (· ≤ ·)).destutter (· ≠ ·), ?_, fun dependency => ?_⟩
  · rw [dependencies, hconstraint]
    dsimp only
    rw [hfound]
    rfl
  · rw [mem_destutter_ne, mem_insertionSort, hiff, ReadsFrom, hconstraint]
    simp

end Reading

section Order

variable {T V : Type} {nodes : List (CpuNode T)} {constraints : List (CpuNodeConstraint V)}

/-- The constraints that one reads from, as a list. -/
def needs (nodes : List (CpuNode T)) (constraints : List (CpuNodeConstraint V)) (index : ℕ) :
    List ℕ :=
  match dependencies nodes constraints index with
  | .ok found => found
  | .error _ => []

theorem mem_needs (hnodes : Hierarchy nodes) (h : Constrained nodes constraints) {a b : ℕ} :
    b ∈ needs nodes constraints a ↔ ReadsFrom nodes constraints a b := by
  by_cases ha : a < constraints.length
  · obtain ⟨found, hfound, hiff⟩ := dependencies_spec hnodes h ha
    rw [needs, hfound]
    exact hiff b
  · have hnone : constraints[a]? = none := getElem?_eq_none (by omega)
    rw [needs, dependencies, hnone, ReadsFrom, hnone]
    simp

/-- No constraint of the list stands before one it reads from. -/
theorem pairwise_of_ordered {indices : List ℕ} (hnodes : Hierarchy nodes)
    (h : Constrained nodes constraints) (hnodup : indices.Nodup)
    (hordered : Toposort.Ordered (needs nodes constraints) indices) :
    (indices.filterMap fun index => constraints[index]?).Pairwise
      fun first second => ¬ Reads nodes first second.destination := by
  rw [pairwise_filterMap]
  refine ((hordered.pairwise hnodup).and hnodup).imp ?_
  rintro a b ⟨hneeds, hne⟩ first hfirst second hsecond hreads
  rw [mem_needs hnodes h] at hneeds
  exact hneeds ⟨Ne.symm hne, first, second, hfirst, hsecond, hreads⟩

theorem filterMap_range_getElem? {α : Type} (xs : List α) :
    ((List.range xs.length).filterMap fun i => xs[i]?) = xs := by
  induction xs using List.reverseRecOn with
  | nil => rfl
  | append_singleton xs x ih =>
    have hrange : (List.range xs.length).filterMap (fun i => (xs ++ [x])[i]?) =
        (List.range xs.length).filterMap fun i => xs[i]? :=
      filterMap_congr fun i hi => getElem?_append_left (mem_range.mp hi)
    rw [length_append, length_singleton, range_succ, filterMap_append, hrange,
      ih]
    simp

/-- The constraints are put in an order in which none stands before one it reads from, or the
readings have a cycle, which is reported. -/
theorem orderConstraints_exact (hnodes : Hierarchy nodes) (h : Constrained nodes constraints) :
    (∃ ordered, orderConstraints nodes constraints = .ok ordered ∧ ordered.Perm constraints ∧
      (ordered.Pairwise fun first second => ¬ Reads nodes first second.destination) ∧
      ¬ ∃ index, TransGen (ReadsFrom nodes constraints) index index) ∨
    (orderConstraints nodes constraints =
        .error (.failed "VRM node constraints contain a circular dependency") ∧
      ∃ index, TransGen (ReadsFrom nodes constraints) index index) := by
  have hneeds : Toposort.Needs (needs nodes constraints) = ReadsFrom nodes constraints := by
    funext a b
    exact propext (mem_needs hnodes h)
  have hdeps : ∀ a < constraints.length,
      dependencies nodes constraints a = .ok (needs nodes constraints a) := by
    intro a ha
    obtain ⟨found, hfound, -⟩ := dependencies_spec hnodes h ha
    rw [needs, hfound]
  have hrange : ∀ a < constraints.length, ∀ b ∈ needs nodes constraints a,
      b < constraints.length := by
    intro a _ b hb
    obtain ⟨-, _, _, -, hsecond, -⟩ := (mem_needs hnodes h).mp hb
    exact (List.getElem?_eq_some_iff.mp hsecond).1
  rw [orderConstraints, ← hneeds]
  rcases @Toposort.sort_spec _ constraintFailures _ _ _ hdeps hrange with
    ⟨indices, hsort, hperm, hordered⟩ | ⟨hsort, hcycle⟩
  · have hnodup : indices.Nodup := hperm.nodup_iff.mpr nodup_range
    refine .inl ⟨_, by rw [hsort]; rfl, ?_, pairwise_of_ordered hnodes h hnodup hordered, ?_⟩
    · have hmap := hperm.filterMap fun index => constraints[index]?
      rw [filterMap_range_getElem?] at hmap
      exact hmap
    · rintro ⟨index, hcycle⟩
      obtain ⟨b, hb, -⟩ := TransGen.head'_iff.mp hcycle
      obtain ⟨-, _, _, hfirst, -⟩ := (mem_needs hnodes h).mp hb
      refine hordered.acyclic hnodup (hperm.mem_iff.mpr (mem_range.mpr ?_)) hcycle
      exact (List.getElem?_eq_some_iff.mp hfirst).1
  · exact .inr ⟨by rw [hsort]; rfl, hcycle⟩

/-- Four nodes below each other. -/
def lineOfNodes : List (CpuNode Unit) :=
  [⟨(), none, true⟩, ⟨(), some 0, true⟩, ⟨(), some 1, true⟩, ⟨(), some 2, true⟩]

/-- An aim, and behind it a constraint that writes above it. -/
def aimBelow : List (CpuNodeConstraint Unit) :=
  [⟨3, 1, ⟨0⟩, .aim ()⟩, ⟨2, 1, ⟨0⟩, .rotation⟩]

theorem parentOf_lineOfNodes : ∀ child parent, parentOf lineOfNodes child = some parent →
    parent < child ∧ child < 4
  | 0, _, h => nomatch h
  | 1, _, rfl => by decide
  | 2, _, rfl => by decide
  | 3, _, rfl => by decide
  | _ + 4, _, h => nomatch h

theorem orderConstraints_exact_aim :
    ∃ ordered, orderConstraints lineOfNodes aimBelow = .ok ordered ∧ ordered.Perm aimBelow ∧
      ordered.Pairwise fun first second => ¬ Reads lineOfNodes first second.destination := by
  have hnodes : Hierarchy lineOfNodes := by
    refine ⟨fun child parent h => ?_, acyclic_of_lt fun child parent h =>
      (parentOf_lineOfNodes child parent h).1⟩
    obtain ⟨hlt, hchild⟩ := parentOf_lineOfNodes child parent h
    exact hlt.trans hchild
  have hconstrained : Constrained lineOfNodes aimBelow := by
    refine ⟨?_, ?_, ?_⟩ <;> simp [aimBelow, lineOfNodes]
  rcases orderConstraints_exact hnodes hconstrained with ⟨ordered, h, hperm, hpair, -⟩ | ⟨h, -⟩
  · exact ⟨ordered, h, hperm, hpair⟩
  · cases h

end Order

end SkidMonitor.Client.Vrm
