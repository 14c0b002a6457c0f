import SkidMonitor.Client.VrmHumanoid
import SkidMonitor.Lib.Ancestry
import SkidMonitor.Lib.Table

/-! What the check of the humanoid hierarchy accepts: the walk over the active scene meets the nodes
below its roots, and the nearest bone above a bone is found along the recorded parents. -/
namespace SkidMonitor.Client.Vrm

open Fallible List

section Specification

/-- The values as indices of nodes, if they all are. -/
def nodeIndices (nodeCount : ℕ) (values : List Value) : Option (List ℕ) :=
  values.mapM fun value => (asU64 value).filter (· < nodeCount)

/-- The children of a node, if it has none or a list of valid indices. -/
def childNodes (nodes : List Value) (node : ℕ) : Option (List ℕ) :=
  match nodes[node]?.bind (·.get "children") with
  | none => some []
  | some children => children.asArray.bind (nodeIndices nodes.length)

def kids (nodes : List Value) (node : ℕ) : List ℕ := (childNodes nodes node).getD []

/-- The node is met so many levels below a root. -/
inductive Reached (children : ℕ → List ℕ) (roots : List ℕ) : ℕ → ℕ → Prop where
  | root {a : ℕ} : a ∈ roots → Reached children roots a 0
  | child {p c depth : ℕ} : Reached children roots p depth → c ∈ children p →
      Reached children roots c (depth + 1)

/-- The nodes of a file and the roots of its active scene, if these are a list of valid indices. -/
def sceneOf (root : Value) : Option (List Value × List ℕ) := do
  let nodes ← (root.get "nodes").bind (·.asArray)
  let scenes ← (root.get "scenes").bind (·.asArray)
  let sceneIndex := ((root.get "scene").bind asU64).getD 0
  let roots ← (scenes[sceneIndex]?.bind (·.get "nodes")).bind (·.asArray)
  let roots ← nodeIndices nodes.length roots
  return (nodes, roots)

end Specification

section Indices

/-- An index is read, or there is a message why not. -/
theorem jsonNodeIndex_cases (value : Value) (nodeCount : ℕ) (context : String) :
    (∃ node < nodeCount, asU64 value = some node ∧
      jsonNodeIndex value nodeCount context = .ok node) ∨
    (asU64 value).filter (· < nodeCount) = none ∧
      ∃ message, jsonNodeIndex value nodeCount context = .error (.failed message) := by
  unfold jsonNodeIndex
  cases asU64 value with
  | none => exact .inr ⟨rfl, _, rfl⟩
  | some node =>
    by_cases hlt : node < nodeCount
    · refine .inl ⟨node, hlt, rfl, ?_⟩
      rw [okOr, ok_bind, if_neg (by omega)]
      rfl
    · refine .inr ⟨by simp [Option.filter, hlt],
        s!"VRM {context} references missing node {node}", ?_⟩
      rw [okOr, ok_bind, if_pos (by omega)]
      rfl

variable {nodeCount index : ℕ} {value : Value} {context : String}

theorem jsonNodeIndex_filter : jsonNodeIndex value nodeCount context = .ok index ↔
    (asU64 value).filter (· < nodeCount) = some index := by
  rcases jsonNodeIndex_cases value nodeCount context with
    ⟨node, hlt, hvalue, h⟩ | ⟨hnone, message, h⟩
  · simp [h, hvalue, Option.filter, hlt]
  · simp [h, hnone]

theorem jsonNodeIndex_ok : jsonNodeIndex value nodeCount context = .ok index ↔
    asU64 value = some index ∧ index < nodeCount := by
  rw [jsonNodeIndex_filter, Option.filter_eq_some_iff, decide_eq_true_iff]

theorem jsonNodeIndex_failed {e : LoadError}
    (h : jsonNodeIndex value nodeCount context = .error e) : ∃ message, e = .failed message := by
  rcases jsonNodeIndex_cases value nodeCount context with
    ⟨node, -, -, h'⟩ | ⟨-, message, h'⟩
  · rw [h'] at h
    cases h
  · rw [h'] at h
    cases h
    exact ⟨message, rfl⟩

end Indices

section Push

variable {nodeCount node depth : ℕ} {walk walk' : SceneWalk} {values : List Value}
  {children : List ℕ}

theorem pushChild_ok {value : Value} (h : pushChild nodeCount node depth walk value = .ok walk') :
    ∃ child, (asU64 value).filter (· < nodeCount) = some child ∧
      walk.parents[child]? = some none ∧
      walk' = { walk with
        parents := walk.parents.set child (some node)
        stack := (child, depth + 1) :: walk.stack } := by
  obtain ⟨child, hchild, h⟩ := bind_ok h
  split at h
  · cases h
  · cases h
  · rename_i hnone
    cases h
    exact ⟨child, jsonNodeIndex_filter.mp hchild, hnone, rfl⟩

/-- After these children of a node have been pushed. -/
structure Pushed (node depth : ℕ) (children : List ℕ) (walk walk' : SceneWalk) : Prop where
  active : walk'.active = walk.active
  length : walk'.parents.length = walk.parents.length
  parents : ∀ c p, walk'.parents[c]? = some (some p) ↔
    walk.parents[c]? = some (some p) ∨ (p = node ∧ c ∈ children)
  stack : walk'.stack = (children.map fun child => (child, depth + 1)).reverse ++ walk.stack

theorem Pushed.nil : Pushed node depth [] walk walk := ⟨rfl, rfl, by simp, rfl⟩

theorem Pushed.cons {walk'' : SceneWalk} {child : ℕ} (hnone : walk.parents[child]? = some none)
    (h : Pushed node depth children { walk with
      parents := walk.parents.set child (some node)
      stack := (child, depth + 1) :: walk.stack } walk'') :
    Pushed node depth (child :: children) walk walk'' := by
  have hlt : child < walk.parents.length := (List.getElem?_eq_some_iff.mp hnone).1
  refine ⟨h.active, by rw [h.length, length_set], fun c p => ?_, ?_⟩
  · rw [h.parents]
    by_cases hc : c = child
    · subst hc
      rw [getElem?_set_self hlt, hnone]
      simp +contextual [eq_comm]
    · rw [getElem?_set_ne (Ne.symm hc)]
      simp [hc]
  · rw [h.stack]
    simp

theorem pushAll_ok (h : values.foldlM (pushChild nodeCount node depth) walk = .ok walk') :
    ∃ children, nodeIndices nodeCount values = some children ∧
      Pushed node depth children walk walk' := by
  induction values generalizing walk with
  | nil =>
    cases h
    exact ⟨[], rfl, .nil⟩
  | cons value values ih =>
    rw [foldlM_cons] at h
    obtain ⟨mid, hmid, h⟩ := bind_ok h
    obtain ⟨child, hchild, hnone, rfl⟩ := pushChild_ok hmid
    obtain ⟨children, hchildren, hpushed⟩ := ih h
    refine ⟨child :: children, ?_, hpushed.cons hnone⟩
    rw [nodeIndices, mapM_cons, hchild]
    change (nodeIndices nodeCount values >>= fun rest => some (child :: rest)) = _
    rw [hchildren]
    rfl

end Push

section Visit

variable {nodes : List Value} {node depth : ℕ} {walk walk' : SceneWalk} {children : List ℕ}

def SceneWalk.enter (walk : SceneWalk) (node : ℕ) : SceneWalk :=
  { walk with active := walk.active.set node true }

/-- The end of a visit, in which the children of the node are pushed. -/
def pushChildren (nodes : List Value) (walk : SceneWalk) (node depth : ℕ) : LoadM SceneWalk :=
  match nodes[node]?.bind (·.get "children") with
  | none => .ok walk
  | some children => do
    let children ← okOr s!"VRM node {node} children must be an array" children.asArray
    children.foldlM (pushChild nodes.length node depth) walk

theorem visitNode_eq : visitNode nodes walk node depth =
    if depth > maxNodeDepth then
      .error (.failed s!"VRM node hierarchy exceeds depth {maxNodeDepth}")
    else match walk.active[node]? with
      | none => .error .outOfBounds
      | some true =>
        .error (.failed s!"VRM active scene node {node} is referenced more than once")
      | some false => pushChildren nodes (walk.enter node) node depth := by
  unfold visitNode
  split_ifs <;> rfl

theorem pushChildren_ok (h : pushChildren nodes walk node depth = .ok walk') :
    ∃ children, childNodes nodes node = some children ∧ Pushed node depth children walk walk' := by
  unfold pushChildren at h
  unfold childNodes
  split at h
  · cases h
    exact ⟨[], rfl, .nil⟩
  · obtain ⟨values, hvalues, h⟩ := bind_ok h
    obtain ⟨children, hchildren, hpushed⟩ := pushAll_ok h
    exact ⟨children, by rw [okOr_ok.mp hvalues]; exact hchildren, hpushed⟩

theorem visitNode_ok (h : visitNode nodes walk node depth = .ok walk') :
    depth ≤ maxNodeDepth ∧ walk.active[node]? = some false ∧
      ∃ children, childNodes nodes node = some children ∧
        Pushed node depth children (walk.enter node) walk' := by
  rw [visitNode_eq] at h
  split_ifs at h with hdepth
  split at h
  · cases h
  · cases h
  · rename_i hactive
    exact ⟨by omega, hactive, pushChildren_ok h⟩

end Visit

section Walk

variable {nodes : List Value} {roots order : List ℕ} {node depth : ℕ} {walk walk' : SceneWalk}
  {stack : List (ℕ × ℕ)}

/-- The walk has visited the nodes of the list. What it has found is visited or on the stack. -/
structure Walking (nodes : List Value) (roots order : List ℕ) (walk : SceneWalk) : Prop where
  active : walk.active.length = nodes.length
  parents : walk.parents.length = nodes.length
  visited : ∀ i : ℕ, walk.active[i]? = some true ↔ i ∈ order
  nodup : order.Nodup
  parent : ∀ c p : ℕ, walk.parents[c]? = some (some p) ↔ p ∈ order ∧ c ∈ kids nodes p
  valid : ∀ p ∈ order, (childNodes nodes p).isSome
  found : (roots ++ order.flatMap (kids nodes)).Perm (order ++ walk.stack.map Prod.fst)
  stack : ∀ entry ∈ walk.stack,
    entry.1 < nodes.length ∧ Reached (kids nodes) roots entry.1 entry.2
  reached : ∀ p ∈ order, ∃ depth ≤ maxNodeDepth, Reached (kids nodes) roots p depth

theorem nodeIndices_lt {values : List Value} {indices : List ℕ} {count index : ℕ}
    (h : nodeIndices count values = some indices) (hindex : index ∈ indices) : index < count := by
  induction values generalizing indices with
  | nil =>
    cases h
    cases hindex
  | cons value values ih =>
    rw [nodeIndices, mapM_cons] at h
    obtain ⟨first, hfirst, h⟩ := Option.bind_eq_some_iff.mp h
    obtain ⟨rest, hrest, h⟩ := Option.bind_eq_some_iff.mp h
    cases h
    rcases mem_cons.mp hindex with rfl | hindex
    · simpa using (Option.filter_eq_some_iff.mp hfirst).2
    · exact ih hrest hindex

theorem kids_eq {children : List ℕ} (h : childNodes nodes node = some children) :
    kids nodes node = children := by
  rw [kids, h]
  rfl

theorem kids_lt {child : ℕ} (h : child ∈ kids nodes node) : child < nodes.length := by
  unfold kids childNodes at h
  split at h
  · cases h
  · rename_i value _
    cases hvalues : value.asArray.bind (nodeIndices nodes.length) with
    | none => simp [hvalues] at h
    | some indices =>
      rw [hvalues] at h
      obtain ⟨values, -, hindices⟩ := Option.bind_eq_some_iff.mp hvalues
      exact nodeIndices_lt hindices h

/-- A visit that succeeds moves the node from the stack to the visited ones. -/
theorem Walking.visit (h : Walking nodes roots order walk)
    (hstack : walk.stack = (node, depth) :: stack)
    (hvisit : visitNode nodes { walk with stack } node depth = .ok walk') :
    Walking nodes roots (order ++ [node]) walk' := by
  obtain ⟨hdepth, hactive, children, hchildren, hpushed⟩ := visitNode_ok hvisit
  obtain ⟨hlt, hreached⟩ := h.stack (node, depth) (by rw [hstack]; exact mem_cons_self)
  have hkids := kids_eq hchildren
  have hnew : node ∉ order := by
    rw [← h.visited, hactive]
    simp
  have hin : ∀ p, p ∈ order ++ [node] ↔ p ∈ order ∨ p = node := fun p => by simp
  refine ⟨?_, ?_, fun i => ?_, ?_, fun c p => ?_, fun p hp => ?_, ?_, ?_, fun p hp => ?_⟩
  · rw [hpushed.active, SceneWalk.enter, length_set, h.active]
  · rw [hpushed.length, SceneWalk.enter, h.parents]
  · rw [hpushed.active, SceneWalk.enter, hin]
    by_cases hi : i = node
    · rw [hi, getElem?_set_self (by rw [h.active]; exact hlt)]
      simp
    · rw [getElem?_set_ne (Ne.symm hi), h.visited]
      simp [hi]
  · rw [← concat_eq_append]
    exact (nodup_concat _ _).mpr ⟨hnew, h.nodup⟩
  · rw [hpushed.parents, SceneWalk.enter, h.parent, hin, ← hkids, or_and_right]
    refine or_congr_right ⟨?_, ?_⟩ <;>
      · rintro ⟨rfl, hc⟩
        exact ⟨rfl, hc⟩
  · rcases (hin p).mp hp with hp | rfl
    · exact h.valid p hp
    · rw [hchildren]
      rfl
  · have hfirsts : walk'.stack.map Prod.fst = children.reverse ++ stack.map Prod.fst := by
      rw [hpushed.stack]
      simp [SceneWalk.enter, Function.comp_def]
    have hfound := h.found.append_right children
    rw [hstack] at hfound
    rw [flatMap_append, flatMap_singleton, hkids, hfirsts, ← append_assoc]
    refine hfound.trans ?_
    simp only [map_cons, append_assoc, cons_append, nil_append]
    refine List.Perm.append_left _ (List.Perm.cons _ ?_)
    exact perm_append_comm.trans (children.reverse_perm.symm.append_right _)
  · intro entry hentry
    rw [hpushed.stack, mem_append, mem_reverse] at hentry
    rcases hentry with hentry | hentry
    · obtain ⟨child, hchild, rfl⟩ := mem_map.mp hentry
      rw [← hkids] at hchild
      exact ⟨kids_lt hchild, hreached.child hchild⟩
    · exact h.stack entry (by rw [hstack]; exact mem_cons_of_mem _ hentry)
  · rcases (hin p).mp hp with hp | rfl
    · exact h.reached p hp
    · exact ⟨depth, hdepth, hreached⟩

/-- A walk that comes to its end has visited what it has found. -/
theorem Walking.walkScene_ok {rounds : ℕ} (h : Walking nodes roots order walk)
    (hwalk : walkScene nodes rounds walk = .ok walk') :
    ∃ order', Walking nodes roots order' walk' ∧ walk'.stack = [] := by
  induction rounds generalizing order walk with
  | zero =>
    unfold walkScene at hwalk
    split at hwalk
    · rename_i hstack
      cases hwalk
      exact ⟨order, h, hstack⟩
    · cases hwalk
  | succ rounds ih =>
    unfold walkScene at hwalk
    split at hwalk
    · rename_i hstack
      cases hwalk
      exact ⟨order, h, hstack⟩
    · rename_i node depth stack hstack
      obtain ⟨mid, hmid, hwalk⟩ := bind_ok hwalk
      exact ih (h.visit hstack hmid) hwalk

end Walk

section Start

variable {root : Value} {nodes : List Value} {roots : List ℕ} {walk : SceneWalk}

def startWalk (nodes : List Value) (roots : List ℕ) : SceneWalk where
  active := List.replicate nodes.length false
  parents := List.replicate nodes.length none
  stack := (roots.map fun root => (root, 0)).reverse

theorem walking_start (h : ∀ i ∈ roots, i < nodes.length) :
    Walking nodes roots [] (startWalk nodes roots) := by
  refine ⟨length_replicate, length_replicate, fun i => ?_, nodup_nil,
    fun c p => ?_, by simp, ?_, ?_, by simp⟩
  · simp [startWalk, getElem?_replicate]
  · simp [startWalk, getElem?_replicate]
  · have hstack : (startWalk nodes roots).stack.map Prod.fst = roots.reverse := by
      simp [startWalk, Function.comp_def]
    rw [hstack, flatMap_nil, append_nil, nil_append]
    exact roots.reverse_perm.symm
  · intro entry hentry
    rw [startWalk, mem_reverse] at hentry
    obtain ⟨i, hi, rfl⟩ := mem_map.mp hentry
    exact ⟨h i hi, .root hi⟩

/-- The active scene is walked if its roots are a list of valid indices and there are some. -/
theorem activeScene_cases (root : Value) :
    (∃ nodes roots, sceneOf root = some (nodes, roots) ∧ roots ≠ [] ∧
      activeScene root = walkScene nodes (roots.length + nodes.length) (startWalk nodes roots)) ∨
    (∃ message, activeScene root = .error (.failed message)) ∧
      ∀ nodes roots, sceneOf root = some (nodes, roots) → roots = [] := by
  unfold activeScene sceneOf
  cases hnodes : (root.get "nodes").bind (·.asArray) with
  | none => exact .inr ⟨⟨_, rfl⟩, by simp⟩
  | some nodes =>
    cases hscenes : (root.get "scenes").bind (·.asArray) with
    | none => exact .inr ⟨⟨_, rfl⟩, by simp⟩
    | some scenes =>
      simp only [okOr, ok_bind, Option.bind_eq_bind, Option.bind_some]
      cases hroots : (scenes[((root.get "scene").bind asU64).getD 0]?.bind (·.get "nodes")).bind
          (·.asArray) with
      | none => exact .inr ⟨⟨_, rfl⟩, by simp⟩
      | some values =>
        have hiff : ∀ roots, values.mapM (jsonNodeIndex · nodes.length "scene root") = .ok roots ↔
            nodeIndices nodes.length values = some roots :=
          fun roots => mapM_ok_iff fun _ _ => jsonNodeIndex_filter
        cases values with
        | nil =>
          refine .inr ⟨⟨_, rfl⟩, fun nodes' roots h => ?_⟩
          cases h
          rfl
        | cons value values =>
          simp only [ok_bind, Option.bind_some, isEmpty_cons, Bool.false_eq_true, if_false]
          cases hok : (value :: values).mapM (jsonNodeIndex · nodes.length "scene root") with
          | ok roots =>
            have hindices := (hiff roots).mp hok
            refine .inl ⟨nodes, roots, by rw [hindices]; rfl, ?_, rfl⟩
            rintro rfl
            have hlength := (mapM_ok hok).length_eq
            cases hlength
          | error e =>
            obtain ⟨_, -, he⟩ := mapM_error hok
            obtain ⟨message, rfl⟩ := jsonNodeIndex_failed he
            refine .inr ⟨⟨message, rfl⟩, fun nodes' roots h => ?_⟩
            obtain ⟨indices, hindices, -⟩ := Option.bind_eq_some_iff.mp h
            rw [(hiff indices).mpr hindices] at hok
            cases hok

end Start

section Bones

variable {nodes : List Value} {roots order : List ℕ} {walk : SceneWalk}
  {bindings : List (String × ℕ)} {node : ℕ} {bone : String}

/-- The bone of a node. -/
def boneAt (bindings : List (String × ℕ)) (node : ℕ) : Option String :=
  (bindings.find? fun binding => binding.2 = node).map Prod.fst

theorem nearestHumanoidParent_eq {parents : List (Option ℕ)} :
    nearestHumanoidParent parents bindings node = (parentChain parents parents.length
      (parents[node]?).join).findSome? (boneAt bindings) := rfl

theorem boneAt_eq_some (h : (bindings.map Prod.snd).Nodup) :
    boneAt bindings node = some bone ↔ (bone, node) ∈ bindings := by
  rw [boneAt, Option.map_eq_some_iff]
  constructor
  · rintro ⟨binding, hfind, rfl⟩
    obtain ⟨hmem, rfl⟩ := (Table.find?_iff_mem h).mp hfind
    exact hmem
  · intro hmem
    exact ⟨(bone, node), (Table.find?_iff_mem h).mpr ⟨hmem, rfl⟩, rfl⟩

theorem boneAt_eq_none (h : (bindings.map Prod.snd).Nodup) :
    boneAt bindings node = none ↔ ∀ other, (other, node) ∉ bindings := by
  rw [Option.eq_none_iff_forall_ne_some]
  exact forall_congr' fun other => not_congr (boneAt_eq_some h)

end Bones

section Validation

variable {root : Value} {nodes : List Value} {roots order : List ℕ} {walk : SceneWalk}
  {bindings : List (String × ℕ)} {required : List (String × String)}

theorem requireActive_ok {binding : String × ℕ} :
    requireActive walk binding = .ok () ↔ walk.active[binding.2]? = some true := by
  unfold requireActive
  split <;> simp_all

theorem requireParent_ok {parents : List (Option ℕ)} {pair : String × String} :
    requireParent parents bindings pair = .ok () ↔
      ∃ descendant, bindings.lookup pair.2 = some descendant ∧
        nearestHumanoidParent parents bindings descendant = some pair.1 := by
  unfold requireParent
  cases hlookup : bindings.lookup pair.2 with
  | none =>
    refine iff_of_false (fun h => ?_) (by simp)
    obtain ⟨_, h, _⟩ := bind_ok h
    cases h
  | some descendant =>
    rw [okOr, ok_bind]
    split_ifs with hne
    · exact iff_of_false (fun h => by cases h) (by simpa using hne)
    · exact iff_of_true rfl ⟨descendant, rfl, by simpa using hne⟩

/-- The two checks of the bones that follow the walk. -/
def checkBones (bindings : List (String × ℕ)) (required : List (String × String))
    (walk : SceneWalk) : LoadM Unit := do
  bindings.forM (requireActive walk)
  required.forM (requireParent walk.parents bindings)

theorem checkBones_ok : checkBones bindings required walk = .ok () ↔
    (∀ binding ∈ bindings, walk.active[binding.2]? = some true) ∧
      ∀ pair ∈ required, ∃ descendant, bindings.lookup pair.2 = some descendant ∧
        nearestHumanoidParent walk.parents bindings descendant = some pair.1 := by
  constructor
  · intro h
    obtain ⟨_, hactive, h⟩ := bind_ok h
    exact ⟨fun binding hbinding => requireActive_ok.mp (forM_ok_iff.mp hactive binding hbinding),
      fun pair hpair => requireParent_ok.mp (forM_ok_iff.mp h pair hpair)⟩
  · rintro ⟨hactive, hparent⟩
    rw [checkBones, forM_ok_iff.mpr fun b hb => requireActive_ok.mpr (hactive b hb), ok_bind]
    exact forM_ok_iff.mpr fun pair hpair => requireParent_ok.mpr (hparent pair hpair)

theorem validateHumanoidHierarchy_ok (hwalk : activeScene root = .ok walk) :
    validateHumanoidHierarchy root bindings required = .ok () ↔
      (∀ binding ∈ bindings, walk.active[binding.2]? = some true) ∧
        ∀ pair ∈ required, ∃ descendant, bindings.lookup pair.2 = some descendant ∧
          nearestHumanoidParent walk.parents bindings descendant = some pair.1 := by
  rw [← checkBones_ok, validateHumanoidHierarchy, hwalk]
  rfl

theorem sceneOf_lt (h : sceneOf root = some (nodes, roots)) : ∀ i ∈ roots, i < nodes.length := by
  obtain ⟨nodes', -, h⟩ := Option.bind_eq_some_iff.mp h
  obtain ⟨scenes, -, h⟩ := Option.bind_eq_some_iff.mp h
  obtain ⟨values, -, h⟩ := Option.bind_eq_some_iff.mp h
  obtain ⟨indices, hindices, h⟩ := Option.bind_eq_some_iff.mp h
  cases h
  exact fun i hi => nodeIndices_lt hindices hi

end Validation

end SkidMonitor.Client.Vrm
