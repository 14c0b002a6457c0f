import SkidMonitor.Client.HumanoidScene

/-! What further bones do to an animation that is accepted with the required ones. -/
namespace SkidMonitor.Client.Vrm

open Fallible List

section Scenes

variable {root root' : Value} {walk : SceneWalk}

/-- How many nodes the file has. -/
def nodeCountOf (root : Value) : ℕ := ((root.get "nodes").bind (·.asArray)).elim 0 List.length

theorem length_activeScene (h : activeScene root = .ok walk) :
    walk.active.length = nodeCountOf root := by
  rcases activeScene_cases root with ⟨nodes, roots, hscene, -, heq⟩ | ⟨⟨message, heq⟩, -⟩
  · rw [heq] at h
    obtain ⟨order, hwalking, -⟩ := (walking_start (sceneOf_lt hscene)).walkScene_ok h
    obtain ⟨nodes', hnodes, hscene⟩ := Option.bind_eq_some_iff.mp hscene
    obtain ⟨_, -, hscene⟩ := Option.bind_eq_some_iff.mp hscene
    obtain ⟨_, -, hscene⟩ := Option.bind_eq_some_iff.mp hscene
    obtain ⟨_, -, hscene⟩ := Option.bind_eq_some_iff.mp hscene
    cases hscene
    rw [hwalking.active, nodeCountOf, hnodes]
    rfl
  · rw [heq] at h
    cases h

/-- The files have the same nodes and the same active scene. -/
structure SameScene (root root' : Value) : Prop where
  nodes : root'.get "nodes" = root.get "nodes"
  scenes : root'.get "scenes" = root.get "scenes"
  scene : root'.get "scene" = root.get "scene"

theorem SameScene.activeScene_eq (h : SameScene root root') :
    activeScene root' = activeScene root := by
  unfold activeScene
  rw [h.nodes, h.scenes, h.scene]

end Scenes

section Bindings

variable {nodeCount : ℕ} {bones : List (String × Value)} {bindings new : List (String × ℕ)}

/-- The node that an entry of the map names. -/
def boundNode (binding : Value) : Option ℕ := (binding.get "node").bind asU64

/-- The entry is bound to this node of the table. -/
def Binds (nodeCount : ℕ) (entry : String × Value) (binding : String × ℕ) : Prop :=
  binding.1 = entry.1 ∧ boundNode entry.2 = some binding.2 ∧ binding.2 < nodeCount

theorem bindVrmaBone_ok {entry : String × Value} {bindings' : List (String × ℕ)} :
    bindVrmaBone nodeCount bindings entry = .ok bindings' ↔ ∃ binding,
      Binds nodeCount entry binding ∧ binding.2 ∉ bindings.map Prod.snd ∧
        bindings' = bindings ++ [binding] := by
  unfold bindVrmaBone
  constructor
  · intro h
    obtain ⟨value, hvalue, h⟩ := bind_ok h
    obtain ⟨node, hnode, h⟩ := bind_ok h
    rw [okOr_ok] at hvalue
    obtain ⟨hnode, hlt⟩ := jsonNodeIndex_ok.mp hnode
    split_ifs at h with hreused
    · cases h
    · cases h
      refine ⟨(entry.1, node), ⟨rfl, ?_, hlt⟩, hreused, rfl⟩
      rw [boundNode, hvalue]
      exact hnode
  · rintro ⟨⟨bone, node⟩, ⟨rfl, hbound, hlt⟩, hreused, rfl⟩
    obtain ⟨value, hvalue, hnode⟩ := Option.bind_eq_some_iff.mp hbound
    rw [hvalue, okOr, ok_bind, jsonNodeIndex_ok.mpr ⟨hnode, hlt⟩, ok_bind, if_neg hreused]
    rfl

/-- The bones are bound in their order, each to a node of its own. -/
theorem bindVrmaBones_ok (bindings : List (String × ℕ)) (hnodup : (bindings.map Prod.snd).Nodup)
    {bindings' : List (String × ℕ)} :
    bones.foldlM (bindVrmaBone nodeCount) bindings = .ok bindings' ↔ ∃ new,
      List.Forall₂ (Binds nodeCount) bones new ∧ (bindings'.map Prod.snd).Nodup ∧
        bindings' = bindings ++ new := by
  induction bones generalizing bindings with
  | nil =>
    rw [foldlM_nil]
    constructor
    · intro h
      cases h
      exact ⟨[], .nil, hnodup, (append_nil _).symm⟩
    · rintro ⟨new, hnew, _, rfl⟩
      cases hnew
      rw [append_nil]
      rfl
  | cons entry bones ih =>
    rw [foldlM_cons]
    have hsnoc : ∀ {binding : String × ℕ}, binding.2 ∉ bindings.map Prod.snd →
        ((bindings ++ [binding]).map Prod.snd).Nodup := by
      intro binding hfresh
      rw [map_append]
      refine hnodup.append (nodup_singleton _) fun node hnode hmem => ?_
      rw [map_singleton, mem_singleton] at hmem
      exact hfresh (hmem ▸ hnode)
    constructor
    · intro h
      obtain ⟨_, hfirst, h⟩ := bind_ok h
      obtain ⟨binding, hbinds, hfresh, rfl⟩ := bindVrmaBone_ok.mp hfirst
      obtain ⟨new, hnew, hnodup', rfl⟩ := (ih _ (hsnoc hfresh)).mp h
      exact ⟨binding :: new, .cons hbinds hnew, hnodup', by simp⟩
    · rintro ⟨new, hnew, hnodup', rfl⟩
      obtain ⟨binding, new, hbinds, hrest, rfl⟩ := forall₂_cons_left_iff.mp hnew
      have hfresh : binding.2 ∉ bindings.map Prod.snd := by
        rw [map_append, map_cons] at hnodup'
        exact fun hmem => (disjoint_of_nodup_append hnodup') hmem mem_cons_self
      rw [bindVrmaBone_ok.mpr ⟨binding, hbinds, hfresh, rfl⟩]
      exact (ih _ (hsnoc hfresh)).mpr ⟨new, hrest, hnodup', by simp⟩

theorem validateVrmaExtension_ok {root : Value} (hbones : vrmaHumanBones root = .ok bones) :
    validateVrmaExtension root nodeCount = .ok bindings ↔
      List.Forall₂ (Binds nodeCount) bones bindings ∧ (bindings.map Prod.snd).Nodup ∧
        (∀ bone ∈ requiredVrmOneHumanoidBones, (bindings.lookup bone).isSome = true) ∧
        validateHumanoidHierarchy root bindings requiredVrmOneHierarchy = .ok () := by
  have hrequired : ∀ (found : List (String × ℕ)) (bone : String),
      (if (found.lookup bone).isNone then
        (throw (.failed s!"VRMA required humanoid bone {bone} is missing") : LoadM Unit)
        else return ()) = .ok () ↔ (found.lookup bone).isSome = true := by
    intro found bone
    cases found.lookup bone <;> simp [throw, throwThe, MonadExceptOf.throw, pure, Except.pure]
  rw [validateVrmaExtension, hbones]
  change (bones.foldlM (bindVrmaBone nodeCount) [] >>= _) = _ ↔ _
  constructor
  · intro h
    obtain ⟨found, hfound, h⟩ := bind_ok h
    obtain ⟨_, hall, h⟩ := bind_ok h
    obtain ⟨_, hhierarchy, h⟩ := bind_ok h
    cases h
    obtain ⟨new, hnew, hnodup, rfl⟩ := (bindVrmaBones_ok [] nodup_nil).mp hfound
    exact ⟨hnew, hnodup, fun bone hbone => (hrequired _ bone).mp (forM_ok_iff.mp hall bone hbone),
      hhierarchy⟩
  · rintro ⟨hnew, hnodup, hall, hhierarchy⟩
    rw [(bindVrmaBones_ok [] nodup_nil).mpr ⟨bindings, hnew, hnodup, rfl⟩, ok_bind,
      forM_ok_iff.mpr fun bone hbone => (hrequired bindings bone).mpr (hall bone hbone), ok_bind,
      hhierarchy]
    rfl

end Bindings

section Nearest

variable {parents : List (Option ℕ)} {bindings : List (String × ℕ)} {bone : String}
variable {ancestor descendant : ℕ}

/-- All the parents that the loop looks at. -/
def parentsOf (parents : List (Option ℕ)) (descendant : ℕ) : List ℕ :=
  parentChain parents parents.length (parents[descendant]?).join

/-- The nodes on the way up from a node, before this parent. -/
def between (parents : List (Option ℕ)) (descendant ancestor : ℕ) : List ℕ :=
  (parentsOf parents descendant).takeWhile (· ≠ ancestor)

theorem nearestHumanoidParent_iff (hbones : (bindings.map Prod.fst).Nodup)
    (hnodes : (bindings.map Prod.snd).Nodup) (hmem : (bone, ancestor) ∈ bindings) :
    nearestHumanoidParent parents bindings descendant = some bone ↔
      ancestor ∈ parentsOf parents descendant ∧
        ∀ binding ∈ bindings, binding.2 ∉ between parents descendant ancestor := by
  have hfound : ∀ node, boneAt bindings node = some bone ↔ node = ancestor := by
    intro node
    rw [boneAt_eq_some hnodes]
    constructor
    · intro hbinding
      exact congrArg Prod.snd (inj_on_of_nodup_map hbones hbinding hmem rfl)
    · rintro rfl
      exact hmem
  rw [nearestHumanoidParent_eq, Table.findSome?_iff_takeWhile hfound]
  refine and_congr Iff.rfl ⟨fun h binding hbinding hnode => ?_, fun h node hnode => ?_⟩
  · exact (boneAt_eq_none hnodes).mp (h binding.2 hnode) binding.1 hbinding
  · exact (boneAt_eq_none hnodes).mpr fun other hother => h (other, node) hother hnode

end Nearest

section Further

variable {root root' : Value} {walk : SceneWalk} {nodeCount : ℕ}
variable {bones : List (String × Value)} {bindings : List (String × ℕ)}

def isRequired (bone : String) : Bool := decide (bone ∈ requiredVrmOneHumanoidBones)

/-- The node that the map binds a bone to. -/
def nodeOf (bones : List (String × Value)) (bone : String) : Option ℕ :=
  (bones.lookup bone).bind boundNode

/-- A further bone stands between a required one and the required one above it. -/
def Intervenes (parents : List (Option ℕ)) (bones : List (String × Value)) : Prop :=
  ∃ pair ∈ requiredVrmOneHierarchy, ∃ descendant ∈ nodeOf bones pair.2,
    ∃ ancestor ∈ nodeOf bones pair.1, ∃ entry ∈ bones, isRequired entry.1 = false ∧
      ∃ node ∈ boundNode entry.2, node ∈ between parents descendant ancestor

instance (parents : List (Option ℕ)) (bones : List (String × Value)) :
    Decidable (Intervenes parents bones) :=
  inferInstanceAs (Decidable (∃ pair ∈ requiredVrmOneHierarchy, _))

theorem binds_unique : Relator.RightUnique (Binds nodeCount) := by
  rintro entry ⟨bone, node⟩ ⟨bone', node'⟩ ⟨hbone, hnode, _⟩ ⟨hbone', hnode', _⟩
  rw [hnode] at hnode'
  cases hnode'
  exact Prod.ext (hbone.trans hbone'.symm) rfl

theorem lookup_binds (h : List.Forall₂ (Binds nodeCount) bones bindings) (bone : String) :
    bindings.lookup bone = nodeOf bones bone := by
  unfold nodeOf
  induction h with
  | nil => rfl
  | @cons entry binding _ _ hbinds _ ih =>
    obtain ⟨key, node⟩ := binding
    obtain ⟨rfl, hnode, _⟩ := hbinds
    rw [lookup_cons, lookup_cons]
    split
    · exact hnode.symm
    · exact ih

theorem map_fst_binds (h : List.Forall₂ (Binds nodeCount) bones bindings) :
    bindings.map Prod.fst = bones.map Prod.fst := by
  induction h with
  | nil => rfl
  | cons hbinds _ ih => rw [map_cons, map_cons, hbinds.1, ih]

theorem map_snd_binds (h : List.Forall₂ (Binds nodeCount) bones bindings) :
    (bindings.map Prod.snd).map some = bones.map fun entry => boundNode entry.2 := by
  induction h with
  | nil => rfl
  | cons hbinds _ ih => rw [map_cons, map_cons, map_cons, hbinds.2.1, ih]

theorem filter_binds (h : List.Forall₂ (Binds nodeCount) bones bindings) :
    List.Forall₂ (Binds nodeCount) (bones.filter fun entry => isRequired entry.1)
      (bindings.filter fun binding => isRequired binding.1) :=
  rel_filter (fun _ _ hbinds => iff_of_eq (congrArg (isRequired · = true) hbinds.1.symm)) h

theorem required_of_hierarchy : ∀ pair ∈ requiredVrmOneHierarchy,
    isRequired pair.1 = true ∧ isRequired pair.2 = true := by
  decide

/-- When the required bones alone stand in their order, a further bone is in the way or it is not. -/
theorem hierarchy_iff (hb : List.Forall₂ (Binds nodeCount) bones bindings)
    (hbones : (bindings.map Prod.fst).Nodup) (hnodes : (bindings.map Prod.snd).Nodup)
    (hrequired : ∀ pair ∈ requiredVrmOneHierarchy, ∃ descendant,
      (bindings.filter fun binding => isRequired binding.1).lookup pair.2 = some descendant ∧
        nearestHumanoidParent walk.parents (bindings.filter fun binding => isRequired binding.1)
          descendant = some pair.1)
    (hall : ∀ bone ∈ requiredVrmOneHumanoidBones, (bindings.lookup bone).isSome = true) :
    (∀ pair ∈ requiredVrmOneHierarchy, ∃ descendant, bindings.lookup pair.2 = some descendant ∧
      nearestHumanoidParent walk.parents bindings descendant = some pair.1) ↔
        ¬ Intervenes walk.parents bones := by
  have hsub := (filter_sublist (p := fun binding : String × ℕ => isRequired binding.1)
    (l := bindings))
  constructor
  · rintro h ⟨pair, hpair, descendant, hdesc, ancestor, hanc, entry, hentry, _, node, hnode, hin⟩
    obtain ⟨descendant', hdesc', hnearest⟩ := h pair hpair
    rw [lookup_binds hb, Option.mem_def.mp hdesc] at hdesc'
    cases hdesc'
    rw [Option.mem_def, ← lookup_binds hb, Table.lookup_iff_mem hbones] at hanc
    obtain ⟨binding, hbinding, _, hbound, _⟩ := Table.exists_right hb hentry
    rw [Option.mem_def.mp hnode] at hbound
    cases hbound
    exact ((nearestHumanoidParent_iff hbones hnodes hanc).mp hnearest).2 binding hbinding hin
  · intro hfree pair hpair
    obtain ⟨hreq, hreq'⟩ := required_of_hierarchy pair hpair
    obtain ⟨descendant, hdesc, hnearest⟩ := hrequired pair hpair
    rw [Table.lookup_filter (p := isRequired) hreq'] at hdesc
    obtain ⟨ancestor, hanc⟩ := Option.isSome_iff_exists.mp (hall pair.1 (of_decide_eq_true hreq))
    have hmem := (Table.lookup_iff_mem hbones).mp hanc
    obtain ⟨hreach, hclear⟩ := (nearestHumanoidParent_iff ((hsub.map _).nodup hbones)
      ((hsub.map _).nodup hnodes) (mem_filter.mpr ⟨hmem, hreq⟩)).mp hnearest
    refine ⟨descendant, hdesc, (nearestHumanoidParent_iff hbones hnodes hmem).mpr
      ⟨hreach, fun binding hbinding hin => ?_⟩⟩
    by_cases hbone : isRequired binding.1 = true
    · exact hclear binding (mem_filter.mpr ⟨hbinding, hbone⟩) hin
    · obtain ⟨entry, hentry, hname, hbound, _⟩ := Table.exists_left hb hbinding
      exact hfree ⟨pair, hpair, descendant, lookup_binds hb pair.2 ▸ hdesc, ancestor,
        lookup_binds hb pair.1 ▸ hanc, entry, hentry, by simpa [hname] using hbone, binding.2,
        hbound, hin⟩

/-- Further bones on active nodes of their own are accepted iff none of them stands between a
required bone and the required one above it. -/
theorem vrma_optional_bones_iff (hscene : SameScene root root')
    (hwalk : activeScene root = .ok walk) (hbones : (bones.map Prod.fst).Nodup)
    (hnodes : (bones.map fun entry => boundNode entry.2).Nodup)
    (hrestricted : vrmaHumanBones root = .ok (bones.filter fun entry => isRequired entry.1))
    (hextended : vrmaHumanBones root' = .ok bones)
    (haccepted : ∃ bindings, validateVrmaExtension root (nodeCountOf root) = .ok bindings)
    (hfurther : ∀ entry ∈ bones, isRequired entry.1 = false →
      ∃ node ∈ boundNode entry.2, walk.active[node]? = some true) :
    (∃ bindings, validateVrmaExtension root' (nodeCountOf root') = .ok bindings) ↔
      ¬ Intervenes walk.parents bones := by
  have hcount : nodeCountOf root' = nodeCountOf root := by rw [nodeCountOf, hscene.nodes, nodeCountOf]
  have hwalk' : activeScene root' = .ok walk := hscene.activeScene_eq.trans hwalk
  obtain ⟨required, haccepted⟩ := haccepted
  obtain ⟨hbinds, _, hall, hhierarchy⟩ := (validateVrmaExtension_ok hrestricted).mp haccepted
  obtain ⟨hactive, hpairs⟩ := (validateHumanoidHierarchy_ok hwalk).mp hhierarchy
  obtain ⟨bindings, hb⟩ : ∃ bindings, List.Forall₂ (Binds (nodeCountOf root)) bones bindings := by
    refine Table.exists_forall₂ fun entry hentry => ?_
    by_cases hbone : isRequired entry.1 = true
    · obtain ⟨binding, _, h⟩ := Table.exists_right hbinds (mem_filter.mpr ⟨hentry, hbone⟩)
      exact ⟨binding, h⟩
    · obtain ⟨node, hnode, hnodeActive⟩ := hfurther entry hentry (by simpa using hbone)
      have hlt := (List.getElem?_eq_some_iff.mp hnodeActive).1
      exact ⟨(entry.1, node), rfl, hnode, length_activeScene hwalk ▸ hlt⟩
  obtain rfl := right_unique_forall₂' binds_unique (filter_binds hb) hbinds
  have hkeys : (bindings.map Prod.fst).Nodup := map_fst_binds hb ▸ hbones
  have hnodup : (bindings.map Prod.snd).Nodup := .of_map some (map_snd_binds hb ▸ hnodes)
  have hrequired : ∀ bone ∈ requiredVrmOneHumanoidBones, (bindings.lookup bone).isSome = true := by
    intro bone hbone
    rw [← Table.lookup_filter (p := isRequired) (decide_eq_true hbone)]
    exact hall bone hbone
  have hall' : ∀ binding ∈ bindings, walk.active[binding.2]? = some true := by
    intro binding hbinding
    by_cases hbone : isRequired binding.1 = true
    · exact hactive binding (mem_filter.mpr ⟨hbinding, hbone⟩)
    · obtain ⟨entry, hentry, hname, hbound, _⟩ := Table.exists_left hb hbinding
      obtain ⟨node, hnode, hnodeActive⟩ := hfurther entry hentry (by simpa [hname] using hbone)
      rw [Option.mem_def.mp hnode] at hbound
      cases hbound
      exact hnodeActive
  rw [hcount, ← hierarchy_iff hb hkeys hnodup hpairs hrequired]
  constructor
  · rintro ⟨bindings', h⟩
    obtain ⟨hb', _, _, h⟩ := (validateVrmaExtension_ok hextended).mp h
    obtain rfl := right_unique_forall₂' binds_unique hb' hb
    exact ((validateHumanoidHierarchy_ok hwalk').mp h).2
  · intro h
    exact ⟨bindings, (validateVrmaExtension_ok hextended).mpr
      ⟨hb, hnodup, hrequired, (validateHumanoidHierarchy_ok hwalk').mpr ⟨hall', h⟩⟩⟩

end Further

section Samples

def sampleIndex (n : Fin (2 ^ 64)) : Value := .num (.posInt n)

def sampleBone (bone : String × Fin (2 ^ 64)) : String × Value :=
  (bone.1, .obj [("node", sampleIndex bone.2)])

/-- Hips 0 with both legs, spine 1, and between the spine and head 2 the node 15 with both arms;
the head has one child, 16. -/
def sampleChildren : List (List (Fin (2 ^ 64))) :=
  [[1, 3, 6], [15], [16], [4], [5], [], [7], [8], [], [10], [11], [], [13], [14], [], [2, 9, 12], []]

def sampleRequired : List (String × Fin (2 ^ 64)) :=
  [("head", 2), ("hips", 0), ("leftFoot", 5), ("leftHand", 11), ("leftLowerArm", 10),
    ("leftLowerLeg", 4), ("leftUpperArm", 9), ("leftUpperLeg", 3), ("rightFoot", 8),
    ("rightHand", 14), ("rightLowerArm", 13), ("rightLowerLeg", 7), ("rightUpperArm", 12),
    ("rightUpperLeg", 6), ("spine", 1)]

def sampleHumanoid (bones : List (String × Fin (2 ^ 64))) : String × Value :=
  ("humanoid", .obj [("humanBones", .obj (bones.map sampleBone))])

def sampleAnimation (bones : List (String × Fin (2 ^ 64))) : Value :=
  .obj [("extensions", .obj [("VRMC_vrm_animation",
      .obj [sampleHumanoid bones, ("specVersion", .str "1.0")])]),
    ("nodes", .arr (sampleChildren.map fun children =>
      .obj [("children", .arr (children.map sampleIndex))])),
    ("scenes", .arr [.obj [("nodes", .arr [sampleIndex 0])]])]

def sampleModel (bones : List (String × Fin (2 ^ 64))) : Value :=
  .obj [sampleHumanoid bones,
    ("meta", .obj [("authors", .arr [.str "author"]), ("licenseUrl", .str "licence"),
      ("name", .str "name")]), ("specVersion", .str "1.0")]

def sampleWalk : SceneWalk where
  active := List.replicate 17 true
  parents := [none, some 0, some 15, some 0, some 3, some 4, some 0, some 6, some 7, some 15, some 9,
    some 10, some 15, some 12, some 13, some 1, some 2]
  stack := []

theorem activeScene_sample (bones : List (String × Fin (2 ^ 64))) :
    activeScene (sampleAnimation bones) = .ok sampleWalk := by
  rw [show activeScene (sampleAnimation bones) = activeScene (sampleAnimation []) from rfl]
  decide +kernel

theorem sample_accepted :
    (validateVrmaExtension (sampleAnimation sampleRequired) 17).isOk = true := by
  decide +kernel

theorem vrma_optional_bones_jaw : ∃ bindings,
    validateVrmaExtension (sampleAnimation (("jaw", 16) :: sampleRequired)) 17 = .ok bindings := by
  have hscene : SameScene (sampleAnimation sampleRequired)
      (sampleAnimation (("jaw", 16) :: sampleRequired)) := ⟨rfl, rfl, rfl⟩
  exact (vrma_optional_bones_iff hscene (activeScene_sample _) (by decide +kernel)
    (by decide +kernel) rfl rfl (exists_ok sample_accepted) (by decide +kernel)).mpr
    (by decide +kernel)

/-- A chest between the spine and the head: the animation is refused, and the model with the
same bones is not. -/
theorem chest_disqualifies :
    let bones := ("chest", 15) :: sampleRequired
    (bones.map Prod.snd).Nodup ∧ sampleWalk.active[15]? = some true ∧
      (∃ bindings, validateVrmaExtension (sampleAnimation sampleRequired) 17 = .ok bindings) ∧
      validateVrmaExtension (sampleAnimation bones) 17 =
        .error (.failed ("VRM humanoid bone head must have spine as its nearest required " ++
          "humanoid parent")) ∧
      validateVrmOne (sampleModel bones) (sampleAnimation bones) 17 = .ok () :=
  ⟨by decide +kernel, by decide +kernel, exists_ok sample_accepted, by decide +kernel,
    by decide +kernel⟩

end Samples

end SkidMonitor.Client.Vrm
