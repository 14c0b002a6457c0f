import SkidMonitor.Lib.Fallible
import SkidMonitor.Lib.Json
import SkidMonitor.Lib.Number
import SkidMonitor.Lib.Text

/-! The humanoid bones of VRM models and VRM animations: which nodes they are bound to, and where
these stand in the active scene. -/
namespace SkidMonitor.Client.Vrm

open Fallible

abbrev Value := Json Numbers.Number

/-- Why a file is not loaded. The last two are an index outside its table, and a walk that does not
come to its end. -/
inductive LoadError where
  | failed (message : String)
  | outOfBounds
  | unfinished
  deriving DecidableEq

abbrev LoadM := Except LoadError

def asU64 (value : Value) : Option ℕ := value.asNumber.bind Numbers.Number.asU64

/-- The value, or the error with this message. -/
def okOr {α : Type} (message : String) : Option α → LoadM α
  | some a => .ok a
  | none => .error (.failed message)

theorem okOr_ok {α : Type} {message : String} {x : Option α} {a : α} :
    okOr message x = .ok a ↔ x = some a := by
  cases x <;> simp [okOr]

/-- `get` on the members of an object. -/
def member (members : List (String × Value)) (key : String) : Option Value := members.lookup key

def maxNodeDepth : ℕ := 128

def requiredVrmOneHumanoidBones : List String :=
  ["hips", "spine", "head", "leftUpperLeg", "leftLowerLeg", "leftFoot", "rightUpperLeg",
    "rightLowerLeg", "rightFoot", "leftUpperArm", "leftLowerArm", "leftHand", "rightUpperArm",
    "rightLowerArm", "rightHand"]

def requiredVrmOneHierarchy : List (String × String) :=
  [("hips", "spine"), ("spine", "head"), ("hips", "leftUpperLeg"),
    ("leftUpperLeg", "leftLowerLeg"), ("leftLowerLeg", "leftFoot"), ("hips", "rightUpperLeg"),
    ("rightUpperLeg", "rightLowerLeg"), ("rightLowerLeg", "rightFoot"), ("spine", "leftUpperArm"),
    ("leftUpperArm", "leftLowerArm"), ("leftLowerArm", "leftHand"), ("spine", "rightUpperArm"),
    ("rightUpperArm", "rightLowerArm"), ("rightLowerArm", "rightHand")]

def jsonNodeIndex (value : Value) (nodeCount : ℕ) (context : String) : LoadM ℕ := do
  let node ← okOr s!"VRM {context} node index must be an unsigned integer" (asU64 value)
  if node ≥ nodeCount then throw (.failed s!"VRM {context} references missing node {node}")
  return node

def validateBoneNode (bone : String) (node nodeCount : ℕ) (assigned : List ℕ) : LoadM ℕ := do
  if node ≥ nodeCount then throw (.failed s!"VRM bone {bone} references missing node {node}")
  if node ∈ assigned then throw (.failed s!"VRM bone {bone} reuses humanoid node {node}")
  return node

section Hierarchy

/-- The walk over the active scene: the nodes met, their parents, and the stack with its top
first. -/
structure SceneWalk where
  active : List Bool
  parents : List (Option ℕ)
  stack : List (ℕ × ℕ)
  deriving DecidableEq

def pushChild (nodeCount node depth : ℕ) (walk : SceneWalk) (child : Value) : LoadM SceneWalk := do
  let child ← jsonNodeIndex child nodeCount "child"
  match walk.parents[child]? with
  | none => throw .outOfBounds
  | some (some _) => throw (.failed s!"VRM node {child} has more than one parent")
  | some none => return { walk with
      parents := walk.parents.set child (some node)
      stack := (child, depth + 1) :: walk.stack }

def visitNode (nodes : List Value) (walk : SceneWalk) (node depth : ℕ) : LoadM SceneWalk := do
  if depth > maxNodeDepth then
    throw (.failed s!"VRM node hierarchy exceeds depth {maxNodeDepth}")
  match walk.active[node]? with
  | none => throw .outOfBounds
  | some true => throw (.failed s!"VRM active scene node {node} is referenced more than once")
  | some false =>
    let walk := { walk with active := walk.active.set node true }
    match nodes[node]?.bind (·.get "children") with
    | none => return walk
    | some children =>
      let children ← okOr s!"VRM node {node} children must be an array" children.asArray
      children.foldlM (pushChild nodes.length node depth) walk

/-- The loop over the stack, with a bound on its rounds. -/
def walkScene (nodes : List Value) : ℕ → SceneWalk → LoadM SceneWalk
  | rounds, walk =>
    match walk.stack with
    | [] => .ok walk
    | (node, depth) :: stack =>
      match rounds with
      | 0 => .error .unfinished
      | rounds + 1 => do
        let walk ← visitNode nodes { walk with stack } node depth
        walkScene nodes rounds walk

/-- The active nodes of the scene and their parents. -/
def activeScene (root : Value) : LoadM SceneWalk := do
  let nodes ← okOr "VRM node array is missing" ((root.get "nodes").bind (·.asArray))
  let scenes ← okOr "VRM scene array is missing" ((root.get "scenes").bind (·.asArray))
  let sceneIndex := ((root.get "scene").bind asU64).getD 0
  let sceneRoots ← okOr "VRM active scene root nodes are missing"
    ((scenes[sceneIndex]?.bind (·.get "nodes")).bind (·.asArray))
  if sceneRoots.isEmpty then
    throw (.failed "VRM active scene must contain at least one root node")
  let roots ← sceneRoots.mapM (jsonNodeIndex · nodes.length "scene root")
  walkScene nodes (roots.length + nodes.length)
    ⟨List.replicate nodes.length false, List.replicate nodes.length none,
      (roots.map fun root => (root, 0)).reverse⟩

/-- The parents of a node, from the nearest one on, as far as the loop looks. -/
def parentChain (parents : List (Option ℕ)) : ℕ → Option ℕ → List ℕ
  | 0, _ => []
  | _ + 1, none => []
  | rounds + 1, some node => node :: parentChain parents rounds (parents[node]?).join

/-- The nearest parent that is bound to a bone. -/
def nearestHumanoidParent (parents : List (Option ℕ)) (bindings : List (String × ℕ))
    (descendant : ℕ) : Option String :=
  (parentChain parents parents.length (parents[descendant]?).join).findSome? fun node =>
    (bindings.find? fun binding => binding.2 = node).map Prod.fst

def requireActive (walk : SceneWalk) (binding : String × ℕ) : LoadM Unit :=
  match walk.active[binding.2]? with
  | none => .error .outOfBounds
  | some false =>
    .error (.failed s!"VRM humanoid bone {binding.1} is outside the active scene")
  | some true => .ok ()

def requireParent (parents : List (Option ℕ)) (bindings : List (String × ℕ))
    (pair : String × String) : LoadM Unit := do
  let descendant ← okOr s!"VRM humanoid bone {pair.2} is missing" (bindings.lookup pair.2)
  if nearestHumanoidParent parents bindings descendant ≠ some pair.1 then
    throw (.failed (s!"VRM humanoid bone {pair.2} must have {pair.1} as its nearest required " ++
      "humanoid parent"))

def validateHumanoidHierarchy (root : Value) (bindings : List (String × ℕ))
    (requiredHierarchy : List (String × String)) : LoadM Unit := do
  let walk ← activeScene root
  bindings.forM (requireActive walk)
  requiredHierarchy.forM (requireParent walk.parents bindings)

end Hierarchy

section Extensions

def requiredNonEmptyString (object : List (String × Value)) (field context : String) : LoadM Unit :=
  if ((member object field).bind (·.asStr)).any fun value => !(Text.trim value.toList).isEmpty then
    .ok ()
  else .error (.failed s!"{context}.{field} must be a non-empty string")

/-- The bindings of the bones that must be there, in their order. -/
def bindRequired (nodeOf : String → LoadM ℕ) (nodeCount : ℕ) (required : List String) :
    LoadM (List (String × ℕ)) :=
  required.foldlM (fun bindings bone => do
    let node ← nodeOf bone
    let node ← validateBoneNode bone node nodeCount (bindings.map Prod.snd)
    return bindings ++ [(bone, node)]) []

def validateVrmOneMeta (vrm : List (String × Value)) : LoadM Unit := do
  if (member vrm "specVersion").bind (·.asStr) ≠ some "1.0" then
    throw (.failed "only VRM 1.0 is supported for VRMC_vrm models")
  let metadata ← okOr "VRM 1.0 meta object is required" ((member vrm "meta").bind (·.asObject))
  requiredNonEmptyString metadata "name" "VRM 1.0 meta"
  requiredNonEmptyString metadata "licenseUrl" "VRM 1.0 meta"
  let authors ← okOr "VRM 1.0 meta.authors must be a non-empty array"
    (((member metadata "authors").bind (·.asArray)).filter fun authors => !authors.isEmpty)
  if authors.any fun author => author.asStr.all fun text => (Text.trim text.toList).isEmpty then
    throw (.failed "VRM 1.0 meta.authors must contain non-empty strings")

def vrmOneHumanBones (vrm : List (String × Value)) : LoadM (List (String × Value)) :=
  okOr "VRM 1.0 humanoid.humanBones object is required"
    (((member vrm "humanoid").bind (·.get "humanBones")).bind (·.asObject))

def vrmOneBoneNode (bones : List (String × Value)) (bone : String) : LoadM ℕ :=
  okOr s!"VRM 1.0 required humanoid bone {bone} is missing"
    (((member bones bone).bind (·.get "node")).bind asU64)

def validateVrmOne (vrm root : Value) (nodeCount : ℕ) : LoadM Unit := do
  let vrm ← okOr "VRMC_vrm must be an object" vrm.asObject
  validateVrmOneMeta vrm
  let bones ← vrmOneHumanBones vrm
  let bindings ← bindRequired (vrmOneBoneNode bones) nodeCount requiredVrmOneHumanoidBones
  validateHumanoidHierarchy root bindings requiredVrmOneHierarchy

/-- The map of the bones of an animation. -/
def vrmaHumanBones (root : Value) : LoadM (List (String × Value)) := do
  let animation ← okOr "VRMA VRMC_vrm_animation extension object is missing"
    (((root.get "extensions").bind (·.get "VRMC_vrm_animation")).bind (·.asObject))
  if (member animation "specVersion").bind (·.asStr) ≠ some "1.0" then
    throw (.failed "only VRMC_vrm_animation 1.0 is supported")
  okOr "VRMA humanoid.humanBones object is required"
    (((member animation "humanoid").bind (·.get "humanBones")).bind (·.asObject))

def bindVrmaBone (nodeCount : ℕ) (bindings : List (String × ℕ)) (entry : String × Value) :
    LoadM (List (String × ℕ)) := do
  let node ← okOr s!"VRMA humanoid bone {entry.1} node is missing" (entry.2.get "node")
  let node ← jsonNodeIndex node nodeCount s!"humanoid bone {entry.1}"
  if node ∈ bindings.map Prod.snd then
    throw (.failed s!"VRMA humanoid bone {entry.1} reuses node {node}")
  return bindings ++ [(entry.1, node)]

def validateVrmaExtension (root : Value) (nodeCount : ℕ) : LoadM (List (String × ℕ)) := do
  let bones ← vrmaHumanBones root
  let bindings ← bones.foldlM (bindVrmaBone nodeCount) []
  requiredVrmOneHumanoidBones.forM fun bone =>
    if (bindings.lookup bone).isNone then
      throw (.failed s!"VRMA required humanoid bone {bone} is missing")
    else return ()
  validateHumanoidHierarchy root bindings requiredVrmOneHierarchy
  return bindings

end Extensions

end SkidMonitor.Client.Vrm
