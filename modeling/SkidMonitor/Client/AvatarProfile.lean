import SkidMonitor.Lib.Fallible
import SkidMonitor.Lib.Float64
import SkidMonitor.Lib.Grouping
import SkidMonitor.Lib.Json
import SkidMonitor.Lib.Text

/-! The reaction profile of the avatar: how it is normalised, and how it is kept in the settings. -/
namespace SkidMonitor.Client.Profile

open Fallible Grouping List

def profileSchemaVersion : ℕ := 4
def maxModelNameChars : ℕ := 64
def maxModelPathChars : ℕ := 4096
def maxMessageChars : ℕ := 160
def maxExpressionNameChars : ℕ := 64
def maxAvatarAnimationPaths : ℕ := 8

inductive AvatarMotion where
  | still
  | pulse
  | bounce
  | shake
  deriving DecidableEq

structure AvatarAction where
  motion : AvatarMotion := .still
  message : Str := []
  expression : Str := []
  deriving DecidableEq

/-- A quarter of a second. -/
def defaultCrossfade : F32 := ⟨0x3E800000⟩

structure AvatarReactionProfile where
  schemaVersion : ℕ := profileSchemaVersion
  modelName : Str := "Skid".toList
  modelPath : Str := []
  animationPath : Str := []
  animationPaths : List Str := []
  shaderPath : Str := []
  animationCrossfadeSeconds : F32 := defaultCrossfade
  springBoneEnabled : Bool := true
  lookAtEnabled : Bool := true
  idle : AvatarAction := ⟨.still, "All systems look calm.".toList, "neutral".toList⟩
  warning : AvatarAction := ⟨.pulse, "A warning needs attention.".toList, "surprised".toList⟩
  critical : AvatarAction := ⟨.shake, "Critical condition detected!".toList, "angry".toList⟩
  deriving DecidableEq

/-- Fails with this message unless the condition holds. -/
def check (condition : Bool) (message : String) : Except String Unit :=
  if condition then .ok () else .error message

section Validate

-- the extension of a path, as the system's path type has it
variable (extension : Str → Option Str)

def toAsciiLowercase (text : Str) : Str := text.map Char.toLower

def hasSupportedModelExtension (path : Str) : Bool :=
  (extension path).any fun extension =>
    toAsciiLowercase extension ∈ ["png", "jpg", "jpeg", "vrm"].map String.toList

def hasExtension (path : Str) (expected : String) : Bool :=
  (extension path).any fun extension =>
    toAsciiLowercase extension = toAsciiLowercase expected.toList

def validateAnimationPath (path : Str) : Except String Unit := do
  check (path.length ≤ maxModelPathChars)
    s!"animation path must be at most {maxModelPathChars} characters"
  check (hasExtension extension path "vrma") "character animations must use a .vrma extension"

def validateAction (state : String) (action : AvatarAction) : Except String Unit := do
  check (action.message.length ≤ maxMessageChars)
    s!"{state} message must be at most {maxMessageChars} characters"
  check (action.expression.length ≤ maxExpressionNameChars)
    s!"{state} expression must be at most {maxExpressionNameChars} characters"
  check (!action.expression.any Text.isControl)
    s!"{state} expression must not contain control characters"

namespace AvatarReactionProfile

variable (profile : AvatarReactionProfile)

def validateModel : Except String Unit := do
  check (profile.schemaVersion = profileSchemaVersion)
    s!"character profile schema version {profile.schemaVersion} is not supported"
  check (!profile.modelName.isEmpty) "character name is required"
  check (profile.modelName.length ≤ maxModelNameChars)
    s!"character name must be at most {maxModelNameChars} characters"
  check (profile.modelPath.length ≤ maxModelPathChars)
    s!"model path must be at most {maxModelPathChars} characters"
  check (profile.modelPath.isEmpty || hasSupportedModelExtension extension profile.modelPath)
    "character model must use a .png, .jpg, .jpeg, or .vrm extension"

def validateAnimations : Except String Unit := do
  check profile.animationPath.isEmpty "legacy animation_path must be normalized before saving"
  check (profile.animationPaths.length ≤ maxAvatarAnimationPaths)
    s!"at most {maxAvatarAnimationPaths} VRMA animation files are supported"
  check (profile.animationPaths.isEmpty || hasExtension extension profile.modelPath "vrm")
    "VRMA animations require a .vrm character model"
  profile.animationPaths.forM (validateAnimationPath extension)

def validateShader : Except String Unit := do
  check (profile.shaderPath.length ≤ maxModelPathChars)
    s!"shader path must be at most {maxModelPathChars} characters"
  check (profile.shaderPath.isEmpty || hasExtension extension profile.modelPath "vrm")
    "custom WGSL shaders require a .vrm character model"
  check (profile.shaderPath.isEmpty || hasExtension extension profile.shaderPath "wgsl")
    "custom character shader must use a .wgsl extension"

def validate : Except String Unit := do
  profile.validateModel extension
  profile.validateAnimations extension
  profile.validateShader extension
  check (profile.animationCrossfadeSeconds.isFinite &&
    F32.zero.le profile.animationCrossfadeSeconds && profile.animationCrossfadeSeconds.le F32.two)
    "animation crossfade must be between 0 and 2 seconds"
  validateAction "idle" profile.idle
  validateAction "warning" profile.warning
  validateAction "critical" profile.critical

end AvatarReactionProfile

end Validate

section Normalize

def AvatarAction.trimmed (action : AvatarAction) : AvatarAction :=
  { action with message := Text.trim action.message, expression := Text.trim action.expression }

def pushPath (paths : List Str) (path : Str) : List Str :=
  let path := Text.trim path
  if path ≠ [] ∧ path ∉ paths then paths ++ [path] else paths

/-- The paths without blanks, repetitions and empty ones; the legacy path if there are none. -/
def migratedPaths (legacy : Str) (paths : List Str) : List Str :=
  let paths := paths.foldl pushPath []
  if paths = [] ∧ Text.trim legacy ≠ [] then [Text.trim legacy] else paths

namespace AvatarReactionProfile

def trimmed (profile : AvatarReactionProfile) : AvatarReactionProfile :=
  { profile with
    schemaVersion := profileSchemaVersion
    modelName := Text.trim profile.modelName
    modelPath := Text.trim profile.modelPath
    animationPath := []
    animationPaths := migratedPaths profile.animationPath profile.animationPaths
    shaderPath := Text.trim profile.shaderPath
    idle := profile.idle.trimmed
    warning := profile.warning.trimmed
    critical := profile.critical.trimmed }

def normalized (extension : Str → Option Str) (profile : AvatarReactionProfile) :
    Except String AvatarReactionProfile := do
  check (profile.schemaVersion ≤ profileSchemaVersion)
    (s!"character profile schema version {profile.schemaVersion} is newer than supported " ++
      s!"version {profileSchemaVersion}")
  profile.trimmed.validate extension
  return profile.trimmed

end AvatarReactionProfile

/-- The paths that are not blank, each where it first occurs. -/
def distinctPaths (paths : List Str) : List Str :=
  firsts id ((paths.map Text.trim).filter (· ≠ []))

theorem mem_distinctPaths {paths : List Str} {path : Str} :
    path ∈ distinctPaths paths ↔ path ∈ (paths.map Text.trim).filter (· ≠ []) := by
  rw [← map_id (distinctPaths paths), distinctPaths, mem_keys_firsts, map_id]

theorem distinctPaths_concat (paths : List Str) (path : Str) :
    distinctPaths (paths ++ [path]) = pushPath (distinctPaths paths) path := by
  rw [pushPath]
  by_cases hblank : Text.trim path = []
  · simp [distinctPaths, hblank]
  · have hlist : ((paths ++ [path]).map Text.trim).filter (· ≠ []) =
        (paths.map Text.trim).filter (· ≠ []) ++ [Text.trim path] := by
      simp [hblank]
    conv_lhs => rw [distinctPaths, hlist, firsts_concat, map_id, id_eq]
    by_cases hold : Text.trim path ∈ (paths.map Text.trim).filter (· ≠ [])
    · rw [if_pos hold, if_neg fun h => h.2 (mem_distinctPaths.mpr hold)]
      rfl
    · rw [if_neg hold, if_pos ⟨hblank, fun h => hold (mem_distinctPaths.mp h)⟩]
      rfl

theorem foldl_pushPath (paths : List Str) : paths.foldl pushPath [] = distinctPaths paths := by
  induction paths using List.reverseRecOn with
  | nil => rfl
  | append_singleton paths path ih =>
    rw [foldl_append, foldl_cons, foldl_nil, ih, distinctPaths_concat]

theorem migratedPaths_eq (legacy : Str) (paths : List Str) :
    migratedPaths legacy paths =
      if distinctPaths paths = [] ∧ Text.trim legacy ≠ [] then [Text.trim legacy]
      else distinctPaths paths := by
  rw [migratedPaths, foldl_pushPath]

/-- A list of trimmed paths that are not empty and not repeated. -/
structure Distinct (paths : List Str) : Prop where
  nodup : paths.Nodup
  trimmed : ∀ path ∈ paths, Text.trim path = path
  nonempty : ∀ path ∈ paths, path ≠ []

theorem distinctPaths_distinct (paths : List Str) : Distinct (distinctPaths paths) := by
  refine ⟨?_, fun path hpath => ?_, fun path hpath => ?_⟩
  · rw [← map_id (distinctPaths paths)]
    exact nodup_keys_firsts
  · obtain ⟨source, -, rfl⟩ := mem_map.mp (mem_filter.mp (mem_distinctPaths.mp hpath)).1
    exact Text.trim_trim source
  · exact of_decide_eq_true (mem_filter.mp (mem_distinctPaths.mp hpath)).2

theorem migratedPaths_distinct (legacy : Str) (paths : List Str) :
    Distinct (migratedPaths legacy paths) := by
  rw [migratedPaths_eq]
  split_ifs with hlegacy
  · exact ⟨nodup_singleton _, by simp [Text.trim_trim], by simpa using hlegacy.2⟩
  · exact distinctPaths_distinct paths

theorem migratedPaths_self {paths : List Str} (h : Distinct paths) :
    migratedPaths [] paths = paths := by
  have hmap : paths.map Text.trim = paths :=
    (map_congr_left h.trimmed).trans (map_id _)
  have hfilter : paths.filter (· ≠ []) = paths :=
    filter_eq_self.mpr fun path hpath => decide_eq_true (h.nonempty path hpath)
  have hdistinct : distinctPaths paths = paths := by
    rw [distinctPaths, hmap, hfilter]
    exact firsts_of_nodup (by simpa using h.nodup)
  rw [migratedPaths_eq, hdistinct, if_neg fun hlegacy => hlegacy.2 rfl]

theorem AvatarAction.trimmed_trimmed (action : AvatarAction) :
    action.trimmed.trimmed = action.trimmed := by
  simp [AvatarAction.trimmed, Text.trim_trim]

namespace AvatarReactionProfile

variable {extension : Str → Option Str} {profile normal : AvatarReactionProfile}

theorem trimmed_trimmed (profile : AvatarReactionProfile) :
    profile.trimmed.trimmed = profile.trimmed := by
  have hpaths := migratedPaths_self
    (migratedPaths_distinct profile.animationPath profile.animationPaths)
  simp only [trimmed, Text.trim_trim, AvatarAction.trimmed_trimmed, hpaths]

theorem normalized_ok (h : profile.normalized extension = .ok normal) :
    normal = profile.trimmed ∧ normal.validate extension = .ok () := by
  obtain ⟨_, -, h⟩ := bind_ok h
  obtain ⟨_, hvalid, h⟩ := bind_ok h
  cases h
  exact ⟨rfl, hvalid⟩

/-- A normal profile is its own normal form. -/
theorem normalized_normal (h : profile.normalized extension = .ok normal) :
    normal.normalized extension = .ok normal := by
  obtain ⟨rfl, hvalid⟩ := normalized_ok h
  rw [normalized, trimmed_trimmed, hvalid]
  rfl

end AvatarReactionProfile

end Normalize

section Settings

/-- JSON texts `τ`, and the numbers in them. -/
structure Codec (ν τ : Type) where
  print : Json ν → τ
  parse : τ → Except String (Json ν)
  ofU32 : ℕ → ν
  toU32 : ν → Option ℕ
  ofF32 : F32 → ν
  toF32 : ν → Option F32
  invalid : String

variable {ν τ : Type} (codec : Codec ν τ)

def AvatarMotion.name : AvatarMotion → String
  | .still => "still"
  | .pulse => "pulse"
  | .bounce => "bounce"
  | .shake => "shake"

def text (value : Str) : Json ν := .str (String.ofList value)

def AvatarAction.toJson (action : AvatarAction) : Json ν :=
  .obj [("motion", .str action.motion.name), ("message", text action.message),
    ("expression", text action.expression)]

/-- The legacy path is not written, and what is no finite number becomes null. -/
def AvatarReactionProfile.members (profile : AvatarReactionProfile) : List (String × Json ν) :=
  [("schema_version", .num (codec.ofU32 profile.schemaVersion)),
    ("model_name", text profile.modelName), ("model_path", text profile.modelPath),
    ("animation_paths", .arr (profile.animationPaths.map text)),
    ("shader_path", text profile.shaderPath),
    ("animation_crossfade_seconds",
      if profile.animationCrossfadeSeconds.isFinite then
        .num (codec.ofF32 profile.animationCrossfadeSeconds)
      else .null),
    ("spring_bone_enabled", .bool profile.springBoneEnabled),
    ("look_at_enabled", .bool profile.lookAtEnabled), ("idle", profile.idle.toJson),
    ("warning", profile.warning.toJson), ("critical", profile.critical.toJson)]

def AvatarReactionProfile.toJson (profile : AvatarReactionProfile) : Json ν :=
  .obj (profile.members codec)

/-- The JSON of a profile is read as it was printed, and so are its numbers. -/
structure Codec.Keeps (codec : Codec ν τ) (profile : AvatarReactionProfile) : Prop where
  parse_print : codec.parse (codec.print (profile.toJson codec)) = .ok (profile.toJson codec)
  toU32_ofU32 : codec.toU32 (codec.ofU32 profile.schemaVersion) = some profile.schemaVersion
  toF32_ofF32 : codec.toF32 (codec.ofF32 profile.animationCrossfadeSeconds) =
    some profile.animationCrossfadeSeconds

/-- A struct is an object, or an array of at most so many fields in their order. -/
def asStruct (count : ℕ) : Json ν → Option (Json ν)
  | .obj members => some (.obj members)
  | .arr items => if items.length ≤ count then some (.arr items) else none
  | _ => none

/-- A field of a struct, with the value it has when it is not there. No field is named twice. -/
def field {α : Type} (value : Json ν) (index : ℕ) (key : String) (read : Json ν → Option α)
    (missing : α) : Option α :=
  match value with
  | .obj members =>
    match members.filter (·.1 = key) with
    | [] => some missing
    | [member] => read member.2
    | _ => none
  | .arr items => (items[index]?).elim (some missing) read
  | _ => none

def readText (value : Json ν) : Option Str := value.asStr.map String.toList

/-- A variant is named by a text, or by the member of an object that has nothing else to say. -/
def readMotion (value : Json ν) : Option AvatarMotion :=
  let name := match value with
    | .str name | .obj [(name, .null)] => some name
    | _ => none
  name.bind fun name =>
    [AvatarMotion.still, .pulse, .bounce, .shake].find? fun motion => motion.name = name

def readAction (value : Json ν) : Option AvatarAction := do
  let value ← asStruct 3 value
  let motion ← field value 0 "motion" readMotion .still
  let message ← field value 1 "message" readText []
  let expression ← field value 2 "expression" readText []
  return ⟨motion, message, expression⟩

def readProfile (value : Json ν) : Option AvatarReactionProfile := do
  let value ← asStruct 12 value
  let missing : AvatarReactionProfile := {}
  let schemaVersion ← field value 0 "schema_version" (·.asNumber.bind codec.toU32)
    missing.schemaVersion
  let modelName ← field value 1 "model_name" readText missing.modelName
  let modelPath ← field value 2 "model_path" readText missing.modelPath
  let animationPath ← field value 3 "animation_path" readText missing.animationPath
  let animationPaths ← field value 4 "animation_paths"
    (fun value => value.asArray.bind (·.mapM readText)) missing.animationPaths
  let shaderPath ← field value 5 "shader_path" readText missing.shaderPath
  let animationCrossfadeSeconds ← field value 6 "animation_crossfade_seconds"
    (·.asNumber.bind codec.toF32) missing.animationCrossfadeSeconds
  let springBoneEnabled ← field value 7 "spring_bone_enabled" Json.asBool
    missing.springBoneEnabled
  let lookAtEnabled ← field value 8 "look_at_enabled" Json.asBool missing.lookAtEnabled
  let idle ← field value 9 "idle" readAction missing.idle
  let warning ← field value 10 "warning" readAction missing.warning
  let critical ← field value 11 "critical" readAction missing.critical
  return ⟨schemaVersion, modelName, modelPath, animationPath, animationPaths, shaderPath,
    animationCrossfadeSeconds, springBoneEnabled, lookAtEnabled, idle, warning, critical⟩

/-- The table of the settings: at most one value under a key. -/
abbrev AppSettings (τ : Type) := String → Option τ

def avatarProfileKey : String := "skid-monitor.avatar-reaction-profile.v1"

/-- The result of a statement, or what the database says when it fails. -/
def execute {α : Type} (failure : Option String) (context : String) (result : α) :
    Except String α :=
  match failure with
  | some error => .error s!"{context}: {error}"
  | none => .ok result

def saveAvatarProfile (failure : Option String) (profile : AvatarReactionProfile)
    (settings : AppSettings τ) : Except String (AppSettings τ) :=
  execute failure "failed to save avatar reaction profile"
    (Function.update settings avatarProfileKey (some (codec.print (profile.toJson codec))))

def decodeProfile (value : τ) : Except String AvatarReactionProfile :=
  (codec.parse value >>= fun json => orError codec.invalid (readProfile codec json)).mapError
    fun error => s!"failed to decode avatar reaction profile: {error}"

def loadAvatarProfile (extension : Str → Option Str) (failure : Option String)
    (settings : AppSettings τ) : Except String (Option AvatarReactionProfile) := do
  match ← execute failure "failed to read avatar reaction profile" (settings avatarProfileKey) with
  | none => return none
  | some value =>
    let profile ← decodeProfile codec value
    let profile ← (profile.normalized extension).mapError fun error =>
      s!"invalid avatar reaction profile: {error}"
    return some profile

section RoundTrip

variable {codec}

theorem bind_of_some {α β : Type} {x : Option α} {f : α → Option β} {a : α} {y : Option β}
    (hx : x = some a) (hf : f a = y) : (x >>= f) = y := by
  rw [hx]
  exact hf

theorem field_of_filter {α : Type} {members : List (String × Json ν)} {index : ℕ} {key : String}
    {read : Json ν → Option α} {missing : α} {value : Json ν}
    (h : members.filter (·.1 = key) = [(key, value)]) :
    field (.obj members) index key read missing = read value := by
  simp only [field, h]

theorem readText_text (value : Str) : readText (text value : Json ν) = some value := by
  simp [readText, text, Json.asStr]

theorem readMotion_name (motion : AvatarMotion) :
    readMotion (.str motion.name : Json ν) = some motion := by
  cases motion <;> rfl

theorem readAction_toJson (action : AvatarAction) :
    readAction (action.toJson : Json ν) = some action := by
  simp [readAction, AvatarAction.toJson, asStruct, field, readText_text, readMotion_name]

theorem readTexts (values : List Str) :
    (values.map (text : Str → Json ν)).mapM readText = some values := by
  induction values with
  | nil => rfl
  | cons value values ih => simp [readText_text, ih]

/-- A profile is read back as it was written, but for the legacy path. -/
theorem readProfile_toJson {profile : AvatarReactionProfile} (hcodec : codec.Keeps profile)
    (hfinite : profile.animationCrossfadeSeconds.isFinite) :
    readProfile codec (profile.toJson codec) = some { profile with animationPath := [] } := by
  have hcross : field (profile.toJson codec) 6 "animation_crossfade_seconds"
      (·.asNumber.bind codec.toF32) defaultCrossfade = some profile.animationCrossfadeSeconds := by
    rw [AvatarReactionProfile.toJson, field_of_filter rfl, if_pos hfinite]
    exact hcodec.toF32_ofF32
  have hschema : field (profile.toJson codec) 0 "schema_version" (·.asNumber.bind codec.toU32)
      profileSchemaVersion = some profile.schemaVersion := by
    rw [AvatarReactionProfile.toJson, field_of_filter rfl]
    exact hcodec.toU32_ofU32
  have hpaths : field (profile.toJson codec) 4 "animation_paths"
      (fun value => value.asArray.bind (·.mapM readText)) [] = some profile.animationPaths := by
    rw [AvatarReactionProfile.toJson, field_of_filter rfl]
    exact readTexts _
  have htext : ∀ {index : ℕ} {key : String} {value missing : Str},
      (profile.members codec).filter (·.1 = key) = [(key, text value)] →
      field (profile.toJson codec) index key readText missing = some value := by
    intro index key value missing h
    rw [AvatarReactionProfile.toJson, field_of_filter h, readText_text]
  have haction : ∀ {index : ℕ} {key : String} {action missing : AvatarAction},
      (profile.members codec).filter (·.1 = key) = [(key, action.toJson)] →
      field (profile.toJson codec) index key readAction missing = some action := by
    intro index key action missing h
    rw [AvatarReactionProfile.toJson, field_of_filter h, readAction_toJson]
  refine bind_of_some rfl (bind_of_some hschema (bind_of_some (htext rfl)
    (bind_of_some (htext rfl) (bind_of_some rfl (bind_of_some hpaths (bind_of_some (htext rfl)
    (bind_of_some hcross (bind_of_some rfl (bind_of_some rfl (bind_of_some (haction rfl)
    (bind_of_some (haction rfl) (bind_of_some (haction rfl) rfl))))))))))))

/-- What is saved of a profile without a legacy path is loaded as its normal form. -/
theorem load_save {extension : Str → Option Str} {profile : AvatarReactionProfile}
    (hcodec : codec.Keeps profile) (hlegacy : profile.animationPath = [])
    (hfinite : profile.animationCrossfadeSeconds.isFinite)
    (hnormal : profile.normalized extension = .ok profile) (settings : AppSettings τ) :
    (saveAvatarProfile codec none profile settings >>= loadAvatarProfile codec extension none) =
      .ok (some profile) := by
  have hsame : { profile with animationPath := [] } = profile := by rw [← hlegacy]
  have hdecode : decodeProfile codec (codec.print (profile.toJson codec)) = .ok profile := by
    rw [decodeProfile, hcodec.parse_print, ok_bind, readProfile_toJson hcodec hfinite, hsame]
    rfl
  rw [saveAvatarProfile, execute, ok_bind, loadAvatarProfile, execute, Function.update_self,
    ok_bind]
  simp only [hdecode, ok_bind, hnormal, Except.mapError]
  rfl

end RoundTrip

end Settings

theorem check_ok {condition : Bool} {message : String} (h : check condition message = .ok ()) :
    condition := by
  cases condition with
  | true => rfl
  | false => cases h

theorem AvatarReactionProfile.validate_finite {extension : Str → Option Str}
    {profile : AvatarReactionProfile} (h : profile.validate extension = .ok ()) :
    profile.animationCrossfadeSeconds.isFinite := by
  obtain ⟨_, -, h⟩ := bind_ok h
  obtain ⟨_, -, h⟩ := bind_ok h
  obtain ⟨_, -, h⟩ := bind_ok h
  obtain ⟨_, hcrossfade, -⟩ := bind_ok h
  have hall := check_ok hcrossfade
  simp only [Bool.and_eq_true] at hall
  exact hall.1.1

/-- A normal profile is valid and its own normal form; its animation paths are the distinct ones
that were given, or else the legacy one; and it is loaded as it was saved. -/
theorem normalized_profile_kept {ν τ : Type} {codec : Codec ν τ}
    {extension : Str → Option Str} {profile normal : AvatarReactionProfile}
    (hcodec : codec.Keeps normal) (h : profile.normalized extension = .ok normal) :
    normal.validate extension = .ok () ∧ normal.normalized extension = .ok normal ∧
    normal.animationPath = [] ∧ (∀ path ∈ normal.animationPaths, Text.trim path ≠ []) ∧
    normal.animationPaths.Nodup ∧
    normal.animationPaths =
      (if distinctPaths profile.animationPaths = [] ∧ Text.trim profile.animationPath ≠ [] then
        [Text.trim profile.animationPath]
      else distinctPaths profile.animationPaths) ∧
    ∀ settings, (saveAvatarProfile codec none normal settings >>=
      loadAvatarProfile codec extension none) = .ok (some normal) := by
  have hnormal := AvatarReactionProfile.normalized_normal h
  obtain ⟨rfl, hvalid⟩ := AvatarReactionProfile.normalized_ok h
  have hpaths : Distinct profile.trimmed.animationPaths :=
    migratedPaths_distinct profile.animationPath profile.animationPaths
  refine ⟨hvalid, hnormal, rfl, fun path hpath => ?_, hpaths.nodup, migratedPaths_eq _ _,
    load_save hcodec rfl (AvatarReactionProfile.validate_finite hvalid) hnormal⟩
  rw [hpaths.trimmed path hpath]
  exact hpaths.nonempty path hpath

namespace Sample

/-- What follows the last full stop. -/
def extension (path : Str) : Option Str := (path.splitOn '.').getLast?

/-- A profile of the second schema, with blanks and a repeated path. -/
def given : AvatarReactionProfile where
  schemaVersion := 2
  modelPath := " a.vrm ".toList
  animationPath := "d.vrma".toList
  animationPaths := ["b.vrma ".toList, "c.vrma".toList, " ".toList, "b.vrma".toList]

def kept : AvatarReactionProfile where
  modelPath := "a.vrm".toList
  animationPaths := ["b.vrma".toList, "c.vrma".toList]

def keptText : Str :=
  ["\x7b\"schema_version\":4,\"model_name\":\"Skid\",\"model_path\":\"a.vrm\",",
    "\"animation_paths\":[\"b.vrma\",\"c.vrma\"],\"shader_path\":\"\",",
    "\"animation_crossfade_seconds\":0.25,\"spring_bone_enabled\":true,\"look_at_enabled\":true,",
    "\"idle\":\x7b\"motion\":\"still\",\"message\":\"All systems look calm.\",",
    "\"expression\":\"neutral\"\x7d,\"warning\":\x7b\"motion\":\"pulse\",",
    "\"message\":\"A warning needs attention.\",\"expression\":\"surprised\"\x7d,",
    "\"critical\":\x7b\"motion\":\"shake\",\"message\":\"Critical condition detected!\",",
    "\"expression\":\"angry\"\x7d\x7d"].flatMap String.toList

/-- A printer and a parser that know one value and its text. -/
def printOne (json : Json Str) (text : Str) (value : Json Str) : Str :=
  if value.eqBy (fun a b => a = b) json then text else []

def parseOne (json : Json Str) (text given : Str) : Except String (Json Str) :=
  if given = text then .ok json else .error "unknown text"

theorem parseOne_printOne (json : Json Str) (text : Str) :
    parseOne json text (printOne json text json) = .ok json := by
  rw [printOne, if_pos (Json.eqBy_refl (fun a => by simp) json), parseOne, if_pos rfl]

/-- The two numbers of the profile, as their texts. -/
def numbers : Codec Str Str where
  print _ := []
  parse _ := .error "unknown text"
  ofU32 n := if n = 4 then ['4'] else []
  toU32 text := if text = ['4'] then some 4 else none
  ofF32 x := if x = defaultCrossfade then "0.25".toList else []
  toF32 text := if text = "0.25".toList then some defaultCrossfade else none
  invalid := "invalid type"

def codec : Codec Str Str :=
  { numbers with
    print := printOne (kept.toJson numbers) keptText
    parse := parseOne (kept.toJson numbers) keptText }

theorem normalized_profile_kept_repeated : given.normalized extension = .ok kept ∧
    (saveAvatarProfile codec none kept (fun _ => none) >>=
      loadAvatarProfile codec extension none) = .ok (some kept) := by
  have hnormal : given.normalized extension = .ok kept := by decide
  have hjson : kept.toJson codec = kept.toJson numbers := rfl
  have hparse : codec.parse (codec.print (kept.toJson codec)) = .ok (kept.toJson codec) := by
    have hfields : codec.parse = parseOne (kept.toJson numbers) keptText ∧
      codec.print = printOne (kept.toJson numbers) keptText := ⟨rfl, rfl⟩
    rw [hjson, hfields.1, hfields.2, parseOne_printOne]
  have hcodec : codec.Keeps kept := ⟨hparse, by decide, by decide⟩
  obtain ⟨-, -, -, -, -, -, hload⟩ := normalized_profile_kept hcodec hnormal
  exact ⟨hnormal, hload _⟩

end Sample

end SkidMonitor.Client.Profile
