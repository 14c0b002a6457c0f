import SkidMonitor.Client.VrmHumanoid
import SkidMonitor.Lib.Bytes

/-! The container of a VRM file: its header, its JSON chunk, and the file that is written again
without the extensions it requires. -/
namespace SkidMonitor.Client.Vrm

open Fallible Bytes List

/-- Fails with this message unless the condition holds. -/
def ensure (condition : Bool) (message : String) : LoadM Unit :=
  if condition then .ok () else .error (.failed message)

def readU32 (bytes : List UInt8) (offset : ℕ) : LoadM ℕ :=
  match (bytes.drop offset).take 4 with
  | [a, b, c, d] => .ok (u32FromLe a b c d).toNat
  | _ => .error (.failed "VRM GLB header is truncated")

def glbMagic : List UInt8 := [0x67, 0x6C, 0x54, 0x46]

def jsonChunk : UInt32 := 0x4E4F534A

section Serde

variable (fromSlice : List UInt8 → Except String Value) (toVec : Value → Except String (List UInt8))

def parseGlbRoot (bytes : List UInt8) : LoadM Value := do
  ensure (20 ≤ bytes.length && bytes.take 4 == glbMagic) "VRM must be a binary glTF 2.0 file"
  let version ← readU32 bytes 4
  ensure (version == 2) s!"VRM GLB version {version} is not supported"
  let declaredLength ← readU32 bytes 8
  ensure (declaredLength == bytes.length) "VRM GLB declared length does not match the file"
  let jsonLength ← readU32 bytes 12
  let chunk ← readU32 bytes 16
  ensure (chunk == jsonChunk.toNat) "VRM GLB first chunk must be JSON"
  ensure (20 + jsonLength ≤ bytes.length) "VRM JSON chunk is truncated"
  (fromSlice ((bytes.drop 20).take jsonLength)).mapError fun error =>
    .failed s!"invalid VRM JSON chunk: {error}"

/-- The file without the list of the extensions it requires. -/
def withoutExtensionsRequired : Value → Value
  | .obj members => .obj (members.filter (·.1 != "extensionsRequired"))
  | root => root

/-- Blanks until the length is a multiple of four; three are enough. -/
def padJson : ℕ → List UInt8 → List UInt8
  | 0, json => json
  | rounds + 1, json => if json.length % 4 ≠ 0 then padJson rounds (json ++ [0x20]) else json

def glbWithoutValidatedRequiredExtensions (bytes : List UInt8) (root : Value) :
    LoadM (List UInt8) := do
  let originalJsonLength ← readU32 bytes 12
  let tailStart := 20 + originalJsonLength
  ensure (tailStart ≤ bytes.length) "VRM JSON chunk is truncated"
  let json ← (toVec (withoutExtensionsRequired root)).mapError fun error =>
    .failed s!"failed to validate VRM JSON: {error}"
  let json := padJson 3 json
  let totalLength := 12 + 8 + json.length + (bytes.length - tailStart)
  ensure (totalLength < 2 ^ 64) "sanitized VRM GLB length overflowed"
  ensure (totalLength < 2 ^ 32) "sanitized VRM GLB is too large"
  ensure (json.length < 2 ^ 32) "sanitized VRM JSON is too large"
  return glbMagic ++ u32ToLe 2 ++ u32ToLe (UInt32.ofNat totalLength) ++
    u32ToLe (UInt32.ofNat json.length) ++ u32ToLe jsonChunk ++ json ++ bytes.drop tailStart

end Serde

theorem ensure_ok {condition : Bool} {message : String} :
    ensure condition message = .ok () ↔ condition := by
  cases condition <;> simp [ensure]

theorem ensure_bind {α : Type} {condition : Bool} {message : String} {next : Unit → LoadM α}
    (h : condition) : (ensure condition message >>= next) = next () := by
  rw [ensure_ok.mpr h]
  rfl

theorem padJson_eq (rounds : ℕ) (json : List UInt8) :
    ∃ n, padJson rounds json = json ++ List.replicate n 0x20 := by
  induction rounds generalizing json with
  | zero => exact ⟨0, by simp [padJson]⟩
  | succ rounds ih =>
    rw [padJson]
    split_ifs with h
    · obtain ⟨n, hn⟩ := ih (json ++ [0x20])
      exact ⟨n + 1, by rw [hn, append_assoc, replicate_succ]; rfl⟩
    · exact ⟨0, by simp⟩

theorem padJson_aligned {rounds missing : ℕ} {json : List UInt8}
    (h : (json.length + missing) % 4 = 0) (hle : missing ≤ rounds) :
    (padJson rounds json).length % 4 = 0 := by
  induction rounds generalizing json missing with
  | zero =>
    obtain rfl := Nat.le_zero.mp hle
    exact h
  | succ rounds ih =>
    rw [padJson]
    split_ifs with hlength
    · cases missing with
      | zero => exact absurd h hlength
      | succ missing =>
        have hnext : ((json ++ [0x20]).length + missing) % 4 = 0 := by
          rw [length_append, length_singleton, Nat.add_assoc, Nat.add_comm 1]
          exact h
        exact ih hnext (Nat.le_of_succ_le_succ hle)
    · exact not_not.mp hlength

/-- A file with this JSON chunk and this rest behind it. -/
def glbFile (json tail : List UInt8) : List UInt8 :=
  glbMagic ++ u32ToLe 2 ++ u32ToLe (UInt32.ofNat (20 + json.length + tail.length)) ++
    u32ToLe (UInt32.ofNat json.length) ++ u32ToLe jsonChunk ++ json ++ tail

theorem withoutExtensionsRequired_eq_self {root : Value}
    (h : root.get "extensionsRequired" = none) : withoutExtensionsRequired root = root := by
  cases root with
  | obj members =>
    have hkeys := lookup_eq_none_iff.mp h
    refine congrArg Json.obj (filter_eq_self.mpr fun m hm => ?_)
    simpa [bne_iff_ne, ne_comm] using hkeys m hm
  | _ => rfl

section File

variable {json tail : List UInt8}

theorem length_glbFile : (glbFile json tail).length = 20 + json.length + tail.length := by
  simp [glbFile, glbMagic]
  omega

theorem readU32_toLe {bytes rest : List UInt8} {offset : ℕ} {x : UInt32}
    (h : bytes.drop offset = u32ToLe x ++ rest) : readU32 bytes offset = .ok x.toNat := by
  rw [readU32, h]
  exact congrArg (fun x : UInt32 => Except.ok x.toNat) (u32FromLe_toLe x)

theorem readU32_length (hsize : 20 + json.length + tail.length < 2 ^ 32) :
    readU32 (glbFile json tail) 8 = .ok (glbFile json tail).length := by
  rw [length_glbFile, readU32_toLe rfl, UInt32.toNat_ofNat', Nat.mod_eq_of_lt hsize]

theorem readU32_jsonLength (hsize : json.length < 2 ^ 32) :
    readU32 (glbFile json tail) 12 = .ok json.length := by
  rw [readU32_toLe rfl, UInt32.toNat_ofNat', Nat.mod_eq_of_lt hsize]

theorem drop_glbFile : (glbFile json tail).drop (20 + json.length) = tail := by
  rw [← drop_drop]
  exact drop_left

/-- A file of fitting size is accepted with what its chunk holds. -/
theorem parseGlbRoot_glbFile {fromSlice : List UInt8 → Except String Value} {root : Value}
    (hsize : 20 + json.length + tail.length < 2 ^ 32) (hroot : fromSlice json = .ok root) :
    parseGlbRoot fromSlice (glbFile json tail) = .ok root := by
  have hjson : ((glbFile json tail).drop 20).take json.length = json := take_left
  have hlength := @length_glbFile json tail
  have hstart : (20 ≤ (glbFile json tail).length &&
      (glbFile json tail).take 4 == glbMagic) = true := by
    rw [hlength, Bool.and_eq_true, decide_eq_true_iff]
    exact ⟨by omega, rfl⟩
  have hversion : readU32 (glbFile json tail) 4 = .ok 2 := rfl
  have hchunk : readU32 (glbFile json tail) 16 = .ok jsonChunk.toNat := readU32_toLe rfl
  have hend : decide (20 + json.length ≤ (glbFile json tail).length) = true :=
    decide_eq_true (by omega)
  rw [parseGlbRoot, ensure_bind hstart, hversion, ok_bind, ensure_bind (beq_self_eq_true 2),
    readU32_length hsize, ok_bind, ensure_bind (beq_self_eq_true _),
    readU32_jsonLength (by omega), ok_bind, hchunk, ok_bind, ensure_bind (beq_self_eq_true _),
    ensure_bind hend, hjson, hroot]
  rfl

end File

theorem rewritten_eq {toVec : Value → Except String (List UInt8)} {bytes out : List UInt8}
    {root : Value} (h : glbWithoutValidatedRequiredExtensions toVec bytes root = .ok out) :
    ∃ jsonLength json, readU32 bytes 12 = .ok jsonLength ∧ 20 + jsonLength ≤ bytes.length ∧
      toVec (withoutExtensionsRequired root) = .ok json ∧
      20 + (padJson 3 json).length + (bytes.drop (20 + jsonLength)).length < 2 ^ 32 ∧
      out = glbFile (padJson 3 json) (bytes.drop (20 + jsonLength)) := by
  obtain ⟨jsonLength, hread, h⟩ := bind_ok h
  obtain ⟨_, hfits, h⟩ := bind_ok h
  obtain ⟨json, hvec, h⟩ := bind_ok h
  obtain ⟨-, -, h⟩ := bind_ok h
  obtain ⟨_, hsize, h⟩ := bind_ok h
  obtain ⟨-, -, h⟩ := bind_ok h
  have hfits' : 20 + jsonLength ≤ bytes.length := of_decide_eq_true (ensure_ok.mp hfits)
  have hsize' := of_decide_eq_true (ensure_ok.mp hsize)
  refine ⟨jsonLength, json, hread, hfits', mapError_ok hvec, ?_, ?_⟩
  · rw [length_drop]
    exact hsize'
  · rw [glbFile, length_drop]
    exact (Except.ok.inj h).symm

/-- Whatever value is written, the file is accepted with that value without the required
extensions; its JSON chunk is aligned, its length is the declared one, and what follows the chunk is
unchanged. -/
theorem glb_rewriting {fromSlice : List UInt8 → Except String Value}
    {toVec : Value → Except String (List UInt8)}
    (hserde : ∀ value json, toVec value = .ok json →
      ∀ n, fromSlice (json ++ List.replicate n 0x20) = .ok value)
    {bytes out : List UInt8} {root : Value}
    (h : glbWithoutValidatedRequiredExtensions toVec bytes root = .ok out) :
    parseGlbRoot fromSlice out = .ok (withoutExtensionsRequired root) ∧
      (root.get "extensionsRequired" = none → withoutExtensionsRequired root = root) ∧
      readU32 out 8 = .ok out.length ∧
      ∃ oldLength newLength, readU32 bytes 12 = .ok oldLength ∧ readU32 out 12 = .ok newLength ∧
        newLength % 4 = 0 ∧ 20 + newLength ≤ out.length ∧
        out.drop (20 + newLength) = bytes.drop (20 + oldLength) := by
  obtain ⟨oldLength, json, hread, -, hvec, hsize, rfl⟩ := rewritten_eq h
  obtain ⟨n, hpad⟩ := padJson_eq 3 json
  have hroot := hserde _ _ hvec n
  rw [← hpad] at hroot
  refine ⟨parseGlbRoot_glbFile hsize hroot, withoutExtensionsRequired_eq_self,
    readU32_length hsize, oldLength, _, hread, readU32_jsonLength (by omega), ?_, ?_, drop_glbFile⟩
  · have hmissing : (json.length + (4 - json.length % 4) % 4) % 4 = 0 := by omega
    exact padJson_aligned hmissing (by omega)
  · rw [length_glbFile]
    omega

/-- A root with required extensions and one without, and their JSON texts. -/
def sampleRoots : List (Value × List UInt8) :=
  [(.obj [("extensionsRequired", .arr [])], Text.toUtf8 "\x7b\"extensionsRequired\":[]\x7d".toList),
    (.obj [], Text.toUtf8 "\x7b\x7d".toList)]

/-- Blanks behind a text are ignored. -/
def sampleFromSlice (json : List UInt8) : Except String Value :=
  (sampleRoots.find? (·.2 = json.rdropWhile (· = 0x20))).elim (.error "unknown text") fun row =>
    .ok row.1

def sampleToVec : Value → Except String (List UInt8)
  | .obj [] => .ok (Text.toUtf8 "\x7b\x7d".toList)
  | _ => .error "unknown value"

/-- A file with a chunk of 25 bytes and three bytes behind it. -/
def sampleFile : List UInt8 :=
  glbFile (Text.toUtf8 "\x7b\"extensionsRequired\":[]\x7d".toList) [6, 7, 8]

theorem glb_rewriting_unaligned : ∃ root out,
    parseGlbRoot sampleFromSlice sampleFile = .ok root ∧
    glbWithoutValidatedRequiredExtensions sampleToVec sampleFile root = .ok out ∧
    parseGlbRoot sampleFromSlice out = .ok (.obj []) ∧ out.drop 24 = [6, 7, 8] := by
  have hserde : ∀ value json, sampleToVec value = .ok json →
      ∀ n, sampleFromSlice (json ++ List.replicate n 0x20) = .ok value := by
    intro value json hvec n
    unfold sampleToVec at hvec
    split at hvec
    · cases hvec
      have hblank : (Text.toUtf8 "\x7b\x7d".toList ++ List.replicate n 0x20).rdropWhile (· = 0x20) =
          Text.toUtf8 "\x7b\x7d".toList := by
        induction n with
        | zero => rfl
        | succ n ih =>
          rw [replicate_succ', ← append_assoc, rdropWhile_concat_pos _ _ _ rfl]
          exact ih
      rw [sampleFromSlice, hblank]
      rfl
    · cases hvec
  have hwrite : glbWithoutValidatedRequiredExtensions sampleToVec sampleFile
      (.obj [("extensionsRequired", .arr [])]) =
        .ok (glbFile (Text.toUtf8 "\x7b\x7d  ".toList) [6, 7, 8]) := rfl
  exact ⟨_, _, rfl, hwrite, (glb_rewriting hserde hwrite).1, rfl⟩

end SkidMonitor.Client.Vrm
