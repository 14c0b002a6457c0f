import SkidMonitor.Core.Projection
import SkidMonitor.Lib.Json
import SkidMonitor.Lib.Number

/-! The errors of the store, and how a signal is made into the JSON value it is stored
as. Serialisation is given by a `Serde`; only what the store does with it is fixed. -/
namespace SkidMonitor

open List

open Numbers (Decimal Literal Number)

inductive DbError where
  | connection
  | rowNotFound
  | invalidText
  | numericOutOfRange
  | columnDecode
  | checkViolation (constraint : String)
  | uniqueViolation (constraint : String)
  deriving DecidableEq, Repr

inductive PgStoreError where
  | database (error : DbError)
  | json
  | invalidSignalPayload
  | signalPayloadNotRoundTripSafe
  | signalPayloadTooLarge (actualBytes maxBytes : ℕ)
  | soloScope
  | tenantDisabled (tenantId : TenantId)
  | agentNotEnrolled (agentId : AgentId)
  | agentDisabled (agentId : AgentId)
  | agentLimitReached (tenantId : TenantId) (maxAgents : ℕ)
  | sequenceConflict (agentId : AgentId) (sequence : UInt64)
  | integerOutOfRange (field : String)
  | invalidAgentId (message : String)
  | invalidActorId
  | invalidStreamTicketSubject
  | invalidStreamTicketTtl
  | invalidStreamTicketAuthorizationExpiry
  | streamTicketAuthorizationExpired
  | corruptRow (field : String)
  deriving DecidableEq, Repr

abbrev Value := Json Number

/-- The JSON library at the type `Signal`: the chunks it writes, with a flag that says
whether it then fails by itself, and what it reads. A number may be out of its range. -/
structure Serde where
  toWriter : Signal → List (List UInt8) × Bool
  signalFromSlice : List UInt8 → Option Signal
  valueFromSlice : List UInt8 → Option Value
  signalFromValue : Value → Option Signal
  numberFromText : Literal → Option Number

def maxStoredSignalJsonBytes : ℕ := 16 * 1024 * 1024

structure BoundedPayloadWriter where
  bytes : List UInt8
  overflowed : Bool
  deriving DecidableEq, Repr

namespace BoundedPayloadWriter

def new : BoundedPayloadWriter := ⟨[], false⟩

/-- Returns the writer afterwards and whether the write succeeded. -/
def write (w : BoundedPayloadWriter) (buffer : List UInt8) : BoundedPayloadWriter × Bool :=
  let remaining := maxStoredSignalJsonBytes - w.bytes.length
  let retained := min remaining buffer.length
  let bytes := w.bytes ++ buffer.take retained
  if retained < buffer.length then (⟨bytes, true⟩, false) else (⟨bytes, w.overflowed⟩, true)

/-- Writes chunk after chunk up to the first failure. -/
def writeAll (w : BoundedPayloadWriter) : List (List UInt8) → BoundedPayloadWriter × Bool
  | [] => (w, true)
  | chunk :: chunks =>
    match w.write chunk with
    | (w, true) => w.writeAll chunks
    | (w, false) => (w, false)

/-- `write_all` of the standard library: what a call has not taken is written by further calls, and
a call that takes nothing is an error. -/
def writeBuffer (w : BoundedPayloadWriter) (buffer : List UInt8) : BoundedPayloadWriter × Bool :=
  if _ : buffer = [] then (w, true)
  else
    match w.write buffer with
    | (w', false) => (w', false)
    | (w', true) =>
      let taken := min (maxStoredSignalJsonBytes - w.bytes.length) buffer.length
      if taken = 0 then (w', false) else w'.writeBuffer (buffer.drop taken)
termination_by buffer.length
decreasing_by
  have := length_pos_iff.mpr ‹buffer ≠ []›
  rw [length_drop]
  omega

/-- Writes chunk after chunk, also after one has failed. -/
def writeChunks (w : BoundedPayloadWriter) : List (List UInt8) → BoundedPayloadWriter × List Bool
  | [] => (w, [])
  | chunk :: chunks =>
    let out := w.writeBuffer chunk
    let rest := out.1.writeChunks chunks
    (rest.1, out.2 :: rest.2)

end BoundedPayloadWriter

def validateSignalPayloadSize (actualBytes : ℕ) : Except PgStoreError Unit :=
  if actualBytes > maxStoredSignalJsonBytes then
    .error (.signalPayloadTooLarge actualBytes maxStoredSignalJsonBytes)
  else .ok ()

def serializeSignalBounded (sd : Serde) (payload : Signal) : Except PgStoreError (List UInt8) :=
  let out := BoundedPayloadWriter.new.writeAll (sd.toWriter payload).1
  if !out.2 || (sd.toWriter payload).2 then
    if out.1.overflowed then
      .error (.signalPayloadTooLarge (maxStoredSignalJsonBytes + 1) maxStoredSignalJsonBytes)
    else .error .invalidSignalPayload
  else do
    validateSignalPayloadSize out.1.bytes.length
    return out.1.bytes

structure CanonicalSignalPayload where
  value : Value
  byteLen : ℕ

def canonicalSignalPayload (sd : Serde) (payload : Signal) :
    Except PgStoreError CanonicalSignalPayload := do
  let encoded ← serializeSignalBounded sd payload
  let decoded ← (sd.signalFromSlice encoded).elim (throw .invalidSignalPayload) pure
  let roundTrip ← serializeSignalBounded sd decoded
  if roundTrip ≠ encoded then
    throw .signalPayloadNotRoundTripSafe
  let value ← (sd.valueFromSlice encoded).elim (throw .invalidSignalPayload) pure
  return ⟨value, encoded.length⟩

/-- The JSON value a signal is written as. -/
def Serde.json (sd : Serde) (signal : Signal) : Option Value :=
  if (sd.toWriter signal).2 then none else sd.valueFromSlice (sd.toWriter signal).1.flatten

/-- Numbers compared by value, whichever way they are written. -/
def sameValue (n m : Number) : Bool := n.value = m.value

/-- What the JSON library promises of writing signals: they are objects, since the kind
is the tag of the value, and no text is empty. -/
structure Serde.Tagged (sd : Serde) : Prop where
  empty : sd.valueFromSlice [] = none
  object : ∀ {signal value}, sd.json signal = some value → ∃ members, value = .obj members

namespace BoundedPayloadWriter

/-- The writer that was given these bytes. -/
def given (bytes : List UInt8) : BoundedPayloadWriter :=
  ⟨bytes.take maxStoredSignalJsonBytes, decide (maxStoredSignalJsonBytes < bytes.length)⟩

theorem new_eq : new = given [] := rfl

variable {bytes : List UInt8}

theorem write_given (buffer : List UInt8) : (given bytes).write buffer =
    (given (bytes ++ buffer),
      decide (buffer = [] ∨ (bytes ++ buffer).length ≤ maxStoredSignalJsonBytes)) := by
  have hnil : buffer = [] ↔ buffer.length = 0 := length_eq_zero_iff.symm
  have htake : (bytes ++ buffer).take maxStoredSignalJsonBytes =
      bytes.take maxStoredSignalJsonBytes ++ buffer.take (min (maxStoredSignalJsonBytes -
        (bytes.take maxStoredSignalJsonBytes).length) buffer.length) := by
    rw [take_append, length_take, ← take_eq_take_min]
    congr 2
    omega
  unfold write given
  rw [htake, length_append]
  simp only [length_take]
  split_ifs with hfull
  · rw [decide_eq_true (by omega), decide_eq_false (by rw [hnil]; omega)]
  · have hsame : maxStoredSignalJsonBytes < bytes.length + buffer.length ↔
        maxStoredSignalJsonBytes < bytes.length := by omega
    have hok : buffer = [] ∨ bytes.length + buffer.length ≤ maxStoredSignalJsonBytes := by
      rw [hnil]
      omega
    rw [decide_eq_decide.mpr hsame, decide_eq_true hok]

/-- Every buffer is written by one call at most. -/
theorem writeBuffer_eq (w : BoundedPayloadWriter) (buffer : List UInt8) :
    w.writeBuffer buffer = w.write buffer := by
  by_cases hempty : buffer = []
  · subst hempty
    simp [writeBuffer, write]
  · have hpos := length_pos_iff.mpr hempty
    rw [writeBuffer, dif_neg hempty]
    cases hwrite : w.write buffer with
    | mk w' ok =>
      cases ok with
      | false => rfl
      | true =>
        have hall : buffer.length ≤ maxStoredSignalJsonBytes - w.bytes.length := by
          by_contra hfull
          simp only [write] at hwrite
          rw [if_pos (by omega)] at hwrite
          cases hwrite
        dsimp only
        rw [if_neg (by omega), drop_eq_nil_of_le (by omega), writeBuffer, dif_pos rfl]

theorem given_append (h : maxStoredSignalJsonBytes < bytes.length) (more : List UInt8) :
    given (bytes ++ more) = given bytes := by
  unfold given
  rw [take_append_of_le_length (by omega), length_append, decide_eq_true h,
    decide_eq_true (by omega)]

/-- Up to the first failure. -/
theorem writeAll_given (h : bytes.length ≤ maxStoredSignalJsonBytes)
    (chunks : List (List UInt8)) : (given bytes).writeAll chunks =
      (given (bytes ++ chunks.flatten),
        decide ((bytes ++ chunks.flatten).length ≤ maxStoredSignalJsonBytes)) := by
  induction chunks generalizing bytes with
  | nil => simp [writeAll, h]
  | cons chunk chunks ih =>
    rw [writeAll, write_given, flatten_cons, ← append_assoc]
    by_cases hfits : (bytes ++ chunk).length ≤ maxStoredSignalJsonBytes
    · rw [decide_eq_true (.inr hfits)]
      exact ih hfits
    · have hchunk : chunk ≠ [] := by
        rintro rfl
        exact hfits (by rwa [append_nil])
      rw [decide_eq_false (not_or.mpr ⟨hchunk, hfits⟩), given_append (not_le.mp hfits),
        decide_eq_false (by rw [length_append]; omega)]

theorem writeChunks_given (chunks : List (List UInt8)) :
    ((given bytes).writeChunks chunks).1 = given (bytes ++ chunks.flatten) := by
  induction chunks generalizing bytes with
  | nil => simp [writeChunks]
  | cons chunk chunks ih =>
    rw [writeChunks, writeBuffer_eq, write_given, flatten_cons, ← append_assoc]
    exact ih

/-- A write fails just if there are too many bytes in the end. -/
theorem writeChunks_fails (h : bytes.length ≤ maxStoredSignalJsonBytes)
    (chunks : List (List UInt8)) : false ∈ ((given bytes).writeChunks chunks).2 ↔
      maxStoredSignalJsonBytes < (bytes ++ chunks.flatten).length := by
  induction chunks generalizing bytes with
  | nil => simpa [writeChunks] using h
  | cons chunk chunks ih =>
    rw [writeChunks, writeBuffer_eq, write_given, flatten_cons, ← append_assoc, mem_cons]
    by_cases hfits : (bytes ++ chunk).length ≤ maxStoredSignalJsonBytes
    · rw [decide_eq_true (.inr hfits), ← ih hfits]
      simp
    · have hchunk : chunk ≠ [] := by
        rintro rfl
        exact hfits (by rwa [append_nil])
      rw [decide_eq_false (not_or.mpr ⟨hchunk, hfits⟩)]
      exact iff_of_true (.inl rfl) (by rw [length_append]; omega)

end BoundedPayloadWriter

theorem serializeSignalBounded_eq (sd : Serde) (payload : Signal) :
    serializeSignalBounded sd payload =
      if maxStoredSignalJsonBytes < (sd.toWriter payload).1.flatten.length then
        .error (.signalPayloadTooLarge (maxStoredSignalJsonBytes + 1) maxStoredSignalJsonBytes)
      else if (sd.toWriter payload).2 then .error .invalidSignalPayload
      else .ok (sd.toWriter payload).1.flatten := by
  have hwritten : (BoundedPayloadWriter.given []).writeAll (sd.toWriter payload).1 = _ :=
    BoundedPayloadWriter.writeAll_given (Nat.zero_le _) _
  unfold serializeSignalBounded
  rw [BoundedPayloadWriter.new_eq, hwritten, nil_append]
  generalize (sd.toWriter payload).1.flatten = bytes
  by_cases hlong : maxStoredSignalJsonBytes < bytes.length
  · simp [BoundedPayloadWriter.given, hlong]
  · have htake := take_of_length_le (not_lt.mp hlong)
    cases (sd.toWriter payload).2 <;>
      simp [BoundedPayloadWriter.given, validateSignalPayloadSize, hlong, htake]

theorem serializeSignalBounded_ok {sd : Serde} {payload : Signal} {bytes : List UInt8}
    (h : serializeSignalBounded sd payload = .ok bytes) :
    (sd.toWriter payload).2 = false ∧ bytes = (sd.toWriter payload).1.flatten ∧
      bytes.length ≤ maxStoredSignalJsonBytes := by
  rw [serializeSignalBounded_eq] at h
  split_ifs at h with hlong hfail
  cases h
  exact ⟨by simpa using hfail, rfl, not_lt.mp hlong⟩

/-- However the bytes are cut into chunks, the writer retains as many of the first ones as it may,
and a write fails just if there are more. So a signal is serialised if its bytes fit, and refused as
too large if they do not. -/
theorem payload_bounded (sd : Serde) (payload : Signal) :
    (∀ chunks, (BoundedPayloadWriter.new.writeChunks chunks).1.bytes =
          chunks.flatten.take maxStoredSignalJsonBytes ∧
        (BoundedPayloadWriter.new.writeChunks chunks).1.bytes.length ≤ maxStoredSignalJsonBytes ∧
        (false ∈ (BoundedPayloadWriter.new.writeChunks chunks).2 ↔
          maxStoredSignalJsonBytes < chunks.flatten.length) ∧
        ((BoundedPayloadWriter.new.writeChunks chunks).1.overflowed = true ↔
          maxStoredSignalJsonBytes < chunks.flatten.length)) ∧
    serializeSignalBounded sd payload =
      if maxStoredSignalJsonBytes < (sd.toWriter payload).1.flatten.length then
        .error (.signalPayloadTooLarge (maxStoredSignalJsonBytes + 1) maxStoredSignalJsonBytes)
      else if (sd.toWriter payload).2 then .error .invalidSignalPayload
      else .ok (sd.toWriter payload).1.flatten := by
  refine ⟨fun chunks => ?_, serializeSignalBounded_eq sd payload⟩
  have hfails : false ∈ ((BoundedPayloadWriter.given []).writeChunks chunks).2 ↔ _ :=
    BoundedPayloadWriter.writeChunks_fails (Nat.zero_le _) chunks
  rw [BoundedPayloadWriter.new_eq, BoundedPayloadWriter.writeChunks_given]
  exact ⟨rfl, length_take_le _ _, hfails, decide_eq_true_iff⟩

/-- What the canonical form of a payload is made of. -/
theorem canonicalSignalPayload_ok {sd : Serde} {payload : Signal} {c : CanonicalSignalPayload} :
    canonicalSignalPayload sd payload = .ok c ↔ ∃ encoded decoded,
      serializeSignalBounded sd payload = .ok encoded ∧
      sd.signalFromSlice encoded = some decoded ∧
      serializeSignalBounded sd decoded = .ok encoded ∧
      sd.valueFromSlice encoded = some c.value ∧ c.byteLen = encoded.length := by
  obtain ⟨value, byteLen⟩ := c
  unfold canonicalSignalPayload
  cases hser : serializeSignalBounded sd payload with
  | error e => simp [bind, Except.bind]
  | ok encoded =>
    cases hsig : sd.signalFromSlice encoded with
    | none => simp [bind, Except.bind, hsig, throw, throwThe, MonadExceptOf.throw]
    | some decoded =>
      cases hback : serializeSignalBounded sd decoded with
      | error e => simp [bind, Except.bind, hsig, hback, pure, Except.pure]
      | ok roundTrip =>
        by_cases heq : roundTrip = encoded
        · cases hval : sd.valueFromSlice encoded <;>
            simp [bind, Except.bind, hsig, hback, pure, Except.pure, heq, hval, throw, throwThe,
              MonadExceptOf.throw, eq_comm]
        · simp [bind, Except.bind, hsig, hback, pure, Except.pure, heq, throw, throwThe,
            MonadExceptOf.throw]

/-- The errors that reject a payload. -/
def PgStoreError.OfPayload : PgStoreError → Prop
  | .invalidSignalPayload | .signalPayloadNotRoundTripSafe | .signalPayloadTooLarge _ _ => True
  | _ => False

theorem serializeSignalBounded_error {sd : Serde} {payload : Signal} {e : PgStoreError}
    (h : serializeSignalBounded sd payload = .error e) : e.OfPayload := by
  rw [serializeSignalBounded_eq] at h
  split_ifs at h <;> cases h <;> trivial

theorem canonicalSignalPayload_error {sd : Serde} {payload : Signal} {e : PgStoreError}
    (h : canonicalSignalPayload sd payload = .error e) : e.OfPayload := by
  unfold canonicalSignalPayload at h
  cases hser : serializeSignalBounded sd payload with
  | error e' =>
    rw [hser] at h
    cases h
    exact serializeSignalBounded_error hser
  | ok encoded =>
    rw [hser] at h
    cases hsig : sd.signalFromSlice encoded with
    | none =>
      simp only [bind, Except.bind, hsig, Option.elim_none] at h
      cases h
      trivial
    | some decoded =>
      cases hback : serializeSignalBounded sd decoded with
      | error e' =>
        simp only [bind, Except.bind, hsig, hback, Option.elim_some, pure, Except.pure] at h
        cases h
        exact serializeSignalBounded_error hback
      | ok roundTrip =>
        simp only [bind, Except.bind, hsig, hback, Option.elim_some, pure, Except.pure] at h
        split at h
        · cases h
          trivial
        · cases hval : sd.valueFromSlice encoded <;> rw [hval] at h <;> cases h
          trivial

/-- The JSON of an accepted payload. -/
theorem json_of_canonical {sd : Serde} {payload : Signal} {c : CanonicalSignalPayload}
    (h : canonicalSignalPayload sd payload = .ok c) : sd.json payload = some c.value := by
  obtain ⟨encoded, _, hser, _, _, hval, _⟩ := canonicalSignalPayload_ok.mp h
  obtain ⟨hflag, rfl, _⟩ := serializeSignalBounded_ok hser
  rw [Serde.json, hflag]
  exact hval

section Table

variable {rows : List (Signal × List UInt8 × Value)} {numbers : List (Literal × Number)}

/-- A `Serde` that knows a few signals only, by their texts and values, and a few numbers. -/
def Serde.ofTable (rows : List (Signal × List UInt8 × Value)) (numbers : List (Literal × Number)) :
    Serde where
  toWriter signal :=
    match rows.find? (·.1 = signal) with
    | some row => ([row.2.1], false)
    | none => ([], true)
  signalFromSlice bytes := (rows.find? (·.2.1 = bytes)).map (·.1)
  valueFromSlice bytes := (rows.find? (·.2.1 = bytes)).map (·.2.2)
  signalFromValue value := (rows.find? (Json.eqBy sameValue ·.2.2 value)).map (·.1)
  numberFromText text := (numbers.find? (·.1 = text)).map (·.2)

/-- Rows that can be told apart by signal, by text and by value. -/
def Distinct (rows : List (Signal × List UInt8 × Value)) : Prop :=
  rows.Pairwise fun r r' => r.1 ≠ r'.1 ∧ r.2.1 ≠ r'.2.1 ∧ Json.eqBy sameValue r.2.2 r'.2.2 = false

instance : Decidable (Distinct rows) := inferInstanceAs (Decidable (rows.Pairwise _))

theorem sameValue_symm (n m : Number) (h : sameValue n m = true) : sameValue m n = true := by
  simp_all [sameValue]

theorem Distinct.unique (h : Distinct rows) : ∀ r ∈ rows, ∀ r' ∈ rows,
    (r.1 = r'.1 ∨ r.2.1 = r'.2.1 ∨ Json.eqBy sameValue r.2.2 r'.2.2 = true) → r = r' := by
  let Agree (r r' : Signal × List UInt8 × Value) : Prop :=
    (r.1 = r'.1 ∨ r.2.1 = r'.2.1 ∨ Json.eqBy sameValue r.2.2 r'.2.2 = true) → r = r'
  have hsymm : ∀ r r', Agree r r' → Agree r' r := fun r r' hrr' hkey =>
    (hrr' (hkey.imp Eq.symm (Or.imp Eq.symm (Json.eqBy_symm sameValue_symm)))).symm
  have hpair : rows.Pairwise Agree := h.imp fun ⟨h1, h2, h3⟩ hkey => by simp_all
  exact fun r hr r' hr' => List.Pairwise.forall_of_forall_of_flip (R := Agree)
    (fun _ _ _ => rfl) hpair (hpair.imp (hsymm _ _)) hr hr'

theorem tagged_ofTable (hbytes : ∀ r ∈ rows, r.2.1 ≠ [])
    (hobj : ∀ r ∈ rows, ∃ members, r.2.2 = .obj members) : (Serde.ofTable rows numbers).Tagged where
  empty := by
    simp only [Serde.ofTable, Option.map_eq_none_iff, find?_eq_none]
    exact fun r hr => by simpa using hbytes r hr
  object {signal value} h := by
    unfold Serde.json at h
    split at h
    · cases h
    · obtain ⟨r, hr, rfl⟩ := Option.map_eq_some_iff.mp h
      exact hobj r (mem_of_find?_eq_some hr)

end Table

/-- A signal without logs. -/
def emptyLogs : Signal × List UInt8 × Value :=
  (.logs [], asciiBytes ["\x7b\"Logs\":\x7b\"resourceLogs\":[]\x7d\x7d"],
    .obj [("Logs", .obj [("resourceLogs", .arr [])])])

/-- A resource whose schema is the NUL character. -/
def nulLogs : Signal × List UInt8 × Value :=
  (.logs [⟨none, [], ⟨[0]⟩⟩],
    asciiBytes ["\x7b\"Logs\":\x7b\"resourceLogs\":[\x7b\"resource\":null,",
      "\"scopeLogs\":[],\"schemaUrl\":\"\\u0000\"\x7d]\x7d\x7d"],
    .obj [("Logs", .obj [("resourceLogs", .arr [.obj [("resource", .null),
      ("schemaUrl", .str "\x00"), ("scopeLogs", .arr [])]])])])

/-- A gauge with one point, given as a double, as its text and as the decimal it is read as. -/
def gaugeOf (double : F64) (text : String) (decimal : Decimal) : Signal × List UInt8 × Value :=
  (.metrics [⟨none, [⟨none, [⟨[], [], some (.gauge [⟨[], some (.asDouble double), ⟨[]⟩⟩]), ⟨[]⟩⟩],
      ⟨[]⟩⟩], ⟨[]⟩⟩],
    asciiBytes ["\x7b\"Metrics\":\x7b\"resourceMetrics\":[\x7b\"resource\":null,\"scopeMetrics\":[",
      "\x7b\"scope\":null,\"metrics\":[\x7b\"name\":\"\",\"description\":\"\",\"unit\":\"\",",
      "\"metadata\":[],\"gauge\":\x7b\"dataPoints\":[\x7b\"attributes\":[],",
      "\"startTimeUnixNano\":\"0\",\"timeUnixNano\":\"0\",\"exemplars\":[],",
      "\"flags\":0,\"asDouble\":", text,
      "\x7d]\x7d\x7d],\"schemaUrl\":\"\"\x7d],\"schemaUrl\":\"\"\x7d]\x7d\x7d"],
    .obj [("Metrics", .obj [("resourceMetrics", .arr [resource])])])
where
  point : Value := .obj [("asDouble", .num (.float decimal)),
    ("attributes", .arr []), ("exemplars", .arr []), ("flags", .num (.posInt 0)),
    ("startTimeUnixNano", .str "0"), ("timeUnixNano", .str "0")]
  metric : Value := .obj [("description", .str ""),
    ("gauge", .obj [("dataPoints", .arr [point])]), ("metadata", .arr []), ("name", .str ""),
    ("unit", .str "")]
  scope : Value := .obj [("metrics", .arr [metric]), ("schemaUrl", .str ""), ("scope", .null)]
  resource : Value := .obj [("resource", .null), ("schemaUrl", .str ""),
    ("scopeMetrics", .arr [scope])]

def oneAndHalf : Decimal := ⟨false, 15, -1, by decide⟩

def narrowGauge : Signal × List UInt8 × Value := gaugeOf ⟨0x3FF8000000000000⟩ "1.5" oneAndHalf

/-- A double printed with an exponent. -/
def wideGauge : Signal × List UInt8 × Value :=
  gaugeOf ⟨0x4341C37937E08000⟩ "1e16" ⟨false, 1, 16, by decide⟩

/-- The largest double. -/
def largestGauge : Signal × List UInt8 × Value :=
  gaugeOf ⟨0x7FEFFFFFFFFFFFFF⟩ "1.7976931348623157e308" ⟨false, 17976931348623157, 292, by decide⟩

end SkidMonitor
