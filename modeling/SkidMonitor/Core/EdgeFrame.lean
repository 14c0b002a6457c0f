import SkidMonitor.Core.EdgeWire

/-! Frames as bytes: the encoder, which writes into a buffer of its caller, and the decoder with
each index checked. Reading a slice out of range is a panic, `none` here. -/
namespace SkidMonitor.EdgeWire

open List

open Bytes (u16FromBe u32FromBe u16ToBe u32ToBe slice sliceFrom copyFromSlice setAt fill)
open Text (toUtf8 fromUtf8)

inductive EncodeError where
  | fieldTooLong
  | tooManyMetrics
  | outputTooSmall
  | reservedMetricId
  | reservedSensorId
  deriving DecidableEq, Repr

structure EdgeIdentity where
  deviceId : Str
  nodeName : Str
  deriving DecidableEq, Repr

/-- A sample as the encoder checks it: zero is still possible for its two numbers. -/
structure RawSample where
  metricId : UInt16
  sensorId : UInt16
  kind : MetricKind
  unit : MeasureUnit
  value : F32
  deriving DecidableEq, Repr

def EdgeMetricSample.raw (sample : EdgeMetricSample) : RawSample :=
  ⟨sample.metricId.value, sample.sensorId.value, sample.kind, sample.unit, sample.value⟩

def MetricKind.asU8 : MetricKind → UInt8
  | .gauge => 1
  | .sum => 2
  | .histogram => 3

def MeasureUnit.asU8 : MeasureUnit → UInt8
  | .none => 0
  | .celsius => 1
  | .volt => 2
  | .dbm => 3
  | .count => 4
  | .percent => 5

section Encode

def writeSample (out : List UInt8) (cursor : ℕ) (sample : RawSample) : Option (List UInt8) := do
  let out ← copyFromSlice out cursor (cursor + 2) (u16ToBe sample.metricId)
  let out ← copyFromSlice out (cursor + 2) (cursor + 4) (u16ToBe sample.sensorId)
  let out ← setAt out (cursor + 4) sample.kind.asU8
  let out ← setAt out (cursor + 5) sample.unit.asU8
  copyFromSlice out (cursor + 6) (cursor + 10) (u32ToBe sample.value.bits)

/-- The loop over the samples. -/
def writeSamples (out : List UInt8) (cursor : ℕ) : List RawSample → Option (List UInt8)
  | [] => some out
  | sample :: metrics => do
    let out ← writeSample out cursor sample
    writeSamples out (cursor + recordLen) metrics

def writeFrame (out : List UInt8) (seq : UInt16) (deviceId nodeName : List UInt8)
    (metrics : List RawSample) : Option (List UInt8) := do
  let out ← copyFromSlice out 0 2 magic
  let out ← setAt out 2 version
  let out ← setAt out 3 frameKindMetrics
  let out ← setAt out 4 0
  let out ← copyFromSlice out 5 7 (u16ToBe seq)
  let out ← setAt out 7 (UInt8.ofNat metrics.length)
  let out ← setAt out 8 (UInt8.ofNat deviceId.length)
  let out ← setAt out 9 (UInt8.ofNat nodeName.length)
  let cursor := headerLen
  let out ← copyFromSlice out cursor (cursor + deviceId.length) deviceId
  let cursor := cursor + deviceId.length
  let out ← copyFromSlice out cursor (cursor + nodeName.length) nodeName
  let cursor := cursor + nodeName.length
  writeSamples out cursor metrics

/-- The buffer afterwards and the answer, the number of bytes written or an error. -/
def encodeMetricsFrame (out : List UInt8) (seq : UInt16) (identity : EdgeIdentity)
    (metrics : List RawSample) : Option (List UInt8 × Except EncodeError ℕ) :=
  let deviceId := toUtf8 identity.deviceId
  let nodeName := toUtf8 identity.nodeName
  if deviceId.length > 255 ∨ nodeName.length > 255 then some (out, .error .fieldTooLong)
  else if metrics.length > 255 then some (out, .error .tooManyMetrics)
  else if metrics.any (·.metricId = 0) then some (out, .error .reservedMetricId)
  else if metrics.any (·.sensorId = 0) then some (out, .error .reservedSensorId)
  else
    let required := headerLen + deviceId.length + nodeName.length + metrics.length * recordLen
    if out.length < required then some (out, .error .outputTooSmall)
    else (writeFrame out seq deviceId nodeName metrics).map (·, .ok required)

end Encode

section Decode

/-- The decoder, one index after the other. -/
def decodeMetricsFrame? (input : List UInt8) : Option (Except DecodeError EdgeMetricsFrame) :=
  if input.length < headerLen then some (.error .tooShort)
  else do
    if (← slice input 0 2) ≠ magic then return .error .badMagic
    if (← input[2]?) ≠ version then return .error .unsupportedVersion
    if (← input[3]?) ≠ frameKindMetrics then return .error .unsupportedKind
    let flags ← input[4]?
    let seq := u16FromBe (← input[5]?) (← input[6]?)
    let metricCount ← input[7]?
    let deviceIdLen := (← input[8]?).toNat
    let nodeNameLen := (← input[9]?).toNat
    let identityLen := deviceIdLen + nodeNameLen
    if input.length < headerLen + identityLen then return .error .truncatedIdentity
    let cursor := headerLen
    match fromUtf8 (← slice input cursor (cursor + deviceIdLen)) with
    | none => return .error .invalidUtf8
    | some deviceId =>
      let cursor := cursor + deviceIdLen
      match fromUtf8 (← slice input cursor (cursor + nodeNameLen)) with
      | none => return .error .invalidUtf8
      | some nodeName =>
        let cursor := cursor + nodeNameLen
        let records ← sliceFrom input cursor
        if records.length ≠ metricCount.toNat * recordLen then return .error .badRecordLength
        return .ok { seq, flags, deviceId, nodeName, metricCount, records }

/-- The iterator, one index after the other. -/
def EdgeMetricIter.next? (iter : EdgeMetricIter) :
    Option (Option (Except DecodeError EdgeMetricSample × EdgeMetricIter)) :=
  if iter.remaining = 0 then some none
  else if iter.records.length < recordLen then
    some (some (.error .badRecordLength, { iter with remaining := 0 }))
  else do
    let record ← slice iter.records 0 recordLen
    let records ← sliceFrom iter.records recordLen
    let iter : EdgeMetricIter := ⟨records, iter.remaining - 1⟩
    match EdgeId.new (u16FromBe (← record[0]?) (← record[1]?)) with
    | none => return some (.error .reservedMetricId, iter)
    | some metricId =>
      match EdgeId.new (u16FromBe (← record[2]?) (← record[3]?)) with
      | none => return some (.error .reservedSensorId, iter)
      | some sensorId =>
        match MetricKind.fromU8 (← record[4]?) with
        | none => return some (.error .unknownMetricKind, iter)
        | some kind =>
          match MeasureUnit.fromU8 (← record[5]?) with
          | none => return some (.error .unknownUnit, iter)
          | some unit =>
            let value := u32FromBe (← record[6]?) (← record[7]?) (← record[8]?) (← record[9]?)
            return some (.ok { metricId, sensorId, kind, unit, value := ⟨value⟩ }, iter)

end Decode

theorem ten_of_length {α : Type} {xs : List α} (h : xs.length = 10) :
    ∃ a b c d e f g i j k, xs = [a, b, c, d, e, f, g, i, j, k] := by
  match xs, h with
  | [a, b, c, d, e, f, g, i, j, k], _ => exact ⟨a, b, c, d, e, f, g, i, j, k, rfl⟩

/-- What the iterator yields for the ten bytes of a record. -/
def recordItem : List UInt8 → Except DecodeError EdgeMetricSample
  | [m, m', s, s', kind, unit, a, b, c, d] =>
    decodeRecord (u16FromBe m m') (u16FromBe s s') kind unit (u32FromBe a b c d)
  | _ => .error .badRecordLength

variable {records rest record : List UInt8} {n : ℕ}

theorem next_append (rest : List UInt8) (n : ℕ) (h : record.length = recordLen) :
    EdgeMetricIter.next ⟨record ++ rest, n + 1⟩ = some (recordItem record, ⟨rest, n⟩) := by
  obtain ⟨m, m', s, s', kind, unit, a, b, c, d, rfl⟩ := ten_of_length h
  rfl

theorem next_short (h : records.length < recordLen) :
    EdgeMetricIter.next ⟨records, n + 1⟩ = some (.error .badRecordLength, ⟨records, 0⟩) := by
  unfold EdgeMetricIter.next
  split
  · next h0 => cases h0
  · split
    · next heq =>
      exfalso
      simp only at heq
      rw [heq] at h
      simp only [length_cons, recordLen] at h
      omega
    · rfl

theorem next?_append (h : record.length = recordLen) :
    EdgeMetricIter.next? ⟨record ++ rest, n + 1⟩ = some (some (recordItem record, ⟨rest, n⟩)) := by
  obtain ⟨m, m', s, s', kind, unit, a, b, c, d, rfl⟩ := ten_of_length h
  have hrecord : slice ([m, m', s, s', kind, unit, a, b, c, d] ++ rest) 0 recordLen =
    some [m, m', s, s', kind, unit, a, b, c, d] := rfl
  have hrest : sliceFrom ([m, m', s, s', kind, unit, a, b, c, d] ++ rest) recordLen = some rest := rfl
  have hlen : ¬ ([m, m', s, s', kind, unit, a, b, c, d] ++ rest).length < recordLen := by
    simp [recordLen]
  simp only [EdgeMetricIter.next?, Nat.succ_ne_zero, if_false, if_neg hlen, hrecord, hrest,
    recordItem, decodeRecord, getElem?_cons_zero, getElem?_cons_succ, bind, Option.bind]
  cases EdgeId.new (u16FromBe m m') with
  | none => rfl
  | some metricId =>
    cases EdgeId.new (u16FromBe s s') with
    | none => rfl
    | some sensorId =>
      cases MetricKind.fromU8 kind with
      | none => rfl
      | some kind =>
        cases MeasureUnit.fromU8 unit with
        | none | some => rfl

/-- The iterator never panics. -/
theorem next?_eq (iter : EdgeMetricIter) : iter.next? = some iter.next := by
  obtain ⟨records, remaining⟩ := iter
  cases remaining with
  | zero => rfl
  | succ n =>
    by_cases hlen : records.length < recordLen
    · rw [next_short hlen, EdgeMetricIter.next?, if_neg (Nat.succ_ne_zero _)]
      exact if_pos hlen
    · have htake : (records.take recordLen).length = recordLen := by
        rw [length_take]
        omega
      rw [← take_append_drop recordLen records, next_append _ _ htake, next?_append htake]

theorem decodeMetricsFrame_short (h : records.length < headerLen) :
    decodeMetricsFrame records = .error .tooShort := by
  unfold decodeMetricsFrame
  split
  · simp only [length_cons, headerLen] at h
    omega
  · rfl

/-- What is done once the header has been read. -/
def decodeBody (seq : UInt16) (flags metricCount : UInt8) (deviceIdLen nodeNameLen : ℕ)
    (rest : List UInt8) : Except DecodeError EdgeMetricsFrame :=
  if rest.length < deviceIdLen + nodeNameLen then .error .truncatedIdentity
  else
    match fromUtf8 (rest.take deviceIdLen) with
    | none => .error .invalidUtf8
    | some deviceId =>
      match fromUtf8 ((rest.drop deviceIdLen).take nodeNameLen) with
      | none => .error .invalidUtf8
      | some nodeName =>
        let records := (rest.drop deviceIdLen).drop nodeNameLen
        if records.length ≠ metricCount.toNat * recordLen then .error .badRecordLength
        else .ok { seq, flags, deviceId, nodeName, metricCount, records }

variable {m m' v kind flags s s' metricCount dl nl : UInt8}

theorem decodeMetricsFrame_header :
    decodeMetricsFrame (m :: m' :: v :: kind :: flags :: s :: s' :: metricCount :: dl :: nl :: rest) =
      if [m, m'] ≠ magic then .error .badMagic
      else if v ≠ version then .error .unsupportedVersion
      else if kind ≠ frameKindMetrics then .error .unsupportedKind
      else decodeBody (u16FromBe s s') flags metricCount dl.toNat nl.toNat rest := by
  have hthrow : ∀ (err : DecodeError) (next : PUnit → Except DecodeError EdgeMetricsFrame),
      (throw err >>= next) = .error err := fun _ _ => rfl
  simp only [decodeMetricsFrame, decodeBody, hthrow]
  cases fromUtf8 (rest.take dl.toNat) with
  | none => rfl
  | some deviceId =>
    cases fromUtf8 ((rest.drop dl.toNat).take nl.toNat) with
    | none | some => rfl

theorem decodeMetricsFrame?_header :
    decodeMetricsFrame? (m :: m' :: v :: kind :: flags :: s :: s' :: metricCount :: dl :: nl :: rest) =
      if [m, m'] ≠ magic then some (.error .badMagic)
      else if v ≠ version then some (.error .unsupportedVersion)
      else if kind ≠ frameKindMetrics then some (.error .unsupportedKind)
      else some (decodeBody (u16FromBe s s') flags metricCount dl.toNat nl.toNat rest) := by
  have hlen : ∀ n, (m :: m' :: v :: kind :: flags :: s :: s' :: metricCount :: dl :: nl ::
      rest).length < headerLen + n ↔ rest.length < n := by
    intro n
    simp only [length_cons, headerLen]
    omega
  have hmagic : slice (m :: m' :: v :: kind :: flags :: s :: s' :: metricCount :: dl :: nl ::
      rest) 0 2 = some [m, m'] := rfl
  rw [decodeMetricsFrame?, if_neg (by simpa using hlen 0)]
  simp only [hmagic, getElem?_cons_zero, getElem?_cons_succ, bind, Option.bind, hlen]
  by_cases hm : [m, m'] ≠ magic
  · rw [if_pos hm, if_pos hm]
    rfl
  by_cases hv : v ≠ version
  · rw [if_neg hm, if_neg hm, if_pos hv, if_pos hv]
    rfl
  by_cases hk : kind ≠ frameKindMetrics
  · rw [if_neg hm, if_neg hm, if_neg hv, if_neg hv, if_pos hk, if_pos hk]
    rfl
  rw [if_neg hm, if_neg hm, if_neg hv, if_neg hv, if_neg hk, if_neg hk, decodeBody]
  by_cases hshort : rest.length < dl.toNat + nl.toNat
  · rw [if_pos hshort, if_pos hshort]
    rfl
  have hdevice : slice (m :: m' :: v :: kind :: flags :: s :: s' :: metricCount :: dl :: nl ::
      rest) headerLen (headerLen + dl.toNat) = some (rest.take dl.toNat) :=
    Bytes.slice_append [m, m', v, kind, flags, s, s', metricCount, dl, nl] (i := 0)
      (by omega)
  have hnode : slice (m :: m' :: v :: kind :: flags :: s :: s' :: metricCount :: dl :: nl ::
      rest) (headerLen + dl.toNat) (headerLen + dl.toNat + nl.toNat) =
        some ((rest.drop dl.toNat).take nl.toNat) :=
    Bytes.slice_append [m, m', v, kind, flags, s, s', metricCount, dl, nl] (by omega)
  have hrecords : sliceFrom (m :: m' :: v :: kind :: flags :: s :: s' :: metricCount :: dl :: nl ::
      rest) (headerLen + dl.toNat + nl.toNat) = some ((rest.drop dl.toNat).drop nl.toNat) := by
    rw [Nat.add_assoc, drop_drop]
    exact Bytes.sliceFrom_append [m, m', v, kind, flags, s, s', metricCount, dl, nl]
      (by omega)
  rw [if_neg hshort, if_neg hshort]
  simp only [hdevice, hnode, hrecords]
  cases fromUtf8 (rest.take dl.toNat) with
  | none => rfl
  | some deviceId =>
    cases fromUtf8 ((rest.drop dl.toNat).take nl.toNat) with
    | none => rfl
    | some nodeName =>
      dsimp only
      split_ifs <;> rfl

/-- The decoder never panics. -/
theorem decodeMetricsFrame?_eq (input : List UInt8) :
    decodeMetricsFrame? input = some (decodeMetricsFrame input) := by
  by_cases hlen : input.length < headerLen
  · rw [decodeMetricsFrame_short hlen, decodeMetricsFrame?, if_pos hlen]
  · have htake : (input.take headerLen).length = headerLen := by
      rw [length_take]
      omega
    obtain ⟨m, m', v, kind, flags, s, s', metricCount, dl, nl, hten⟩ := ten_of_length htake
    rw [← take_append_drop headerLen input, hten]
    simp only [cons_append, nil_append]
    rw [decodeMetricsFrame?_header, decodeMetricsFrame_header]
    split_ifs <;> rfl

/-- The bytes a frame is read from. -/
def EdgeMetricsFrame.bytes (frame : EdgeMetricsFrame) : List UInt8 :=
  magic ++ [version, frameKindMetrics, frame.flags] ++ u16ToBe frame.seq ++
    [frame.metricCount, UInt8.ofNat (toUtf8 frame.deviceId).length,
      UInt8.ofNat (toUtf8 frame.nodeName).length] ++
    toUtf8 frame.deviceId ++ toUtf8 frame.nodeName ++ frame.records

structure EdgeMetricsFrame.WellFormed (frame : EdgeMetricsFrame) : Prop where
  deviceId : (toUtf8 frame.deviceId).length ≤ 255
  nodeName : (toUtf8 frame.nodeName).length ≤ 255
  records : frame.records.length = frame.metricCount.toNat * recordLen

variable {frame : EdgeMetricsFrame} {input : List UInt8}

theorem decodeMetricsFrame_bytes (h : frame.WellFormed) :
    decodeMetricsFrame frame.bytes = .ok frame := by
  obtain ⟨hdevice, hnode, hrecords⟩ := h
  have hbytes : frame.bytes = 0x53 :: 0x45 :: version :: frameKindMetrics :: frame.flags ::
      UInt8.ofNat (frame.seq.toNat / 2 ^ 8) :: UInt8.ofNat frame.seq.toNat :: frame.metricCount ::
      UInt8.ofNat (toUtf8 frame.deviceId).length :: UInt8.ofNat (toUtf8 frame.nodeName).length ::
      (toUtf8 frame.deviceId ++ (toUtf8 frame.nodeName ++ frame.records)) := by
    simp [EdgeMetricsFrame.bytes, magic, u16ToBe]
  have hlen : ∀ {n : ℕ}, n ≤ 255 → (UInt8.ofNat n).toNat = n := fun h =>
    UInt8.toNat_ofNat_of_lt' (Nat.lt_of_le_of_lt h (by decide))
  rw [hbytes, decodeMetricsFrame_header, if_neg (by simp [magic]), if_neg (by simp),
    if_neg (by simp), hlen hdevice, hlen hnode, Bytes.u16FromBe_toBe, decodeBody,
    if_neg (by simp), take_left, drop_left, take_left, drop_left,
    Text.fromUtf8_toUtf8, Text.fromUtf8_toUtf8]
  exact if_neg (by simpa using hrecords)

theorem decodeBody_ok {seq : UInt16}
    (h : decodeBody seq flags metricCount dl.toNat nl.toNat rest = .ok frame) :
    frame.WellFormed ∧ frame.seq = seq ∧ frame.flags = flags ∧ frame.metricCount = metricCount ∧
      (toUtf8 frame.deviceId).length = dl.toNat ∧ (toUtf8 frame.nodeName).length = nl.toNat ∧
      rest = toUtf8 frame.deviceId ++ (toUtf8 frame.nodeName ++ frame.records) := by
  have hdl := dl.toNat_lt
  have hnl := nl.toNat_lt
  unfold decodeBody at h
  split_ifs at h with hshort
  cases hdevice : fromUtf8 (rest.take dl.toNat) with
  | none =>
    rw [hdevice] at h
    cases h
  | some deviceId =>
    rw [hdevice] at h
    cases hnode : fromUtf8 ((rest.drop dl.toNat).take nl.toNat) with
    | none =>
      rw [hnode] at h
      cases h
    | some nodeName =>
      rw [hnode] at h
      dsimp only at h
      split_ifs at h with hrecords
      cases h
      have hdeviceLen : (toUtf8 deviceId).length = dl.toNat := by
        rw [Text.toUtf8_of_fromUtf8 hdevice, length_take]
        omega
      have hnodeLen : (toUtf8 nodeName).length = nl.toNat := by
        rw [Text.toUtf8_of_fromUtf8 hnode, length_take, length_drop]
        omega
      have hdeviceMax : (toUtf8 deviceId).length ≤ 255 := by omega
      have hnodeMax : (toUtf8 nodeName).length ≤ 255 := by omega
      refine ⟨⟨hdeviceMax, hnodeMax, not_not.mp hrecords⟩, rfl, rfl, rfl, hdeviceLen, hnodeLen, ?_⟩
      dsimp only
      rw [Text.toUtf8_of_fromUtf8 hdevice, Text.toUtf8_of_fromUtf8 hnode, take_append_drop,
        take_append_drop]

/-- A frame is read from its own bytes and from no others. -/
theorem decodeMetricsFrame_ok_iff :
    decodeMetricsFrame input = .ok frame ↔ frame.WellFormed ∧ input = frame.bytes := by
  refine ⟨fun h => ?_, by rintro ⟨hframe, rfl⟩; exact decodeMetricsFrame_bytes hframe⟩
  have hlen : ¬ input.length < headerLen := by
    intro hlen
    rw [decodeMetricsFrame_short hlen] at h
    cases h
  have htake : (input.take headerLen).length = headerLen := by
    rw [length_take]
    omega
  obtain ⟨m, m', v, kind, flags, s, s', metricCount, dl, nl, hten⟩ := ten_of_length htake
  rw [← take_append_drop headerLen input, hten] at h ⊢
  generalize input.drop headerLen = rest at h ⊢
  simp only [cons_append, nil_append] at h ⊢
  rw [decodeMetricsFrame_header] at h
  split_ifs at h with hm hv hk
  obtain ⟨hframe, hseq, hflags, hcount, hdl, hnl, hrest⟩ := decodeBody_ok h
  refine ⟨hframe, ?_⟩
  rw [EdgeMetricsFrame.bytes, ← not_not.mp hm, ← not_not.mp hv, ← not_not.mp hk, hseq,
    Bytes.u16ToBe_fromBe, hflags, hcount, hdl, hnl, UInt8.ofNat_toNat, UInt8.ofNat_toNat, hrest]
  simp

end SkidMonitor.EdgeWire
