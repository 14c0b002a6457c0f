import SkidMonitor.Core.EdgeFrame

/-! What is encoded is decoded again, and what is decoded is what would be encoded. -/
namespace SkidMonitor.EdgeWire

open List

open Bytes (u16ToBe u32ToBe fill pieces)
open Text (toUtf8)

variable {out w records : List UInt8} {sample : EdgeMetricSample} {metrics : List RawSample}
  {seq : UInt16} {identity : EdgeIdentity} {n cursor : ℕ}

/-- The ten bytes of a sample. -/
def RawSample.bytes (sample : RawSample) : List UInt8 :=
  u16ToBe sample.metricId ++ u16ToBe sample.sensorId ++ [sample.kind.asU8] ++ [sample.unit.asU8] ++
    u32ToBe sample.value.bits

@[simp] theorem RawSample.length_bytes (sample : RawSample) :
    sample.bytes.length = recordLen := rfl

section Records

theorem MetricKind.fromU8_asU8 (kind : MetricKind) : MetricKind.fromU8 kind.asU8 = some kind := by
  cases kind <;> rfl

theorem MetricKind.asU8_of_fromU8 {value : UInt8} {kind : MetricKind}
    (h : MetricKind.fromU8 value = some kind) : kind.asU8 = value := by
  apply UInt8.toNat.inj
  unfold MetricKind.fromU8 at h
  split at h
  case h_4 => cases h
  all_goals
    cases h
    exact Eq.symm ‹_›

theorem MeasureUnit.fromU8_asU8 (unit : MeasureUnit) :
    MeasureUnit.fromU8 unit.asU8 = some unit := by
  cases unit <;> rfl

theorem MeasureUnit.asU8_of_fromU8 {value : UInt8} {unit : MeasureUnit}
    (h : MeasureUnit.fromU8 value = some unit) : unit.asU8 = value := by
  apply UInt8.toNat.inj
  unfold MeasureUnit.fromU8 at h
  split at h
  case h_7 => cases h
  all_goals
    cases h
    exact Eq.symm ‹_›

theorem EdgeId.new_value (id : EdgeId) : EdgeId.new id.value = some id := dif_neg id.nonzero

theorem EdgeId.value_of_new {value : UInt16} {id : EdgeId} (h : EdgeId.new value = some id) :
    id.value = value := by
  unfold EdgeId.new at h
  split_ifs at h
  cases h
  rfl

theorem recordItem_bytes (sample : EdgeMetricSample) :
    recordItem sample.raw.bytes = .ok sample := by
  simp only [RawSample.bytes, u16ToBe, u32ToBe, cons_append, nil_append, recordItem,
    Bytes.u16FromBe_toBe, Bytes.u32FromBe_toBe, decodeRecord, EdgeMetricSample.raw,
    EdgeId.new_value, MetricKind.fromU8_asU8, MeasureUnit.fromU8_asU8]
  rfl

theorem decodeRecord_ok {metric sensor : UInt16} {kind unit : UInt8} {value : UInt32}
    (h : decodeRecord metric sensor kind unit value = .ok sample) :
    sample.raw.metricId = metric ∧ sample.raw.sensorId = sensor ∧ sample.kind.asU8 = kind ∧
      sample.unit.asU8 = unit ∧ sample.value.bits = value := by
  unfold decodeRecord at h
  cases hmetric : EdgeId.new metric with
  | none =>
    rw [hmetric] at h
    cases h
  | some metricId =>
    cases hsensor : EdgeId.new sensor with
    | none =>
      rw [hmetric, hsensor] at h
      cases h
    | some sensorId =>
      cases hkind : MetricKind.fromU8 kind with
      | none =>
        rw [hmetric, hsensor, hkind] at h
        cases h
      | some kind =>
        cases hunit : MeasureUnit.fromU8 unit with
        | none =>
          rw [hmetric, hsensor, hkind, hunit] at h
          cases h
        | some unit =>
          rw [hmetric, hsensor, hkind, hunit] at h
          cases h
          exact ⟨EdgeId.value_of_new hmetric, EdgeId.value_of_new hsensor,
            MetricKind.asU8_of_fromU8 hkind, MeasureUnit.asU8_of_fromU8 hunit, rfl⟩

theorem bytes_of_recordItem {record : List UInt8} (hlen : record.length = recordLen)
    (h : recordItem record = .ok sample) : sample.raw.bytes = record := by
  obtain ⟨m, m', s, s', kind, unit, a, b, c, d, rfl⟩ := ten_of_length hlen
  obtain ⟨hmetric, hsensor, hkind, hunit, hvalue⟩ := decodeRecord_ok h
  rw [RawSample.bytes, hmetric, hsensor, Bytes.u16ToBe_fromBe, Bytes.u16ToBe_fromBe]
  simp only [EdgeMetricSample.raw, hkind, hunit, hvalue, Bytes.u32ToBe_fromBe]
  rfl

theorem recordItem_ne_badRecordLength {record : List UInt8} (hlen : record.length = recordLen) :
    recordItem record ≠ .error .badRecordLength := by
  obtain ⟨m, m', s, s', kind, unit, a, b, c, d, rfl⟩ := ten_of_length hlen
  simp only [recordItem, decodeRecord]
  cases EdgeId.new (Bytes.u16FromBe m m') with
  | none => rintro ⟨⟩
  | some metricId =>
    cases EdgeId.new (Bytes.u16FromBe s s') with
    | none => rintro ⟨⟩
    | some sensorId =>
      cases MetricKind.fromU8 kind with
      | none => rintro ⟨⟩
      | some kind => cases MeasureUnit.fromU8 unit <;> rintro ⟨⟩

/-- The iterator reads one record after the other, however often it is called. -/
theorem items_flatten {chunks : List (List UInt8)} {fuel : ℕ}
    (hlen : ∀ record ∈ chunks, record.length = recordLen) (hfuel : chunks.length ≤ fuel) :
    EdgeMetricIter.items fuel ⟨chunks.flatten, chunks.length⟩ = chunks.map recordItem := by
  induction chunks generalizing fuel with
  | nil =>
    cases fuel with
    | zero | succ => rfl
  | cons record chunks ih =>
    obtain ⟨hrecord, hchunks⟩ := forall_mem_cons.mp hlen
    rw [length_cons] at hfuel
    obtain ⟨fuel, rfl⟩ : ∃ f, fuel = f + 1 := ⟨fuel - 1, by omega⟩
    have hnext := next_append chunks.flatten chunks.length hrecord
    have hrest := @ih fuel hchunks (by omega)
    rw [flatten_cons, length_cons, map_cons, ← hrest, EdgeMetricIter.items.eq_def,
      hnext]

variable {frame : EdgeMetricsFrame}

/-- Each item comes from ten bytes of its own. -/
theorem items_of_wellFormed (h : frame.WellFormed) {fuel : ℕ}
    (hfuel : frame.metricCount.toNat ≤ fuel) :
    frame.iter.items fuel =
      (pieces recordLen frame.metricCount.toNat frame.records).map recordItem := by
  have hflat := Bytes.flatten_pieces h.records
  have hcount := Bytes.length_pieces recordLen frame.metricCount.toNat frame.records
  have hitems := items_flatten (fun _ hr => Bytes.length_of_mem_pieces h.records hr)
    (hcount.trans_le hfuel)
  rw [hflat, hcount] at hitems
  exact hitems

end Records

section Writing

/-- Ten more bytes behind what is already written. -/
theorem writeSample_fill (sample : RawSample) (hcursor : cursor = w.length)
    (h : cursor + recordLen ≤ out.length) :
    writeSample (fill w out) cursor sample = some (fill (w ++ sample.bytes) out) := by
  rw [writeSample, Bytes.copyFromSlice_bind, Bytes.copyFromSlice_bind, Bytes.setAt_bind,
    Bytes.setAt_bind, Bytes.copyFromSlice_fill]
  · simp only [RawSample.bytes, append_assoc]
  all_goals
    simp only [recordLen, length_append, length_singleton, Bytes.length_u16ToBe,
      Bytes.length_u32ToBe] at h ⊢ <;> omega

theorem writeSamples_fill (metrics : List RawSample) (hcursor : cursor = w.length)
    (h : cursor + metrics.length * recordLen ≤ out.length) :
    writeSamples (fill w out) cursor metrics =
      some (fill (w ++ metrics.flatMap RawSample.bytes) out) := by
  induction metrics generalizing w cursor with
  | nil => rw [flatMap_nil, append_nil]; rfl
  | cons sample metrics ih =>
    rw [length_cons, Nat.add_one_mul] at h
    have hsample : writeSample (fill w out) cursor sample = _ :=
      writeSample_fill sample hcursor (by omega)
    have hnext : cursor + recordLen = (w ++ sample.bytes).length := by
      rw [length_append, RawSample.length_bytes, hcursor]
    have hrest := ih hnext (by omega)
    rw [append_assoc] at hrest
    simp only [writeSamples, hsample, bind, Option.bind]
    exact hrest

theorem writeFrame_fill {deviceId nodeName : List UInt8}
    (h : headerLen + deviceId.length + nodeName.length + metrics.length * recordLen ≤ out.length) :
    writeFrame out seq deviceId nodeName metrics =
      some (fill (magic ++ [version] ++ [frameKindMetrics] ++ [0] ++ u16ToBe seq ++
        [UInt8.ofNat metrics.length] ++ [UInt8.ofNat deviceId.length] ++
        [UInt8.ofNat nodeName.length] ++ deviceId ++ nodeName ++
        metrics.flatMap RawSample.bytes) out) := by
  conv_lhs => rw [← Bytes.fill_nil out]
  rw [writeFrame, Bytes.copyFromSlice_bind, Bytes.setAt_bind, Bytes.setAt_bind, Bytes.setAt_bind,
    Bytes.copyFromSlice_bind, Bytes.setAt_bind, Bytes.setAt_bind, Bytes.setAt_bind,
    Bytes.copyFromSlice_bind, Bytes.copyFromSlice_bind, writeSamples_fill]
  · rfl
  all_goals
    simp only [headerLen, magic, nil_append, length_append, length_cons,
      length_nil, Bytes.length_u16ToBe] at h ⊢ <;> omega

/-- The frame that is written. -/
def writtenFrame (seq : UInt16) (identity : EdgeIdentity) (metrics : List RawSample) :
    EdgeMetricsFrame :=
  ⟨seq, 0, identity.deviceId, identity.nodeName, UInt8.ofNat metrics.length,
    metrics.flatMap RawSample.bytes⟩

/-- What the encoder asks of its arguments. -/
structure Accepted (out : List UInt8) (identity : EdgeIdentity) (metrics : List RawSample) :
    Prop where
  deviceId : (toUtf8 identity.deviceId).length ≤ 255
  nodeName : (toUtf8 identity.nodeName).length ≤ 255
  count : metrics.length ≤ 255
  metricIds : ∀ sample ∈ metrics, sample.metricId ≠ 0
  sensorIds : ∀ sample ∈ metrics, sample.sensorId ≠ 0
  room : 10 + (toUtf8 identity.deviceId).length + (toUtf8 identity.nodeName).length +
    10 * metrics.length ≤ out.length

theorem length_flatMap_bytes (metrics : List RawSample) :
    (metrics.flatMap RawSample.bytes).length = metrics.length * recordLen := by
  induction metrics with
  | nil => rfl
  | cons sample metrics ih =>
    rw [flatMap_cons, length_append, ih, RawSample.length_bytes, length_cons,
      Nat.add_one_mul, Nat.add_comm]

theorem length_writtenFrame (seq : UInt16) (identity : EdgeIdentity) (metrics : List RawSample) :
    (writtenFrame seq identity metrics).bytes.length = 10 + (toUtf8 identity.deviceId).length +
      (toUtf8 identity.nodeName).length + 10 * metrics.length := by
  simp only [EdgeMetricsFrame.bytes, writtenFrame, magic, length_append, length_cons,
    length_nil, Bytes.length_u16ToBe, length_flatMap_bytes, recordLen]
  omega

theorem encodeMetricsFrame_of_accepted (seq : UInt16) (h : Accepted out identity metrics) :
    encodeMetricsFrame out seq identity metrics =
      some (fill (writtenFrame seq identity metrics).bytes out,
        .ok (writtenFrame seq identity metrics).bytes.length) := by
  obtain ⟨hdevice, hnode, hcount, hmetric, hsensor, hroom⟩ := h
  have hrequired : headerLen + (toUtf8 identity.deviceId).length +
      (toUtf8 identity.nodeName).length + metrics.length * recordLen ≤ out.length := by
    simp only [headerLen, recordLen]
    omega
  have hbytes : (writtenFrame seq identity metrics).bytes =
      magic ++ [version] ++ [frameKindMetrics] ++ [0] ++ u16ToBe seq ++
        [UInt8.ofNat metrics.length] ++ [UInt8.ofNat (toUtf8 identity.deviceId).length] ++
        [UInt8.ofNat (toUtf8 identity.nodeName).length] ++ toUtf8 identity.deviceId ++
        toUtf8 identity.nodeName ++ metrics.flatMap RawSample.bytes := by
    simp [EdgeMetricsFrame.bytes, writtenFrame]
  rw [encodeMetricsFrame, if_neg (by omega), if_neg (by omega), if_neg (by simpa using hmetric),
    if_neg (by simpa using hsensor)]
  dsimp only
  rw [if_neg (by omega), writeFrame_fill hrequired, Option.map_some, ← hbytes,
    length_writtenFrame, Nat.mul_comm]
  rfl

theorem encodeMetricsFrame_of_not_accepted (seq : UInt16) (h : ¬ Accepted out identity metrics) :
    ∃ err, encodeMetricsFrame out seq identity metrics = some (out, .error err) := by
  unfold encodeMetricsFrame
  dsimp only
  split_ifs with hname hcount hmetric hsensor hroom
  · exact ⟨_, rfl⟩
  · exact ⟨_, rfl⟩
  · exact ⟨_, rfl⟩
  · exact ⟨_, rfl⟩
  · exact ⟨_, rfl⟩
  · refine absurd ⟨by omega, by omega, by omega, by simpa using hmetric, by simpa using hsensor,
      ?_⟩ h
    simp only [headerLen, recordLen] at hroom
    omega

end Writing

theorem exists_checked (hmetric : ∀ sample ∈ metrics, sample.metricId ≠ 0)
    (hsensor : ∀ sample ∈ metrics, sample.sensorId ≠ 0) :
    ∃ samples : List EdgeMetricSample, samples.map EdgeMetricSample.raw = metrics := by
  induction metrics with
  | nil => exact ⟨[], rfl⟩
  | cons sample metrics ih =>
    obtain ⟨hm, hms⟩ := forall_mem_cons.mp hmetric
    obtain ⟨hs, hss⟩ := forall_mem_cons.mp hsensor
    obtain ⟨samples, rfl⟩ := ih hms hss
    exact ⟨⟨⟨_, hm⟩, ⟨_, hs⟩, sample.kind, sample.unit, sample.value⟩ :: samples, rfl⟩

theorem toNat_writtenCount (seq : UInt16) (identity : EdgeIdentity) (h : metrics.length ≤ 255) :
    (writtenFrame seq identity metrics).metricCount.toNat = metrics.length :=
  UInt8.toNat_ofNat_of_lt' (Nat.lt_of_le_of_lt h (by decide))

theorem wellFormed_writtenFrame (seq : UInt16) (h : Accepted out identity metrics) :
    (writtenFrame seq identity metrics).WellFormed where
  deviceId := h.deviceId
  nodeName := h.nodeName
  records := by
    rw [toNat_writtenCount _ _ h.count]
    exact length_flatMap_bytes metrics

theorem items_writtenFrame (seq : UInt16) (identity : EdgeIdentity)
    {samples : List EdgeMetricSample} {fuel : ℕ}
    (h : samples.length ≤ 255) (hfuel : samples.length ≤ fuel) :
    (writtenFrame seq identity (samples.map EdgeMetricSample.raw)).iter.items fuel =
      samples.map .ok := by
  have hlen : (samples.map EdgeMetricSample.raw).length ≤ 255 := by simpa using h
  have hcount := toNat_writtenCount seq identity hlen
  have hchunks : ∀ record ∈ samples.map fun sample => sample.raw.bytes,
      record.length = recordLen := by simp
  have hitems := @items_flatten _ fuel hchunks (by simpa using hfuel)
  rw [length_map, map_map] at hitems
  rw [EdgeMetricsFrame.iter, hcount, length_map]
  have hrecords : (writtenFrame seq identity (samples.map EdgeMetricSample.raw)).records =
      (samples.map fun sample => sample.raw.bytes).flatten := by
    rw [writtenFrame, flatMap_map, flatMap_def]
  rw [hrecords, hitems]
  exact map_congr_left fun sample _ => recordItem_bytes sample

/-- Encoding succeeds exactly on what it asks for, and its bytes are decoded to what was given.
The buffer behind them stays as it was, and so does all of it when encoding fails. -/
theorem edge_frame_round_trip (out : List UInt8) (seq : UInt16) (identity : EdgeIdentity)
    (metrics : List RawSample) :
    ∃ out' answer, encodeMetricsFrame out seq identity metrics = some (out', answer) ∧
      match answer with
      | .error _ => ¬ Accepted out identity metrics ∧ out' = out
      | .ok n =>
        Accepted out identity metrics ∧
        n = 10 + (toUtf8 identity.deviceId).length + (toUtf8 identity.nodeName).length +
          10 * metrics.length ∧
        out'.length = out.length ∧ out'.drop n = out.drop n ∧
        ∃ (frame : EdgeMetricsFrame) (samples : List EdgeMetricSample),
          decodeMetricsFrame? (out'.take n) = some (.ok frame) ∧
          frame.seq = seq ∧ frame.flags = 0 ∧ frame.deviceId = identity.deviceId ∧
          frame.nodeName = identity.nodeName ∧ samples.map EdgeMetricSample.raw = metrics ∧
          ∀ fuel ≥ metrics.length, frame.iter.items fuel = samples.map .ok := by
  by_cases h : Accepted out identity metrics
  · refine ⟨_, _, encodeMetricsFrame_of_accepted seq h, h, length_writtenFrame _ _ _,
      Bytes.length_fill ?_, Bytes.drop_fill, ?_⟩
    · rw [length_writtenFrame]
      exact h.room
    · obtain ⟨samples, rfl⟩ := exists_checked h.metricIds h.sensorIds
      refine ⟨writtenFrame seq identity (samples.map EdgeMetricSample.raw), samples, ?_, rfl, rfl,
        rfl, rfl, rfl, ?_⟩
      · rw [Bytes.take_fill, decodeMetricsFrame?_eq,
          decodeMetricsFrame_bytes (wellFormed_writtenFrame seq h)]
      · intro fuel hfuel
        have hcount := h.count
        rw [length_map] at hcount hfuel
        exact items_writtenFrame seq identity hcount hfuel
  · obtain ⟨err, herr⟩ := encodeMetricsFrame_of_not_accepted seq h
    exact ⟨_, _, herr, h, rfl⟩

theorem eq_bytes_of_items {chunks : List (List UInt8)} {samples : List EdgeMetricSample}
    (hlen : ∀ record ∈ chunks, record.length = recordLen)
    (h : chunks.map recordItem = samples.map .ok) :
    chunks = samples.map fun sample => sample.raw.bytes := by
  induction chunks generalizing samples with
  | nil =>
    cases samples with
    | nil => rfl
    | cons sample samples => cases h
  | cons record chunks ih =>
    cases samples with
    | nil => cases h
    | cons sample samples =>
      obtain ⟨hrecord, hchunks⟩ := forall_mem_cons.mp hlen
      obtain ⟨hitem, hitems⟩ := List.cons.inj h
      rw [map_cons, bytes_of_recordItem hrecord hitem, ← ih hchunks hitems]

section Decoded

variable {frame frame' : EdgeMetricsFrame} {input : List UInt8} {samples : List EdgeMetricSample}

theorem eq_writtenFrame (h : frame.WellFormed) (hitems : frame.items = samples.map .ok)
    (hflags : frame.flags = 0) :
    frame = writtenFrame frame.seq ⟨frame.deviceId, frame.nodeName⟩
      (samples.map EdgeMetricSample.raw) := by
  have hpieces := items_of_wellFormed h (Nat.le_refl _)
  have hlen := Bytes.length_pieces recordLen frame.metricCount.toNat frame.records
  have hbytes := eq_bytes_of_items (fun _ hr => Bytes.length_of_mem_pieces h.records hr)
    (hpieces.symm.trans hitems)
  have hrecords : frame.records = (samples.map EdgeMetricSample.raw).flatMap RawSample.bytes := by
    rw [← Bytes.flatten_pieces h.records, hbytes, flatMap_map, flatMap_def]
  have hcount : frame.metricCount = UInt8.ofNat (samples.map EdgeMetricSample.raw).length := by
    rw [hbytes, length_map] at hlen
    rw [length_map, hlen, UInt8.ofNat_toNat]
  rw [writtenFrame, ← hrecords, ← hcount, ← hflags]

theorem accepted_of_wellFormed {out : List UInt8} (h : frame.WellFormed)
    (hitems : frame.items = samples.map .ok) (hflags : frame.flags = 0)
    (hroom : frame.bytes.length ≤ out.length) :
    Accepted out ⟨frame.deviceId, frame.nodeName⟩ (samples.map EdgeMetricSample.raw) where
  deviceId := h.deviceId
  nodeName := h.nodeName
  count := by
    have hlen := congrArg List.length (items_of_wellFormed h (Nat.le_refl _))
    have hmax := frame.metricCount.toNat_lt
    rw [← EdgeMetricsFrame.items, hitems, length_map, length_map,
      Bytes.length_pieces] at hlen
    rw [length_map]
    omega
  metricIds := forall_mem_map.mpr fun sample _ => sample.metricId.nonzero
  sensorIds := forall_mem_map.mpr fun sample _ => sample.sensorId.nonzero
  room := by
    rw [eq_writtenFrame h hitems hflags, length_writtenFrame] at hroom
    exact hroom

/-- What a decoded frame tells about its bytes. -/
structure Canonical (input : List UInt8) (frame : EdgeMetricsFrame) : Prop where
  /-- The bytes end with the records, ten bytes each. -/
  records : frame.records <:+ input ∧ frame.records.length = frame.metricCount.toNat * recordLen
  /-- Asked often enough, the iterator yields as many items as the frame announces. -/
  ends : ∀ fuel ≥ frame.metricCount.toNat, frame.iter.items fuel = frame.items
  count : frame.items.length = frame.metricCount.toNat
  complete : ∀ item ∈ frame.items, item ≠ .error .badRecordLength
  /-- An item depends on its own ten bytes only. -/
  apart : ∀ i < frame.metricCount.toNat,
    frame.items[i]? = some (recordItem ((frame.records.drop (i * recordLen)).take recordLen))
  /-- Encoding the content gives the same bytes. -/
  encoded : ∀ samples : List EdgeMetricSample, frame.items = samples.map .ok → frame.flags = 0 →
    ∀ out : List UInt8, input.length ≤ out.length →
      encodeMetricsFrame out frame.seq ⟨frame.deviceId, frame.nodeName⟩
        (samples.map EdgeMetricSample.raw) = some (fill input out, .ok input.length)
  /-- No other bytes have this content. -/
  unique : ∀ samples : List EdgeMetricSample, frame.items = samples.map .ok → frame.flags = 0 →
    ∀ input' frame', decodeMetricsFrame input' = .ok frame' → frame'.flags = 0 →
      frame'.seq = frame.seq → frame'.deviceId = frame.deviceId →
      frame'.nodeName = frame.nodeName → frame'.items = frame.items → input' = input

/-- The decoder and the iterator never panic, and the bytes of a decoded frame are canonical. -/
theorem edge_decoding_canonical (input : List UInt8) :
    decodeMetricsFrame? input = some (decodeMetricsFrame input) ∧
      (∀ iter : EdgeMetricIter, iter.next? = some iter.next) ∧
      ∀ frame, decodeMetricsFrame input = .ok frame → Canonical input frame := by
  refine ⟨decodeMetricsFrame?_eq input, next?_eq, fun frame hframe => ?_⟩
  obtain ⟨h, rfl⟩ := decodeMetricsFrame_ok_iff.mp hframe
  have hitems : frame.items = _ := items_of_wellFormed h (Nat.le_refl _)
  refine ⟨⟨suffix_append _ _, h.records⟩, fun fuel hfuel => ?_, ?_, ?_, fun i hi => ?_, ?_, ?_⟩
  · rw [items_of_wellFormed h hfuel, hitems]
  · rw [hitems, length_map, Bytes.length_pieces]
  · rw [hitems, forall_mem_map]
    exact fun record hr =>
      recordItem_ne_badRecordLength (Bytes.length_of_mem_pieces h.records hr)
  · rw [hitems, getElem?_map, Bytes.getElem?_pieces hi, Option.map_some]
  · intro samples hsamples hflags out hroom
    have heq := eq_writtenFrame h hsamples hflags
    have hencode := encodeMetricsFrame_of_accepted frame.seq
      (accepted_of_wellFormed h hsamples hflags hroom)
    rw [← heq] at hencode
    exact hencode
  · intro samples hsamples hflags input' frame' hframe' hflags' hseq hdevice hnode hsame
    obtain ⟨h', rfl⟩ := decodeMetricsFrame_ok_iff.mp hframe'
    have heq := eq_writtenFrame h hsamples hflags
    have heq' := eq_writtenFrame h' (hsame.trans hsamples) hflags'
    rw [hseq, hdevice, hnode, ← heq] at heq'
    rw [heq']

end Decoded

end SkidMonitor.EdgeWire
