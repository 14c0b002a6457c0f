import SkidMonitor.Core.Envelope
import SkidMonitor.Lib.Bytes
import SkidMonitor.Lib.Stream
import SkidMonitor.Lib.Table

/-! Signals on a byte stream: the length of the payload in four bytes, then the payload. -/
namespace SkidMonitor.Frame

open List

open Bytes (u32FromBe u32ToBe)
open Stream (Piece content readExact)

def legacyMaxFrameBytes : UInt32 := 16 * 1024 * 1024

inductive FrameError where
  | invalidSignal (message : String)
  | frameTooLarge (len : ℕ)
  | unexpectedEof
  deriving DecidableEq, Repr

def validateFrameLen (len : UInt32) : Except FrameError ℕ :=
  if len > legacyMaxFrameBytes then .error (.frameTooLarge len.toNat) else .ok len.toNat

def validatePayloadLen (len : ℕ) : Except FrameError Unit :=
  if len > legacyMaxFrameBytes.toNat then .error (.frameTooLarge len) else .ok ()

/-- The writer is the bytes it has got. -/
def writeSignalPayload (writer payload : List UInt8) : Except FrameError Unit × List UInt8 :=
  match validatePayloadLen payload.length with
  | .error err => (.error err, writer)
  | .ok () => (.ok (), writer ++ u32ToBe (UInt32.ofNat payload.length) ++ payload)

section Json

variable (toVec : Signal → Except String (List UInt8))
  (fromSlice : List UInt8 → Except String Signal)

def encodeSignalPayload (signal : Signal) : Except FrameError (List UInt8) := do
  let payload ← (toVec signal).mapError .invalidSignal
  validatePayloadLen payload.length
  return payload

def decodeSignalPayload (payload : List UInt8) : Except FrameError Signal :=
  (fromSlice payload).mapError .invalidSignal

def writeSignal (writer : List UInt8) (signal : Signal) : Except FrameError ℕ × List UInt8 :=
  match encodeSignalPayload toVec signal with
  | .error err => (.error err, writer)
  | .ok payload =>
    match writeSignalPayload writer payload with
    | (.error err, writer) => (.error err, writer)
    | (.ok (), writer) => (.ok payload.length, writer)

/-- What is left to read once the length is known. -/
def readPayload (len : UInt32) (reader : List (Piece UInt8)) :
    Except FrameError Signal × List (Piece UInt8) :=
  match validateFrameLen len with
  | .error err => (.error err, reader)
  | .ok len =>
    match readExact reader len with
    | (some payload, reader) => (decodeSignalPayload fromSlice payload, reader)
    | (none, reader) => (.error .unexpectedEof, reader)

def readSignal (reader : List (Piece UInt8)) : Except FrameError Signal × List (Piece UInt8) :=
  match readExact reader 4 with
  | (some [a, b, c, d], reader) => readPayload fromSlice (u32FromBe a b c d) reader
  | (_, reader) => (.error .unexpectedEof, reader)

/-- Writes one signal after the other. -/
def writeSignals (writer : List UInt8) : List Signal → List (Except FrameError ℕ) × List UInt8
  | [] => ([], writer)
  | signal :: signals =>
    let (answer, writer) := writeSignal toVec writer signal
    let (answers, writer) := writeSignals writer signals
    (answer :: answers, writer)

/-- Reads a number of signals. -/
def readSignals (reader : List (Piece UInt8)) :
    ℕ → List (Except FrameError Signal) × List (Piece UInt8)
  | 0 => ([], reader)
  | n + 1 =>
    let (answer, reader) := readSignal fromSlice reader
    let (answers, reader) := readSignals reader n
    (answer :: answers, reader)

end Json

variable {toVec : Signal → Except String (List UInt8)}
  {fromSlice : List UInt8 → Except String Signal} {signal : Signal} {signals : List Signal}
  {payload tail writer : List UInt8} {reader : List (Piece UInt8)} {len : UInt32}

/-- A payload with its length in front. -/
def frameOf (payload : List UInt8) : List UInt8 :=
  u32ToBe (UInt32.ofNat payload.length) ++ payload

theorem validatePayloadLen_of_le {n : ℕ} (h : n ≤ legacyMaxFrameBytes.toNat) :
    validatePayloadLen n = .ok () := if_neg (Nat.not_lt.mpr h)

theorem validatePayloadLen_of_lt {n : ℕ} (h : legacyMaxFrameBytes.toNat < n) :
    validatePayloadLen n = .error (.frameTooLarge n) := if_pos h

theorem writeSignalPayload_of_le (h : payload.length ≤ legacyMaxFrameBytes.toNat) :
    writeSignalPayload writer payload = (.ok (), writer ++ frameOf payload) := by
  rw [writeSignalPayload, validatePayloadLen_of_le h, frameOf, append_assoc]

theorem writeSignalPayload_of_lt (h : legacyMaxFrameBytes.toNat < payload.length) :
    writeSignalPayload writer payload = (.error (.frameTooLarge payload.length), writer) := by
  rw [writeSignalPayload, validatePayloadLen_of_lt h]

/-- After the four bytes of the length. -/
theorem readSignal_of_prefix (h : content reader = u32ToBe len ++ tail) :
    ∃ reader', content reader' = tail ∧
      readSignal fromSlice reader = readPayload fromSlice len reader' := by
  obtain ⟨reader', hread, hrest⟩ := Stream.readExact_of_append h
  refine ⟨reader', hrest, ?_⟩
  rw [Bytes.length_u32ToBe] at hread
  rw [readSignal, hread, u32ToBe]
  dsimp only
  rw [Bytes.u32FromBe_toBe]

theorem validateFrameLen_of_le (h : len.toNat ≤ legacyMaxFrameBytes.toNat) :
    validateFrameLen len = .ok len.toNat :=
  if_neg fun hlt => Nat.not_lt.mpr h (UInt32.lt_iff_toNat_lt.mp hlt)

theorem validateFrameLen_of_lt (h : legacyMaxFrameBytes.toNat < len.toNat) :
    validateFrameLen len = .error (.frameTooLarge len.toNat) :=
  if_pos (UInt32.lt_iff_toNat_lt.mpr h)

/-- The payload of a frame is handed to the decoder, and what follows it is left. -/
theorem readSignal_of_frame (fromSlice : List UInt8 → Except String Signal)
    (hlen : payload.length = len.toNat)
    (h : len.toNat ≤ legacyMaxFrameBytes.toNat)
    (hcontent : content reader = u32ToBe len ++ (payload ++ tail)) :
    ∃ reader', readSignal fromSlice reader = (decodeSignalPayload fromSlice payload, reader') ∧
      content reader' = tail := by
  obtain ⟨reader', hreader', hread⟩ := readSignal_of_prefix hcontent
  obtain ⟨reader'', hpayload, htail⟩ := Stream.readExact_of_append hreader'
  rw [hlen] at hpayload
  rw [hread, readPayload, validateFrameLen_of_le h]
  dsimp only
  rw [hpayload]
  exact ⟨reader'', rfl, htail⟩

theorem readSignal_of_large (h : legacyMaxFrameBytes.toNat < len.toNat)
    (hcontent : content reader = u32ToBe len ++ tail) :
    (readSignal fromSlice reader).1 = .error (.frameTooLarge len.toNat) := by
  obtain ⟨reader', -, hread⟩ := readSignal_of_prefix hcontent
  rw [hread, readPayload, validateFrameLen_of_lt h]

theorem toNat_ofNat_length (h : payload.length ≤ legacyMaxFrameBytes.toNat) :
    (UInt32.ofNat payload.length).toNat = payload.length :=
  UInt32.toNat_ofNat_of_lt' (Nat.lt_of_le_of_lt h legacyMaxFrameBytes.toNat_lt)

/-- A frame that is cut short is not read. -/
theorem readSignal_of_short (h : payload.length ≤ legacyMaxFrameBytes.toNat)
    (hcontent : content reader <+: frameOf payload)
    (hne : content reader ≠ frameOf payload) :
    (readSignal fromSlice reader).1 = .error .unexpectedEof := by
  obtain ⟨missing, hmissing⟩ := hcontent
  by_cases hheader : (content reader).length < 4
  · have hread := Stream.readExact_of_lt hheader
    cases hexact : readExact reader 4 with
    | mk bytes reader' =>
      rw [hexact] at hread
      dsimp only at hread
      rw [readSignal, hexact, hread]
  · have hstart : content reader =
        u32ToBe (UInt32.ofNat payload.length) ++ (content reader).drop 4 := by
      have htake := congrArg (List.take 4) hmissing
      rw [take_append_of_le_length (by omega), frameOf,
        take_left' (Bytes.length_u32ToBe _)] at htake
      rw [← htake, take_append_drop]
    have hlt : ((content reader).drop 4).length < payload.length := by
      have hlen := congrArg List.length hmissing
      have hpos : missing ≠ [] := by
        rintro rfl
        exact hne (by simpa using hmissing)
      have := length_pos_iff.mpr hpos
      rw [length_append, frameOf, length_append, Bytes.length_u32ToBe] at hlen
      rw [length_drop]
      omega
    obtain ⟨reader', hreader', hread⟩ := readSignal_of_prefix hstart
    have hshort := Stream.readExact_of_lt (hreader' ▸ hlt)
    rw [hread, readPayload, validateFrameLen_of_le (by rwa [toNat_ofNat_length h]),
      toNat_ofNat_length h]
    dsimp only
    cases hexact : readExact reader' payload.length with
    | mk bytes rest =>
      rw [hexact] at hshort
      dsimp only at hshort
      rw [hshort]

/-- A signal with its payload, small enough to be sent and readable again. -/
structure Sendable (toVec : Signal → Except String (List UInt8))
    (fromSlice : List UInt8 → Except String Signal) (signal : Signal) (payload : List UInt8) :
    Prop where
  encoded : toVec signal = .ok payload
  decoded : fromSlice payload = .ok signal
  fits : payload.length ≤ legacyMaxFrameBytes.toNat

theorem writeSignal_of_sendable (h : Sendable toVec fromSlice signal payload) :
    writeSignal toVec writer signal = (.ok payload.length, writer ++ frameOf payload) := by
  have hencode : encodeSignalPayload toVec signal = .ok payload := by
    rw [encodeSignalPayload, h.encoded]
    simp only [Except.mapError, bind, Except.bind, validatePayloadLen_of_le h.fits]
    rfl
  rw [writeSignal, hencode]
  dsimp only
  rw [writeSignalPayload_of_le h.fits]

theorem readSignal_of_sendable (h : Sendable toVec fromSlice signal payload)
    (hcontent : content reader = frameOf payload ++ tail) :
    ∃ reader', readSignal fromSlice reader = (.ok signal, reader') ∧ content reader' = tail := by
  rw [frameOf, append_assoc] at hcontent
  have hlen := toNat_ofNat_length h.fits
  obtain ⟨reader', hread, hrest⟩ := readSignal_of_frame fromSlice hlen.symm
    (hlen.trans_le h.fits) hcontent
  rw [decodeSignalPayload, h.decoded] at hread
  exact ⟨reader', hread, hrest⟩

variable {payloads : List (List UInt8)}

theorem writeSignals_of_sendable (h : List.Forall₂ (Sendable toVec fromSlice) signals payloads)
    (writer : List UInt8) :
    writeSignals toVec writer signals =
      (payloads.map fun payload => .ok payload.length, writer ++ payloads.flatMap frameOf) := by
  induction h generalizing writer with
  | nil => simp [writeSignals]
  | cons hsignal _ ih =>
    rw [writeSignals, writeSignal_of_sendable hsignal]
    dsimp only
    rw [ih, flatMap_cons, append_assoc]
    rfl

theorem readSignals_of_sendable (h : List.Forall₂ (Sendable toVec fromSlice) signals payloads)
    (hcontent : content reader = payloads.flatMap frameOf ++ tail) :
    ∃ reader', readSignals fromSlice reader signals.length = (signals.map .ok, reader') ∧
      content reader' = tail := by
  induction h generalizing reader with
  | nil => exact ⟨reader, rfl, hcontent⟩
  | cons hsignal _ ih =>
    rw [flatMap_cons, append_assoc] at hcontent
    obtain ⟨reader', hread, hrest⟩ := readSignal_of_sendable hsignal hcontent
    obtain ⟨reader'', hreads, htail⟩ := ih hrest
    refine ⟨reader'', ?_, htail⟩
    rw [length_cons, readSignals, hread]
    dsimp only
    rw [hreads]
    rfl

/-- The length can stand in front of a written payload. -/
def Emitted (len : UInt32) : Prop :=
  ∃ writer payload, writeSignalPayload writer payload = (.ok (), writer ++ (u32ToBe len ++ payload))

theorem emitted_iff : Emitted len ↔ len.toNat ≤ legacyMaxFrameBytes.toNat := by
  constructor
  · rintro ⟨writer, payload, hwrite⟩
    by_cases hlen : payload.length ≤ legacyMaxFrameBytes.toNat
    · rw [writeSignalPayload_of_le hlen, frameOf, Prod.mk.injEq] at hwrite
      have hbytes := append_cancel_right (append_cancel_left hwrite.2)
      rw [← Bytes.u32ToBe_inj hbytes, toNat_ofNat_length hlen]
      exact hlen
    · rw [writeSignalPayload_of_lt (Nat.not_le.mp hlen)] at hwrite
      cases hwrite
  · intro hlen
    have hlength : (List.replicate len.toNat (0 : UInt8)).length = len.toNat :=
      length_replicate
    refine ⟨[], List.replicate len.toNat 0, ?_⟩
    rw [writeSignalPayload_of_le (hlength.trans_le hlen), frameOf, hlength, UInt32.ofNat_toNat]

/-- Signals that are written are read again, whatever the pieces in which their bytes arrive. A
frame that is cut short fails, and the reader takes the lengths a writer can put down. -/
theorem framing_round_trip (toVec : Signal → Except String (List UInt8))
    (fromSlice : List UInt8 → Except String Signal) (signals : List Signal)
    (hsend : ∀ signal ∈ signals, ∃ payload, Sendable toVec fromSlice signal payload) :
    (∃ payloads, List.Forall₂ (Sendable toVec fromSlice) signals payloads ∧
      (∀ writer, writeSignals toVec writer signals =
        (payloads.map fun payload => .ok payload.length, writer ++ payloads.flatMap frameOf)) ∧
      ∀ reader tail, content reader = payloads.flatMap frameOf ++ tail →
        ∃ reader', readSignals fromSlice reader signals.length = (signals.map .ok, reader') ∧
          content reader' = tail) ∧
      (∀ payload reader, payload.length ≤ legacyMaxFrameBytes.toNat →
        content reader <+: frameOf payload → content reader ≠ frameOf payload →
        (readSignal fromSlice reader).1 = .error .unexpectedEof) ∧
      ∀ len, (Emitted len → ∀ payload reader tail, payload.length = len.toNat →
          content reader = u32ToBe len ++ (payload ++ tail) →
          ∃ reader', readSignal fromSlice reader =
            (decodeSignalPayload fromSlice payload, reader') ∧ content reader' = tail) ∧
        (¬ Emitted len → ∀ reader tail, content reader = u32ToBe len ++ tail →
          (readSignal fromSlice reader).1 = .error (.frameTooLarge len.toNat)) := by
  obtain ⟨payloads, hpayloads⟩ := Table.exists_forall₂ hsend
  refine ⟨⟨payloads, hpayloads, writeSignals_of_sendable hpayloads, fun reader tail hcontent => ?_⟩,
    fun payload reader hlen hcut hne => ?_, fun len => ⟨?_, ?_⟩⟩
  · exact readSignals_of_sendable hpayloads hcontent
  · exact readSignal_of_short hlen hcut hne
  · intro hemitted payload reader tail hlen hcontent
    exact readSignal_of_frame fromSlice hlen (emitted_iff.mp hemitted) hcontent
  · intro hlarge reader tail hcontent
    rw [emitted_iff, Nat.not_le] at hlarge
    exact readSignal_of_large hlarge hcontent

/-- Two signals, whose bytes arrive in three pieces and after an interruption. -/
theorem framing_round_trip_sample :
    let signals : List Signal := [.logs [], .metrics []]
    let bytes := (writeSignals Sample.toVec [] signals).2
    ∃ reader reader', content reader = bytes ∧ reader.length = 4 ∧
      readSignals Sample.fromSlice reader 2 = (signals.map .ok, reader') ∧ content reader' = [] := by
  intro signals bytes
  have hlogs : Sendable Sample.toVec Sample.fromSlice (.logs []) _ := ⟨rfl, rfl, by decide⟩
  have hmetrics : Sendable Sample.toVec Sample.fromSlice (.metrics []) _ := ⟨rfl, rfl, by decide⟩
  obtain ⟨⟨payloads, -, hwrite, hread⟩, -⟩ := framing_round_trip Sample.toVec Sample.fromSlice
    signals (forall_mem_cons.mpr ⟨⟨_, hlogs⟩, forall_mem_singleton.mpr ⟨_, hmetrics⟩⟩)
  have hbytes : bytes = payloads.flatMap frameOf ++ [] := by
    rw [append_nil]
    exact congrArg Prod.snd (hwrite [])
  have hcontent : content [.items 0 [0, 0], .interrupted, .items 28 ((bytes.drop 4).take 9),
      .items 34 (bytes.drop 14)] = bytes := by decide +kernel
  obtain ⟨reader', hreads, htail⟩ := hread _ [] (hcontent.trans hbytes)
  exact ⟨_, reader', hcontent, rfl, hreads, htail⟩

end SkidMonitor.Frame
