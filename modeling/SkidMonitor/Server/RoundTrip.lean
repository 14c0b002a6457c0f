import SkidMonitor.Server.History

/-! An event is loaded as it was appended. -/
namespace SkidMonitor

open Fallible
open ReadCommitted
open Numbers (Number)

variable {sd : Serde} {s : StoreState}

/-- What a number is read back as from the payload column. -/
def Serde.stored (sd : Serde) (n : Number) : Option Number := sd.numberFromText n.columnText

theorem fromJsonb_toJsonb (v : Value) : fromJsonb sd (toJsonb v) = v.traverse sd.stored :=
  Json.traverse_map _ _ v

theorem cursor_of_record {t : TenantId} {row : LoadedEvent} {record : SignalRecord}
    (h : signalRecordFromRow sd t row = .ok record) :
    cursorFromRow row.cursor = .ok record.cursor := by
  unfold signalRecordFromRow at h
  obtain ⟨_, _, h⟩ := bind_ok h
  obtain ⟨cursor, hcursor, h⟩ := bind_ok h
  iterate 5 obtain ⟨_, _, h⟩ := bind_ok h
  cases h
  exact hcursor

theorem record_cursor {t : TenantId} {row : LoadedEvent} {record : SignalRecord}
    (h : signalRecordFromRow sd t row = .ok record) : row.cursor = record.cursor.value.toNat :=
  (cursorFromRow_ok (cursor_of_record h)).1

/-- The record of an appended row: only the payload can fail to be read. -/
theorem signalRecordFromRow_row {t : TenantId} {w : Append sd} {cursor : ℤ} :
    signalRecordFromRow sd t (w.row cursor).loaded = (do
      let stored ← payloadFromColumn sd (toJsonb w.payload.value)
      let cursor ← cursorFromRow cursor
      let payload ← (sd.signalFromValue stored).elim (throw .json) pure
      return ⟨cursor, { w.envelope with scope := .tenant t, payload := payload }⟩) := by
  simp only [signalRecordFromRow, EventRow.loaded, Append.row, Append.agent, Uuids.parse_print,
    agentIdFromRow, AgentId.new_text, fromPgU64Text, Numeral.readU64_print]
  rfl

theorem record_of_row {t : TenantId} {w : Append sd} {cursor : ℤ} {record : SignalRecord}
    (h : signalRecordFromRow sd t (w.row cursor).loaded = .ok record) :
    ∃ stored signal, fromJsonb sd (toJsonb w.payload.value) = some stored ∧
      sd.signalFromValue stored = some signal ∧
      record.envelope = { w.envelope with scope := .tenant t, payload := signal } := by
  rw [signalRecordFromRow_row] at h
  obtain ⟨stored, hstored, h⟩ := bind_ok h
  obtain ⟨_, _, h⟩ := bind_ok h
  refine ⟨stored, ?_⟩
  cases hsignal : sd.signalFromValue stored with
  | none =>
    rw [hsignal] at h
    cases h
  | some signal =>
    rw [hsignal] at h
    cases h
    exact ⟨signal, orError_ok.mp hstored, rfl, rfl⟩

section Sample

open Sample

/-- The labels of a load of the sample tenant. -/
def loading (i : ℕ) : List StoreLabel :=
  .start i (.load (.tenant tenant) ⟨0⟩ 10 1000) :: List.replicate 5 (.exec i ⟨10, 0⟩) ++ [.finish i]

end Sample

end SkidMonitor
