import SkidMonitor.Core.Envelope
import SkidMonitor.Lib.Fallible
import SkidMonitor.Lib.Numeral
import SkidMonitor.Lib.Unfold

/-! The body of a page of signals: a JSON text that is streamed in chunks. -/
namespace SkidMonitor.Api

open Fallible Unfold List

abbrev Bytes := List UInt8

def restReplayChunkBytes : ℕ := 64 * 1024

/-- The bytes of an ASCII text. -/
def ascii (text : String) : Bytes := text.toList.map fun c => UInt8.ofNat c.toNat

def pageStart : Bytes := ascii "\x7b\"signals\":["

def pageEnd : Bytes := ascii "],\"next_cursor\":"

/-- `R` is the type of the records and `C` that of the cursor. -/
structure SignalPageStreamState (R C : Type) where
  records : List R
  nextCursor : C
  prefixSent : Bool
  firstRecord : Bool
  suffixSent : Bool
  pending : Bytes

section Stream

variable {R C E : Type} (writeRecord : R → Except E Bytes) (writeCursor : C → Except E Bytes)

/-- One round of the loop that the stream is unfolded by. -/
def pageTurn (state : SignalPageStreamState R C) :
    Turn (SignalPageStreamState R C) (Except E Bytes) :=
  if state.pending ≠ [] then
    let chunkLen := min state.pending.length restReplayChunkBytes
    .yield (.ok (state.pending.take chunkLen)) { state with pending := state.pending.drop chunkLen }
  else if !state.prefixSent then
    .again { state with prefixSent := true, pending := pageStart }
  else
    match state.records with
    | record :: records =>
      let separator := if state.firstRecord then [] else ascii ","
      let state := { state with records, firstRecord := false }
      match writeRecord record with
      | .error error => .yield (.error error) { state with suffixSent := true }
      | .ok bytes => .again { state with pending := separator ++ bytes }
    | [] =>
      if !state.suffixSent then
        let state := { state with suffixSent := true }
        match writeCursor state.nextCursor with
        | .error error => .yield (.error error) state
        | .ok bytes => .again { state with pending := pageEnd ++ bytes ++ ascii "\x7d" }
      else .finish

def signalPageResponse (records : List R) (nextCursor : C) : SignalPageStreamState R C where
  records := records
  nextCursor := nextCursor
  prefixSent := false
  firstRecord := true
  suffixSent := false
  pending := []

/-- The text of a page with these records and this cursor. -/
def pageBody (records : List Bytes) (cursor : Bytes) : Bytes :=
  pageStart ++ (ascii ",").intercalate records ++ pageEnd ++ cursor ++ ascii "\x7d"

/-- Records with a comma before each, but for the first one of the page. -/
def separated : Bool → List Bytes → Bytes
  | _, [] => []
  | first, record :: records =>
    (if first then [] else ascii ",") ++ record ++ separated false records

theorem separated_first (records : List Bytes) :
    separated true records = (ascii ",").intercalate records := by
  cases records with
  | nil => rfl
  | cons record records =>
    induction records generalizing record with
    | nil => simp [separated]
    | cons next records ih =>
      rw [intercalate_cons_cons, ← ih next]
      simp [separated]

/-- What was written for a record or a cursor. -/
def written {α : Type} (write : α → Except E Bytes) (value : α) : Bytes :=
  match write value with
  | .ok bytes => bytes
  | .error _ => []

/-- The bytes that are not in the buffer yet. -/
def unsent (state : SignalPageStreamState R C) : Bytes :=
  (if state.prefixSent then [] else pageStart) ++
    separated state.firstRecord (state.records.map (written writeRecord)) ++
    if state.suffixSent then []
    else pageEnd ++ written writeCursor state.nextCursor ++ ascii "\x7d"

def owed (state : SignalPageStreamState R C) : Bytes :=
  state.pending ++ unsent writeRecord writeCursor state

def rank (state : SignalPageStreamState R C) : ℕ :=
  (owed writeRecord writeCursor state).length + state.records.length +
    (if state.prefixSent then 0 else 1) + if state.suffixSent then 0 else 1

/-- Everything can be written, and the end is sent last. -/
structure Writable (state : SignalPageStreamState R C) : Prop where
  records : ∀ record ∈ state.records, ∃ bytes, writeRecord record = .ok bytes
  cursor : ∃ bytes, writeCursor state.nextCursor = .ok bytes
  last : state.suffixSent → state.records = []

/-- A chunk that is not empty and not too long. -/
def GoodChunk : Except E Bytes → Prop
  | .ok chunk => chunk ≠ [] ∧ chunk.length ≤ restReplayChunkBytes
  | .error _ => False

def chunkBytes : Except E Bytes → Bytes
  | .ok chunk => chunk
  | .error _ => []

variable {writeRecord writeCursor}

theorem written_of_ok {α : Type} {write : α → Except E Bytes} {value : α} {bytes : Bytes}
    (h : write value = .ok bytes) : written write value = bytes := by
  rw [written, h]

theorem map_written {α : Type} {write : α → Except E Bytes} {values : List α} {texts : List Bytes}
    (h : List.Forall₂ (fun value text => write value = .ok text) values texts) :
    values.map (written write) = texts ∧
      ∀ value ∈ values, ∃ text, write value = .ok text := by
  induction h with
  | nil => simp
  | cons hvalue _ ih =>
    exact ⟨congrArg₂ List.cons (written_of_ok hvalue) ih.1,
      forall_mem_cons.mpr ⟨⟨_, hvalue⟩, ih.2⟩⟩

theorem GoodChunk.eq_ok {item : Except E Bytes} (h : GoodChunk item) :
    item = .ok (chunkBytes item) := by
  cases item with
  | ok chunk => rfl
  | error error => exact h.elim

section Turns

variable {records : List R} {record : R} {cursor : C} {started first ended : Bool}
  {pending bytes : Bytes} {state next : SignalPageStreamState R C}

theorem pageTurn_record (h : writeRecord record = .ok bytes) :
    pageTurn writeRecord writeCursor ⟨record :: records, cursor, true, first, ended, []⟩ =
      .again ⟨records, cursor, true, false, ended, (if first then [] else ascii ",") ++ bytes⟩ := by
  simp [pageTurn, h]

theorem pageTurn_suffix (h : writeCursor cursor = .ok bytes) :
    pageTurn writeRecord writeCursor ⟨[], cursor, true, first, false, []⟩ =
      .again ⟨[], cursor, true, first, true, pageEnd ++ bytes ++ ascii "\x7d"⟩ := by
  simp [pageTurn, h]

theorem pageTurn_pending (h : state.pending ≠ []) :
    pageTurn writeRecord writeCursor state =
      .yield (.ok (state.pending.take (min state.pending.length restReplayChunkBytes)))
        { state with
          pending := state.pending.drop (min state.pending.length restReplayChunkBytes) } := by
  rw [pageTurn, if_pos h]

/-- A round that owes as much afterwards and has fewer parts to write. -/
theorem pays_again (hturn : pageTurn writeRecord writeCursor state = .again next)
    (hnext : Writable writeRecord writeCursor next)
    (howed : owed writeRecord writeCursor next = owed writeRecord writeCursor state)
    (hless : next.records.length + (if next.prefixSent then 0 else 1) +
      (if next.suffixSent then 0 else 1) < state.records.length +
      (if state.prefixSent then 0 else 1) + (if state.suffixSent then 0 else 1)) :
    Pays (pageTurn writeRecord writeCursor) (Writable writeRecord writeCursor)
      (rank writeRecord writeCursor) (owed writeRecord writeCursor) chunkBytes GoodChunk state := by
  unfold Pays
  rw [hturn]
  refine ⟨hnext, howed, ?_⟩
  rw [rank, rank, howed]
  omega

theorem pays_pending (h : Writable writeRecord writeCursor state) (hne : state.pending ≠ []) :
    Pays (pageTurn writeRecord writeCursor) (Writable writeRecord writeCursor)
      (rank writeRecord writeCursor) (owed writeRecord writeCursor) chunkBytes GoodChunk state := by
  have hpos : 0 < state.pending.length := length_pos_iff.mpr hne
  have hchunk : 0 < min state.pending.length restReplayChunkBytes :=
    Nat.lt_min.mpr ⟨hpos, by decide⟩
  unfold Pays
  rw [pageTurn_pending hne]
  refine ⟨⟨h.records, h.cursor, h.last⟩, ?_, ⟨?_, ?_⟩, ?_⟩
  · change state.pending ++ _ = _ ++ (_ ++ _)
    rw [← append_assoc, chunkBytes, take_append_drop]
    rfl
  · refine ne_nil_of_length_pos ?_
    rw [length_take]
    omega
  · rw [length_take]
    omega
  · simp only [rank, owed, unsent, length_append, length_drop]
    omega

/-- Every round gives a part of what is owed, or writes a part of it into the buffer. -/
theorem pageTurn_pays (h : Writable writeRecord writeCursor state) :
    Pays (pageTurn writeRecord writeCursor) (Writable writeRecord writeCursor)
      (rank writeRecord writeCursor) (owed writeRecord writeCursor) chunkBytes GoodChunk state := by
  obtain ⟨records, cursor, started, first, ended, pending⟩ := state
  by_cases hpending : pending ≠ []
  · exact pays_pending h hpending
  obtain rfl := not_not.mp hpending
  cases started with
  | false =>
    refine pays_again rfl ⟨h.records, h.cursor, h.last⟩ ?_ (by simp)
    simp [owed, unsent]
  | true =>
    cases records with
    | cons record records =>
      obtain ⟨bytes, hbytes⟩ := h.records record mem_cons_self
      refine pays_again (pageTurn_record hbytes) ⟨?_, h.cursor, ?_⟩ ?_ ?_
      · exact fun r hr => h.records r (mem_cons_of_mem _ hr)
      · exact fun hended => nomatch h.last hended
      · simp [owed, unsent, separated, written_of_ok hbytes]
      · simp
    | nil =>
      cases ended with
      | true => rfl
      | false =>
        obtain ⟨bytes, hbytes⟩ := h.cursor
        refine pays_again (pageTurn_suffix hbytes) ⟨h.records, h.cursor, fun _ => rfl⟩ ?_ (by simp)
        simp [owed, unsent, separated, written_of_ok hbytes]

end Turns

/-- The stream of a page ends, its chunks are within the limit and not empty, and together they are
the text of the page. -/
theorem signalPage_streamed {records : List R} {nextCursor : C} {bodies : List Bytes}
    {cursor : Bytes} (hrecords : records.mapM writeRecord = .ok bodies)
    (hcursor : writeCursor nextCursor = .ok cursor) :
    ∃ (turns : ℕ) (chunks : List Bytes),
      (∀ n, turns < n → collect (pageTurn writeRecord writeCursor) n
        (signalPageResponse records nextCursor) = some (chunks.map .ok)) ∧
      (∀ chunk ∈ chunks, chunk ≠ [] ∧ chunk.length ≤ restReplayChunkBytes) ∧
      chunks.flatten = pageBody bodies cursor := by
  obtain ⟨hbodies, hall⟩ := map_written (mapM_ok hrecords)
  obtain ⟨items, hitems, hvalue, hgood⟩ := exists_collect (fun s hs => pageTurn_pays hs)
    (⟨hall, ⟨cursor, hcursor⟩, fun h => nomatch h⟩ :
      Writable writeRecord writeCursor (signalPageResponse records nextCursor))
  have hchunks : (items.map chunkBytes).map .ok = items := by
    rw [map_map]
    exact (map_congr_left fun item hitem => (hgood item hitem).eq_ok.symm).trans
      (map_id _)
  refine ⟨_, items.map chunkBytes, fun n hn => by rw [hchunks, hitems n hn], ?_, ?_⟩
  · intro chunk hchunk
    obtain ⟨item, hitem, rfl⟩ := mem_map.mp hchunk
    have hok := hgood item hitem
    rw [hok.eq_ok] at hok
    exact hok
  · rw [← flatMap_def, hvalue]
    simp [owed, unsent, signalPageResponse, separated_first, hbodies, written_of_ok hcursor,
      pageBody]

end Stream

section Long

/-- A record of a metric whose name has so many letters. -/
def namedRecord (cursor : UInt64) (letters : ℕ) : SignalRecord :=
  ⟨⟨cursor⟩, ⟨⟨7⟩, .solo, .sampleA, 3, 1,
    .metrics [⟨none, [⟨none, [⟨List.replicate letters 'm', [], none, ⟨[]⟩⟩], ⟨[]⟩⟩], ⟨[]⟩⟩]⟩⟩

def cursorText (cursor : SignalCursor) : Bytes := Text.toUtf8 (Numeral.print cursor.value.toNat)

/-- Its JSON text. -/
def namedText (cursor : UInt64) (letters : ℕ) : Bytes :=
  ascii "\x7b\"cursor\":" ++ cursorText ⟨cursor⟩ ++
    ascii ",\"envelope\":\x7b\"event_id\":\"00000000-0000-0000-0000-000000000007\"," ++
    ascii "\"scope\":\x7b\"mode\":\"solo\"\x7d,\"agent_id\":\"a\",\"sequence\":3," ++
    ascii "\"received_at_unix_nano\":1,\"payload\":\x7b\"Metrics\":\x7b\"resourceMetrics\":[" ++
    ascii "\x7b\"resource\":null,\"scopeMetrics\":[\x7b\"scope\":null,\"metrics\":[\x7b\"name\":\"" ++
    List.replicate letters 109 ++
    ascii "\",\"description\":\"\",\"unit\":\"\",\"metadata\":[]\x7d],\"schemaUrl\":\"\"\x7d]," ++
    ascii "\"schemaUrl\":\"\"\x7d]\x7d\x7d\x7d\x7d"

def writeNamed (record : SignalRecord) : Except Unit Bytes :=
  if record = namedRecord 5 70000 then .ok (namedText 5 70000)
  else if record = namedRecord 6 2 then .ok (namedText 6 2)
  else .error ()

/-- A page with a record that is longer than a chunk. -/
theorem signalPage_streamed_long : ∃ (turns : ℕ) (chunks : List Bytes),
    (∀ n, turns < n → collect (pageTurn writeNamed (.ok ∘ cursorText)) n
      (signalPageResponse [namedRecord 5 70000, namedRecord 6 2] ⟨6⟩) = some (chunks.map .ok)) ∧
    (∀ chunk ∈ chunks, chunk ≠ [] ∧ chunk.length ≤ restReplayChunkBytes) ∧
    chunks.flatten = pageBody [namedText 5 70000, namedText 6 2] [0x36] := by
  have hne : namedRecord 6 2 ≠ namedRecord 5 70000 :=
    fun h => absurd (congrArg (·.cursor.value) h) (by decide)
  have hlong : writeNamed (namedRecord 5 70000) = .ok (namedText 5 70000) := if_pos rfl
  have hshort : writeNamed (namedRecord 6 2) = .ok (namedText 6 2) :=
    (if_neg hne).trans (if_pos rfl)
  refine signalPage_streamed ?_ rfl
  rw [mapM_cons, mapM_cons, hlong, hshort]
  rfl

end Long

end SkidMonitor.Api
