import SkidMonitor.Lib.Text
import SkidMonitor.Lib.World

/-! The database log receiver: a file is tailed, and its complete lines are exported.
A poll is a program over file operations, each of which may fail, and the file may
grow between any two of them. -/
namespace SkidMonitor.DatabaseLogs

open List

abbrev Bytes := List UInt8

def rotationFingerprintBytes : ℕ := 64

inductive LogStartPosition where
  | beginning
  | atEnd
deriving DecidableEq

structure DatabaseLogsReceiverConfig where
  startAt : LogStartPosition
  maxLineBytes : ℕ
  maxReadBytes : ℕ

structure TailState where
  initialized : Bool := false
  offset : ℕ := 0
  fingerprint : Option Bytes := none
  pendingLine : Bytes := []
  pendingLineTruncated : Bool := false
deriving DecidableEq

/-- `E` is the type of the errors of the file system and of the pipeline. -/
inductive PollAndExportError (E : Type) where
  | source (error : E)
  | pipeline (error : E)

/-- The operations of a poll. A read names the position the preceding seek has set. -/
inductive FileOp where
  | openFile
  | metadata
  | seek (pos : ℕ)
  | readExact (count : ℕ)
  | read (pos count : ℕ)
  | exportLines (lines : List Str)

def FileOp.Out : FileOp → Type
  | .metadata => ℕ
  | .readExact _ | .read _ _ => Bytes
  | .openFile | .seek _ | .exportLines _ => Unit

variable {E : Type}

abbrev Poll (E α : Type) :=
  Prog FileOp (fun op => Except E op.Out) (TailState × PollAndExportError E) α

/-- An operation whose failure ends the poll, with the tail as it then is. -/
def attempt (state : TailState) (op : FileOp) : Poll E op.Out :=
  .query op fun
    | .ok x => .ok x
    | .error e => .err (state, .source e)

def fileFingerprint (state : TailState) (len : ℕ) : Poll E (Option Bytes) := do
  let _ ← attempt state (.seek 0)
  let prefixLen := min len rotationFingerprintBytes
  let bytes ← attempt state (.readExact prefixLen)
  return some bytes

def fingerprintReplaced (previous current : Bytes) : Bool :=
  if previous.length ≤ current.length then !previous.isPrefixOf current
  else !current.isPrefixOf previous

def TailState.rotated (state : TailState) (len : ℕ) (fingerprint : Option Bytes) : Bool :=
  let truncated := decide (len < state.offset)
  let replaced :=
    match state.fingerprint, fingerprint with
    | some previous, some current => fingerprintReplaced previous current
    | _, _ => false
  truncated || replaced

/-- The tail once a poll has measured the file. -/
def TailState.observe (state : TailState) (startAt : LogStartPosition) (len : ℕ)
    (fingerprint : Option Bytes) : TailState :=
  if !state.initialized then
    let offset :=
      match startAt with
      | .beginning => 0
      | .atEnd => len
    { state with offset, fingerprint, initialized := true }
  else
    let state :=
      if state.rotated len fingerprint then
        { state with offset := 0, pendingLine := [], pendingLineTruncated := false }
      else state
    if fingerprint.isSome then { state with fingerprint } else state

variable (config : DatabaseLogsReceiverConfig)

/-- Ends the text of a line whose bytes past the limit were dropped. -/
def truncationMark : Str := "… [truncated]".toList

def completeByte (state : TailState) (byte : UInt8) : TailState × List Str :=
  if byte = 10 then
    let pending :=
      if state.pendingLine.getLast? = some 13 then state.pendingLine.dropLast
      else state.pendingLine
    let mark := if state.pendingLineTruncated then truncationMark else []
    let lines :=
      if !pending.isEmpty || state.pendingLineTruncated then [Text.fromUtf8Lossy pending ++ mark]
      else []
    ({ state with pendingLine := [], pendingLineTruncated := false }, lines)
  else if state.pendingLine.length < config.maxLineBytes then
    ({ state with pendingLine := state.pendingLine ++ [byte] }, [])
  else ({ state with pendingLineTruncated := true }, [])

def completeLines (state : TailState) : Bytes → TailState × List Str
  | [] => (state, [])
  | byte :: bytes =>
    let first := completeByte config state byte
    let rest := completeLines first.1 bytes
    (rest.1, first.2 ++ rest.2)

/-- The second half of `pollSource`, for a file of length `len`. -/
def readSource (state : TailState) (len : ℕ) : Poll E (TailState × List Str) := do
  if len ≤ state.offset then return (state, [])
  let _ ← attempt state (.seek state.offset)
  let readLen := min (len - state.offset) config.maxReadBytes
  let bytes : Bytes ← attempt state (.read state.offset readLen)
  let state := { state with offset := state.offset + bytes.length }
  return completeLines config state bytes

def pollSource (state : TailState) : Poll E (TailState × List Str) := do
  let _ ← attempt state .openFile
  let len : ℕ ← attempt state .metadata
  let fingerprint ← fileFingerprint state len
  readSource config (state.observe config.startAt len fingerprint) len

/-- Returns the number of exported lines; a failed export restores the checkpoint. -/
def pollAndExportSource (state : TailState) : Poll E (TailState × ℕ) := do
  let checkpoint := state
  let (state, lines) ← pollSource config state
  if lines.isEmpty then return (state, 0)
  match ← Prog.send (.exportLines lines) with
  | .error e => throw (checkpoint, .pipeline e)
  | .ok _ => return (state, lines.length)

/-- The file at the path and the lines of all successful exports. -/
structure LogWorld where
  file : Bytes
  handed : List Str

/-- An operation fails, or is done; a read then returns `count` bytes. -/
inductive Choice (E : Type) where
  | fail (error : E)
  | done (count : ℕ)

/-- A file that others only append to. -/
def logWorld (E : Type) :
    World FileOp (fun op => Except E op.Out) (Choice E) Bytes LogWorld where
  perform
    | _, .fail e, w => some (.error e, w)
    | .openFile, .done _, w => some (.ok (), w)
    | .metadata, .done _, w => some (.ok w.file.length, w)
    | .seek _, .done _, w => some (.ok (), w)
    | .readExact count, .done _, w =>
      if count ≤ w.file.length then some (.ok (w.file.take count), w) else none
    | .read pos count, .done n, w =>
      if 0 < n ∧ n ≤ count ∧ pos + n ≤ w.file.length then
        some (.ok ((w.file.drop pos).take n), w)
      else none
    | .exportLines lines, .done _, w => some (.ok (), { w with handed := w.handed ++ lines })
  disturb bytes w := { w with file := w.file ++ bytes }

section Lines
variable {config : DatabaseLogsReceiverConfig} {s : TailState} {xs ys : Bytes}

theorem completeLines_append :
    completeLines config s (xs ++ ys) =
      let first := completeLines config s xs
      let rest := completeLines config first.1 ys
      (rest.1, first.2 ++ rest.2) := by
  induction xs generalizing s with
  | nil => rfl
  | cons x xs ih => simp [completeLines, ih]

/-- A tail at the beginning of its file, but for the line it is inside of. -/
def TailState.lineOnly (s : TailState) : TailState :=
  { pendingLine := s.pendingLine, pendingLineTruncated := s.pendingLineTruncated }

/-- The tails differ in the line they are inside of only. -/
def TailState.SamePlace (s t : TailState) : Prop :=
  t.initialized = s.initialized ∧ t.offset = s.offset ∧ t.fingerprint = s.fingerprint

theorem completeByte_lineOnly (b : UInt8) :
    s.SamePlace (completeByte config s b).1 ∧
      completeByte config s.lineOnly b =
        ((completeByte config s b).1.lineOnly, (completeByte config s b).2) := by
  by_cases hb : b = 10
  · rw [completeByte, completeByte, if_pos hb, if_pos hb]
    exact ⟨⟨rfl, rfl, rfl⟩, rfl⟩
  · by_cases hroom : s.pendingLine.length < config.maxLineBytes <;>
      simp [completeByte, TailState.lineOnly, TailState.SamePlace, hb, hroom]

/-- Of the tail, completing lines reads and changes the pending line only. -/
theorem completeLines_lineOnly :
    s.SamePlace (completeLines config s xs).1 ∧
      completeLines config s.lineOnly xs =
        ((completeLines config s xs).1.lineOnly, (completeLines config s xs).2) := by
  induction xs generalizing s with
  | nil => exact ⟨⟨rfl, rfl, rfl⟩, rfl⟩
  | cons x xs ih =>
    obtain ⟨⟨hi, ho, hf⟩, hx⟩ := @completeByte_lineOnly config s x
    obtain ⟨⟨hi', ho', hf'⟩, hxs⟩ := @ih (completeByte config s x).1
    refine ⟨⟨hi'.trans hi, ho'.trans ho, hf'.trans hf⟩, ?_⟩
    simp only [completeLines, hx, hxs]

end Lines

section Polls
variable {config : DatabaseLogsReceiverConfig} {s t : TailState} {w w' : LogWorld} {α : Type}
  {es : List (Event Bytes (Choice E))}

/-- What was appended to the file during some events. -/
def appended (es : List (Event Bytes (Choice E))) : Bytes :=
  es.flatMap fun
    | .disturb bytes => bytes
    | .perform _ => []

@[simp] theorem appended_append (es es' : List (Event Bytes (Choice E))) :
    appended (es ++ es') = appended es ++ appended es' := by
  simp [appended]

@[simp] theorem appended_perform (c : Choice E) : appended [.perform c] = [] := rfl

/-- The events up to and including the `n`-th operation. -/
def untilOp : ℕ → List (Event Bytes (Choice E)) → List (Event Bytes (Choice E))
  | 0, _ | _, [] => []
  | n, .disturb bytes :: es => .disturb bytes :: untilOp n es
  | n + 1, .perform c :: es => .perform c :: untilOp n es

theorem untilOp_append {n : ℕ} {c : Choice E} (ms : List Bytes) :
    untilOp (n + 1) (ms.map .disturb ++ .perform c :: es) =
      ms.map .disturb ++ .perform c :: untilOp n es := by
  induction ms with
  | nil => rfl
  | cons m ms ih => exact congrArg (.disturb m :: ·) ih

/-- The file when a poll asks for its length, which it does once it has opened it. -/
def measuredFile (file : Bytes) (es : List (Event Bytes (Choice E))) : Bytes :=
  file ++ appended (untilOp 2 es)

theorem after_eq (ms : List Bytes) :
    (logWorld E).after ms w =
      { w with file := w.file ++ appended (ms.map (.disturb (χ := Choice E))) } := by
  induction ms generalizing w with
  | nil => simp [World.after, appended]
  | cons m ms ih =>
    have hrest := @ih { w with file := w.file ++ m }
    simpa [World.after, appended, logWorld] using hrest

theorem execute_end {res out : Except (TailState × PollAndExportError E) α}
    (h : (logWorld E).execute es (.ofExcept res) w = some (out, w')) :
    out = res ∧ w' = { w with file := w.file ++ appended es } := by
  obtain ⟨ms, rfl, rfl, rfl⟩ := World.execute_ofExcept h
  exact ⟨rfl, after_eq ms⟩

theorem done_ne_error {op : FileOp} {n : ℕ} {e : E} :
    (logWorld E).perform op (.done n) w ≠ some (.error e, w') := by
  cases op <;> simp [logWorld]

/-- The operation fails and ends the poll, or the poll goes on with its answer. -/
theorem attempt_cases {op : FileOp} {f : op.Out → Poll E α}
    {out : Except (TailState × PollAndExportError E) α}
    (h : (logWorld E).execute es (attempt s op >>= f) w = some (out, w')) :
    (∃ e, out = .error (s, .source e) ∧ w' = { w with file := w.file ++ appended es }) ∨
      ∃ e₁ e₂ n x v, es = e₁ ++ e₂ ∧ (∀ n rest, untilOp (n + 1) (e₁ ++ rest) = e₁ ++ untilOp n rest) ∧
        (logWorld E).perform op (.done n) { w with file := w.file ++ appended e₁ } =
          some (.ok x, v) ∧
        (logWorld E).execute e₂ (f x) v = some (out, w') := by
  obtain ⟨ms, c, rest, r, v, rfl, hp, hrest⟩ := World.execute_query h
  rw [after_eq] at hp
  cases c with
  | fail e =>
    cases hp
    obtain ⟨rfl, rfl⟩ := @execute_end E _ _ _ _ (.error (s, .source e)) _ hrest
    refine .inl ⟨e, rfl, ?_⟩
    simp [appended]
  | done n =>
    refine .inr ⟨ms.map .disturb ++ [.perform (.done n)], rest, n, ?_⟩
    cases r with
    | error e => exact (done_ne_error hp).elim
    | ok x =>
      refine ⟨x, v, by simp, fun n rest => ?_, by simpa using hp, hrest⟩
      rw [append_assoc, singleton_append, untilOp_append]
      simp

/-- The tail `s` once a poll has measured the file as `g`. -/
def TailState.measured (s : TailState) (config : DatabaseLogsReceiverConfig) (g : Bytes) : TailState :=
  s.observe config.startAt g.length (some (g.take rotationFingerprintBytes))

/-- How a poll that measures the file as `g` and is not undone changes the tail `s`, and
the lines it exports. -/
inductive Polled (config : DatabaseLogsReceiverConfig) (s : TailState) (g : Bytes) :
    TailState → List Str → Prop where
  | measured : Polled config s g (s.measured config g) []
  | read {n : ℕ} {t : TailState} {lines : List Str} :
      0 < n → (s.measured config g).offset + n ≤ g.length →
      completeLines config
        { s.measured config g with offset := (s.measured config g).offset + n }
        ((g.drop (s.measured config g).offset).take n) = (t, lines) →
      Polled config s g t lines

theorem fingerprint_take (g more : Bytes) :
    (g ++ more).take (min g.length rotationFingerprintBytes) = g.take rotationFingerprintBytes := by
  rw [take_append_of_le_length (Nat.min_le_left _ _)]
  rcases Nat.le_total g.length rotationFingerprintBytes with h | h
  · rw [Nat.min_eq_left h, take_length, take_of_length_le h]
  · rw [Nat.min_eq_right h]

theorem slice_append {g more : Bytes} {pos n : ℕ} (h : pos + n ≤ g.length) :
    ((g ++ more).drop pos).take n = (g.drop pos).take n := by
  rw [drop_append_of_le_length (by omega), take_append_of_le_length]
  rw [length_drop]
  omega

theorem fingerprint_cases {g more : Bytes}
    {out : Except (TailState × PollAndExportError E) (Option Bytes)}
    (h : (logWorld E).execute es (fileFingerprint s g.length) w = some (out, w'))
    (hg : w.file = g ++ more) :
    w' = { w with file := w.file ++ appended es } ∧
      ((∃ e, out = .error (s, e)) ∨ out = .ok (some (g.take rotationFingerprintBytes))) := by
  rcases attempt_cases h with ⟨e, rfl, rfl⟩ | ⟨a₁, b₁, _, x, v, rfl, -, hp, h⟩
  · exact ⟨rfl, .inl ⟨_, rfl⟩⟩
  cases hp
  rcases attempt_cases h with ⟨e, rfl, rfl⟩ | ⟨a₂, b₂, _, x, v, rfl, -, hp, h⟩
  · exact ⟨by simp, .inl ⟨_, rfl⟩⟩
  obtain ⟨-, hx⟩ := Option.ite_none_right_eq_some.mp hp
  cases hx
  obtain ⟨rfl, rfl⟩ := @execute_end E _ _ _ _ (.ok _) _ h
  refine ⟨by simp, .inr ?_⟩
  simp only [hg, append_assoc, fingerprint_take]

theorem readSource_cases {g more : Bytes}
    {out : Except (TailState × PollAndExportError E) (TailState × List Str)}
    (h : (logWorld E).execute es (readSource config s g.length) w = some (out, w'))
    (hg : w.file = g ++ more) :
    w' = { w with file := w.file ++ appended es } ∧
      (out = .ok (s, []) ∨ (s.offset < g.length ∧ ∃ e, out = .error (s, e)) ∨
        ∃ n, 0 < n ∧ s.offset + n ≤ g.length ∧
          out = .ok (completeLines config { s with offset := s.offset + n }
            ((g.drop s.offset).take n))) := by
  rw [readSource] at h
  by_cases hend : g.length ≤ s.offset
  · rw [if_pos hend] at h
    obtain ⟨rfl, rfl⟩ := @execute_end E _ _ _ _ (.ok _) _ h
    exact ⟨rfl, .inl rfl⟩
  have hmore : s.offset < g.length := Nat.lt_of_not_le hend
  rw [if_neg hend] at h
  rcases attempt_cases h with ⟨e, rfl, rfl⟩ | ⟨a₁, b₁, _, x, v, rfl, -, hp, h⟩
  · exact ⟨rfl, .inr (.inl ⟨hmore, _, rfl⟩)⟩
  cases hp
  rcases attempt_cases h with ⟨e, rfl, rfl⟩ | ⟨a₂, b₂, n, x, v, rfl, -, hp, h⟩
  · exact ⟨by simp, .inr (.inl ⟨hmore, _, rfl⟩)⟩
  obtain ⟨⟨hn, hcount, _⟩, hx⟩ := Option.ite_none_right_eq_some.mp hp
  cases hx
  obtain ⟨rfl, rfl⟩ := @execute_end E _ _ _ _ (.ok _) _ h
  have hle : s.offset + n ≤ g.length := by omega
  have hlen : ((g.drop s.offset).take n).length = n := by
    rw [length_take, length_drop]
    omega
  refine ⟨by simp, .inr (.inr ⟨n, hn, hle, ?_⟩)⟩
  simp only [hg, append_assoc, slice_append hle, hlen]

/-- Reading a source fails before it has measured the file, and leaves the tail alone, or
does what `Polled` says, or fails to read on. -/
theorem pollSource_cases
    {out : Except (TailState × PollAndExportError E) (TailState × List Str)}
    (h : (logWorld E).execute es (pollSource config s) w = some (out, w')) :
    w' = { w with file := w.file ++ appended es } ∧
      ((∃ e, out = .error (s, e)) ∨ ∃ g, (∀ rest, measuredFile w.file (es ++ rest) = g) ∧
        ((∃ t lines, Polled config s g t lines ∧ out = .ok (t, lines)) ∨
          (s.measured config g).offset < g.length ∧ ∃ e, out = .error (s.measured config g, e))) := by
  rcases attempt_cases h with ⟨e, rfl, rfl⟩ | ⟨a₁, b₁, _, x, v, rfl, hu₁, hp, h⟩
  · exact ⟨rfl, .inl ⟨_, rfl⟩⟩
  cases hp
  rcases attempt_cases h with ⟨e, rfl, rfl⟩ | ⟨a₂, b₂, _, x, v, rfl, hu₂, hp, h⟩
  · exact ⟨by simp, .inl ⟨_, rfl⟩⟩
  cases hp
  have hg (rest) :
      measuredFile w.file (a₁ ++ (a₂ ++ b₂) ++ rest) = w.file ++ appended a₁ ++ appended a₂ := by
    simp [measuredFile, hu₁, hu₂, untilOp]
  generalize hgen : w.file ++ appended a₁ ++ appended a₂ = g at h hg
  obtain ⟨a₃, b₃, res, v, rfl, hf, h⟩ := World.execute_bind h
  obtain ⟨rfl, hres⟩ := fingerprint_cases hf (append_nil g).symm
  rcases hres with ⟨e, rfl⟩ | rfl
  · obtain ⟨rfl, rfl⟩ := @execute_end E _ _ _ _ (.error (s, e)) _ h
    exact ⟨by simp [← hgen], .inl ⟨_, rfl⟩⟩
  obtain ⟨rfl, hres⟩ := readSource_cases h rfl
  refine ⟨by simp [← hgen], .inr ⟨g, hg, ?_⟩⟩
  rcases hres with rfl | ⟨hmore, e, rfl⟩ | ⟨n, hn, hle, rfl⟩
  · exact .inl ⟨_, _, .measured, rfl⟩
  · exact .inr ⟨hmore, e, rfl⟩
  · exact .inl ⟨_, _, .read hn hle rfl, rfl⟩

/-- A poll leaves the tail as it was and fails, or does what `Polled` says, and fails then
only if it was to read the file and did not. -/
theorem poll_cases {out : Except (TailState × PollAndExportError E) (TailState × ℕ)}
    (h : (logWorld E).execute es (pollAndExportSource config s) w = some (out, w')) :
    w'.file = w.file ++ appended es ∧
      ((∃ e, out = .error (s, e)) ∧ w'.handed = w.handed ∨
        ∃ t lines, Polled config s (measuredFile w.file es) t lines ∧
          w'.handed = w.handed ++ lines ∧
          (out = .ok (t, lines.length) ∨
            (s.measured config (measuredFile w.file es)).offset < (measuredFile w.file es).length ∧
              ∃ e, out = .error (t, e))) := by
  obtain ⟨a, b, res, v, rfl, hp, h⟩ := World.execute_bind h
  obtain ⟨rfl, hres⟩ := pollSource_cases hp
  rcases hres with ⟨e, rfl⟩ | ⟨g, hg, ⟨t, lines, hpolled, rfl⟩ | ⟨hmore, e, rfl⟩⟩
  · obtain ⟨rfl, rfl⟩ := @execute_end E _ _ _ _ (.error (s, e)) _ h
    exact ⟨by simp, .inl ⟨⟨_, rfl⟩, rfl⟩⟩
  · rw [hg b]
    change (logWorld E).execute b (if lines.isEmpty then _ else _) _ = _ at h
    by_cases hempty : lines.isEmpty
    · rw [if_pos hempty] at h
      obtain ⟨rfl, rfl⟩ := @execute_end E _ _ _ _ (.ok _) _ h
      obtain rfl := List.isEmpty_iff.mp hempty
      exact ⟨by simp, .inr ⟨t, [], hpolled, by simp, .inl rfl⟩⟩
    rw [if_neg hempty] at h
    obtain ⟨ms, c, rest, r, v, rfl, hx, h⟩ := World.execute_query h
    rw [after_eq] at hx
    cases c with
    | fail e =>
      cases hx
      obtain ⟨rfl, rfl⟩ := @execute_end E _ _ _ _ (.error (s, .pipeline e)) _ h
      exact ⟨by simp [appended], .inl ⟨⟨_, rfl⟩, rfl⟩⟩
    | done n =>
      cases hx
      obtain ⟨rfl, rfl⟩ := @execute_end E _ _ _ _ (.ok _) _ h
      exact ⟨by simp [appended], .inr ⟨t, lines, hpolled, rfl, .inl rfl⟩⟩
  · rw [hg b]
    obtain ⟨rfl, rfl⟩ := @execute_end E _ _ _ _ (.error _) _ h
    exact ⟨by simp, .inr ⟨_, [], .measured, by simp, .inr ⟨hmore, _, rfl⟩⟩⟩

end Polls

end SkidMonitor.DatabaseLogs
