import SkidMonitor.Lib.AtomicFile
import SkidMonitor.Lib.Numeral
import SkidMonitor.Lib.Run
import SkidMonitor.Lib.Text

/-! The file-backed allocator of request sequence numbers, under threads, competing
processes, failing file operations and crashes. -/
namespace SkidMonitor.Sequence
open Runs

def maxSequenceStateBytes : ℕ := 64

def sequenceTempAttempts : ℕ := 32

/-- `u64::MAX`. -/
def maxSequence : ℕ := 2 ^ 64 - 1

/-- The errors of the state file, without their paths and operating system errors. -/
inductive SequenceError where
  | notShortDecimal | notDecimal | invalidDecimal | zeroReserved
  | createTemporary | noUniqueTemporary | restrictPermissions | writeState | fsyncState
  | replaceState | syncParent | exhausted
  deriving DecidableEq

/-- What `writeln!` writes. -/
def stateText (next : ℕ) : Str := Numeral.print next ++ ['\n']

def stripNewline (text : Str) : Str :=
  if text.getLast? = some '\n' then text.dropLast else text

def readSequenceState (text : Str) : Except SequenceError ℕ :=
  if Text.byteLength text = 0 ∨ maxSequenceStateBytes < Text.byteLength text then
    .error .notShortDecimal
  else
    let value := stripNewline text
    if value.isEmpty || !value.all Char.isDigit then .error .notDecimal
    else
      match Numeral.readU64 value with
      | none => .error .invalidDecimal
      | some value => if value = 0 then .error .zeroReserved else .ok value.toNat

/-- Where a call of `persist_sequence_state` stands; `attempts` temporary files are left to
be tried. -/
inductive PersistStage where
  | create (attempts : ℕ)
  | restrict
  | write
  | sync
  | rename
  | syncParent
  deriving DecidableEq

def PersistStage.start : PersistStage := .create sequenceTempAttempts

/-- How the operating system answers one operation. -/
inductive Outcome where
  | ok
  | alreadyExists
  | failed
  deriving DecidableEq

/-- One operation of `persist_sequence_state`: the file it leaves, and an error, the next stage
or, with the last operation, the end. -/
def persistSequenceState (file : AtomicFile Str) (next : ℕ) :
    PersistStage → Outcome → AtomicFile Str × Except SequenceError (Option PersistStage)
  | .create _, .ok => (file, .ok (some .restrict))
  | .create attempts, .alreadyExists =>
    (file, if attempts ≤ 1 then .error .noUniqueTemporary else .ok (some (.create (attempts - 1))))
  | .create _, .failed => (file, .error .createTemporary)
  | .restrict, .ok => (file, .ok (some .write))
  | .restrict, _ => (file, .error .restrictPermissions)
  | .write, .ok => (file, .ok (some .sync))
  | .write, _ => (file, .error .writeState)
  | .sync, .ok => (file, .ok (some .rename))
  | .sync, _ => (file, .error .fsyncState)
  | .rename, .ok => (file.replace (stateText next), .ok (some .syncParent))
  | .rename, _ => (file, .error .replaceState)
  | .syncParent, .ok => (file.syncDirectory, .ok none)
  | .syncParent, _ => (file, .error .syncParent)

/-- A call of `next_blocking` that holds the mutex. -/
structure Critical where
  call : ℕ
  allocated : ℕ
  stage : PersistStage
  deriving DecidableEq

/-- An open `DurableSequence` and the calls on it: those that wait for the mutex, the one that
holds it, and those that have released it and not yet returned to their caller. -/
structure DurableSequence where
  next : ℕ
  waiting : List ℕ
  mutex : Option Critical
  leaving : List (ℕ × Except SequenceError ℕ)
  deriving DecidableEq

def DurableSequence.fresh (next : ℕ) : DurableSequence := ⟨next, [], none, []⟩

/-- The mutex is released, and the call has its result. -/
def DurableSequence.finish (seq : DurableSequence) (call : ℕ) (result : Except SequenceError ℕ) :
    DurableSequence :=
  { seq with mutex := none, leaving := seq.leaving ++ [(call, result)] }

/-- Where the instance that holds the file lock stands. -/
inductive Stage where
  | inspecting (initial : ℕ)
  | creating (initial : ℕ) (stage : PersistStage)
  | ready (seq : DurableSequence)

structure Holder where
  process : ℕ
  stage : Stage

/-- One state path. The file lock is exclusive, so at most one instance holds it. Each call has
a number; `released` lists the calls that succeeded, with their values, in the order in which
they released the mutex, and `returned` in the order in which they returned. -/
structure State where
  file : AtomicFile Str
  holder : Option Holder
  calls : ℕ
  released : List (ℕ × ℕ)
  returned : List (ℕ × ℕ)

/-- Before the first open; the state file may exist already, with any content. -/
def State.initial (content : Option Str) : State := ⟨⟨content, []⟩, none, 0, [], []⟩

inductive Event where
  | openWithStart (process : ℕ) (initial : UInt64) (outcome : Outcome)
  | inspect (outcome : Outcome)
  | creation (outcome : Outcome)
  | nextBlocking
  | acquire (call : ℕ)
  | persist (outcome : Outcome)
  | leave (call : ℕ)
  | release
  | kill (process : ℕ)
  | crash (survivor : Option ℕ)

namespace State

/-- An open that fails, or a drop, closes the lock file. -/
def unlock (s : State) : State := { s with holder := none }

/-- The lock is taken, or the open fails: the lock file cannot be opened or is locked. -/
def openWithStart (s : State) (process : ℕ) (initial : UInt64) (outcome : Outcome) : State :=
  match s.holder, outcome with
  | none, .ok => { s with holder := some ⟨process, .inspecting initial.toNat⟩ }
  | _, _ => s

/-- The state file is inspected and read, or is found missing. -/
def inspect (s : State) (process initial : ℕ) (outcome : Outcome) : State :=
  match outcome, s.file.visible with
  | .ok, none => { s with holder := some ⟨process, .creating (max initial 1) .start⟩ }
  | .ok, some text =>
    match readSequenceState text with
    | .ok next => { s with holder := some ⟨process, .ready (.fresh next)⟩ }
    | .error _ => s.unlock
  | _, _ => s.unlock

def creation (s : State) (process initial : ℕ) (stage : PersistStage) (outcome : Outcome) : State :=
  let (file, result) := persistSequenceState s.file initial stage outcome
  match result with
  | .ok (some stage) => { s with file, holder := some ⟨process, .creating initial stage⟩ }
  | .ok none => { s with file, holder := some ⟨process, .ready (.fresh initial)⟩ }
  | .error _ => { s with file, holder := none }

def setReady (s : State) (process : ℕ) (seq : DurableSequence) : State :=
  { s with holder := some ⟨process, .ready seq⟩ }

/-- A call takes the free mutex; `checked_add` fails at the largest value. -/
def acquire (s : State) (process : ℕ) (seq : DurableSequence) (call : ℕ) : Option State :=
  if seq.mutex = none ∧ call ∈ seq.waiting then
    let waiting := seq.waiting.erase call
    if seq.next < maxSequence then
      some (s.setReady process { seq with waiting, mutex := some ⟨call, seq.next, .start⟩ })
    else
      some (s.setReady process ({ seq with waiting }.finish call (.error .exhausted)))
  else none

/-- One operation of the call that holds the mutex; with the last one it stores the following
value and releases the mutex. -/
def persist (s : State) (process : ℕ) (seq : DurableSequence) (critical : Critical)
    (outcome : Outcome) : State :=
  let following := critical.allocated + 1
  let (file, result) := persistSequenceState s.file following critical.stage outcome
  let s := { s with file }
  match result with
  | .ok (some stage) => s.setReady process { seq with mutex := some { critical with stage } }
  | .ok none =>
    { s with released := s.released ++ [(critical.call, critical.allocated)] }.setReady process
      { seq.finish critical.call (.ok critical.allocated) with next := following }
  | .error e => s.setReady process (seq.finish critical.call (.error e))

/-- A call returns to its caller. -/
def leave (s : State) (process : ℕ) (seq : DurableSequence) (call : ℕ) : Option State :=
  (seq.leaving.find? (·.1 = call)).map fun (_, result) =>
    let s := s.setReady process { seq with leaving := seq.leaving.filter (·.1 ≠ call) }
    match result with
    | .ok value => { s with returned := s.returned ++ [(call, value)] }
    | .error _ => s

/-- The process dies at any point, and the operating system closes its lock file. -/
def kill (s : State) (process : ℕ) : State :=
  if s.holder.any (·.process = process) then s.unlock else s

def step (s : State) : Event → Option State
  | .openWithStart process initial outcome => some (s.openWithStart process initial outcome)
  | .inspect outcome =>
    match s.holder with
    | some ⟨process, .inspecting initial⟩ => some (s.inspect process initial outcome)
    | _ => none
  | .creation outcome =>
    match s.holder with
    | some ⟨process, .creating initial stage⟩ => some (s.creation process initial stage outcome)
    | _ => none
  | .nextBlocking =>
    match s.holder with
    | some ⟨process, .ready seq⟩ =>
      some { s.setReady process { seq with waiting := seq.waiting ++ [s.calls] } with
        calls := s.calls + 1 }
    | _ => none
  | .acquire call =>
    match s.holder with
    | some ⟨process, .ready seq⟩ => s.acquire process seq call
    | _ => none
  | .persist outcome =>
    match s.holder with
    | some ⟨process, .ready seq⟩ =>
      seq.mutex.map fun critical => s.persist process seq critical outcome
    | _ => none
  | .leave call =>
    match s.holder with
    | some ⟨process, .ready seq⟩ => s.leave process seq call
    | _ => none
  | .release =>
    -- the calls borrow the allocator, so none is left when it is dropped
    match s.holder with
    | some ⟨_, .ready ⟨_, [], none, []⟩⟩ => some s.unlock
    | _ => none
  | .kill process => some (s.kill process)
  | .crash survivor => (s.file.recover survivor).map fun file => { s with file, holder := none }

end State
end SkidMonitor.Sequence
