import SkidMonitor.Agent.DatabaseLogs

/-! The lines that the database log receiver completes from a stream of bytes, and the lines that
the stream holds. They differ where a carriage return meets the limit of a line. -/
namespace SkidMonitor.DatabaseLogs

open List
open Text (fromUtf8Lossy)

variable (config : DatabaseLogsReceiverConfig)

/-- The lines completed from the chunks of a stream, in order. -/
def feed (state : TailState) : List Bytes → TailState × List Str
  | [] => (state, [])
  | chunk :: chunks =>
    let first := completeLines config state chunk
    let rest := feed first.1 chunks
    (rest.1, first.2 ++ rest.2)

section Specification

/-- What stands before each line feed of a stream. -/
def terminated (stream : Bytes) : List Bytes := (stream.splitOn 10).dropLast

/-- A line without the carriage return that belongs to its end. -/
def content (line : Bytes) : Bytes := if line.getLast? = some 13 then line.dropLast else line

/-- The text of a line: the whole content, or its first bytes and the mark. -/
def lineText (content : Bytes) : Str :=
  if content.length ≤ config.maxLineBytes then fromUtf8Lossy content
  else fromUtf8Lossy (content.take config.maxLineBytes) ++ truncationMark

/-- The text of a line that is not empty. -/
def expectedLine (line : Bytes) : List Str :=
  if content line = [] then [] else [lineText config (content line)]

def expectedLines (stream : Bytes) : List Str :=
  (terminated stream).flatMap (expectedLine config)

/-- The carriage return of the end of a line is the first byte past the limit. -/
def EndPastLimit (line : Bytes) : Prop :=
  line.getLast? = some 13 ∧ (content line).length = config.maxLineBytes

/-- The last byte kept of a line that is too long is a carriage return. -/
def CutAtReturn (line : Bytes) : Prop :=
  config.maxLineBytes < (content line).length ∧
    ((content line).take config.maxLineBytes).getLast? = some 13

instance (line : Bytes) : Decidable (EndPastLimit config line) := inferInstanceAs (Decidable (_ ∧ _))

instance (line : Bytes) : Decidable (CutAtReturn config line) := inferInstanceAs (Decidable (_ ∧ _))

end Specification

/-- What is emitted at the line feed behind these bytes. -/
def emitted (line : Bytes) : List Str :=
  let kept := content (line.take config.maxLineBytes)
  let truncated := config.maxLineBytes < line.length
  if kept ≠ [] ∨ truncated then
    [fromUtf8Lossy kept ++ if truncated then truncationMark else []]
  else []

/-- The tail inside a line of which these bytes have been read. -/
def within (line : Bytes) : TailState where
  pendingLine := line.take config.maxLineBytes
  pendingLineTruncated := config.maxLineBytes < line.length

section Completing

variable {config} {line stream : Bytes}

theorem completeByte_within {byte : UInt8} (h : byte ≠ 10) :
    completeByte config (within config line) byte = (within config (line ++ [byte]), []) := by
  have hlength : (line ++ [byte]).length = line.length + 1 := by simp
  have hpending : (within config line).pendingLine.length = min config.maxLineBytes line.length :=
    length_take
  rw [completeByte, if_neg h, hpending]
  by_cases hroom : line.length < config.maxLineBytes
  · have hold : line.take config.maxLineBytes = line := take_of_length_le hroom.le
    have hnew : (line ++ [byte]).take config.maxLineBytes = line ++ [byte] :=
      take_of_length_le (by omega)
    have hfits : ¬ config.maxLineBytes < line.length + 1 := by omega
    rw [if_pos (by omega)]
    simp [within, hold, hnew, hfits, hroom.le, hlength]
  · have hnew : (line ++ [byte]).take config.maxLineBytes = line.take config.maxLineBytes :=
      take_append_of_le_length (by omega)
    have htoo : config.maxLineBytes < line.length + 1 := by omega
    rw [if_neg (by omega)]
    simp only [within, hnew, hlength, htoo, decide_true]

theorem completeByte_lineFeed : completeByte config (within config line) 10 =
    (within config [], emitted config line) := by
  have hlines : ∀ (kept : Bytes) (truncated : Prop) [Decidable truncated],
      (if (!kept.isEmpty || decide truncated) = true then
        [fromUtf8Lossy kept ++ if decide truncated = true then truncationMark else []] else []) =
      if kept ≠ [] ∨ truncated then
        [fromUtf8Lossy kept ++ if truncated then truncationMark else []] else [] := by
    intro kept truncated _
    by_cases htruncated : truncated <;> cases kept <;> simp [htruncated]
  rw [completeByte, if_pos rfl]
  exact Prod.ext (by simp [within]) (hlines _ _)

/-- Reading on inside a line emits the lines that end, and stays inside the last one. -/
theorem completeLines_within (h : 10 ∉ line) :
    completeLines config (within config line) stream =
      (within config (((line ++ stream).splitOn 10).getLast (splitOn_ne_nil _ _)),
        (terminated (line ++ stream)).flatMap (emitted config)) := by
  induction stream generalizing line with
  | nil => simp [completeLines, terminated, splitOn_eq_singleton h]
  | cons byte stream ih =>
    rw [completeLines]
    by_cases hbyte : byte = 10
    · subst hbyte
      have hsplit : (line ++ 10 :: stream).splitOn 10 = line :: stream.splitOn 10 :=
        splitOn_append_cons_self_of_not_mem h stream
      have hrest := ih (show 10 ∉ [] from not_mem_nil)
      rw [completeByte_lineFeed]
      simp only [nil_append] at hrest
      simp only [hrest, terminated, hsplit, getLast_cons (splitOn_ne_nil _ _),
        dropLast_cons_of_ne_nil (splitOn_ne_nil _ _), flatMap_cons]
    · have hrest := ih (show 10 ∉ line ++ [byte] by simp [h, Ne.symm hbyte])
      rw [completeByte_within hbyte]
      simp only [append_assoc, singleton_append] at hrest
      simp only [hrest, nil_append]

theorem feed_eq (state : TailState) (chunks : List Bytes) :
    feed config state chunks = completeLines config state chunks.flatten := by
  induction chunks generalizing state with
  | nil => rfl
  | cons chunk chunks ih => rw [feed, flatten_cons, completeLines_append, ih]

/-- What the chunks of a stream leave pending and what they emit. -/
theorem feed_start (chunks : List Bytes) :
    ∃ line, feed config {} chunks =
      (within config line, (terminated chunks.flatten).flatMap (emitted config)) := by
  have hstart : ({} : TailState) = within config [] := by simp [within]
  rw [feed_eq, hstart, completeLines_within not_mem_nil, nil_append]
  exact ⟨_, rfl⟩

end Completing

section Limit

variable {config} {line : Bytes}

theorem content_eq (line : Bytes) :
    (line.getLast? = some 13 ∧ line = content line ++ [13]) ∨
      (line.getLast? ≠ some 13 ∧ content line = line) := by
  unfold content
  split_ifs with h
  · exact .inl ⟨h, (dropLast_append_getLast? 13 h).symm⟩
  · exact .inr ⟨h, rfl⟩

/-- A line that fits with its return is emitted as it should be. -/
theorem emitted_of_fits (h : line.length ≤ config.maxLineBytes) :
    emitted config line = expectedLine config line := by
  have htake : line.take config.maxLineBytes = line := take_of_length_le h
  have hcontent : (content line).length ≤ config.maxLineBytes := by
    unfold content
    split_ifs
    · rw [length_dropLast]
      omega
    · exact h
  simp only [emitted, expectedLine, lineText, htake, if_pos hcontent, Nat.not_lt.mpr h, or_false,
    if_false, append_nil, ne_eq, ite_not]

/-- A line that does not fit is emitted with the mark, without a return at its end. -/
theorem emitted_of_exceeds (h : config.maxLineBytes < line.length) :
    emitted config line =
      [fromUtf8Lossy (content (line.take config.maxLineBytes)) ++ truncationMark] := by
  simp only [emitted, h, or_true, if_true]

/-- A line that does not fit, as it should be emitted. -/
theorem expectedLine_of_exceeds (hmax : 1 ≤ config.maxLineBytes)
    (h : config.maxLineBytes < line.length) :
    expectedLine config line = [lineText config (content line)] := by
  have hne : content line ≠ [] := by
    intro hnil
    have hlength := congrArg List.length hnil
    unfold content at hlength
    split_ifs at hlength
    · rw [length_dropLast, length_nil] at hlength
      omega
    · rw [length_nil] at hlength
      omega
  rw [expectedLine, if_neg hne]

/-- The decoder leaves a carriage return at the end of its input as it is. -/
theorem fromUtf8Lossy_content (line : Bytes) :
    fromUtf8Lossy line = fromUtf8Lossy (content line) ++
      if line.getLast? = some 13 then ['\r'] else [] := by
  rcases content_eq line with ⟨hlast, heq⟩ | ⟨hlast, heq⟩
  · have hreturn := Text.fromUtf8Lossy_concat (show (13 : UInt8) < 0x80 by decide) (content line)
    rw [← heq] at hreturn
    rw [if_pos hlast]
    exact hreturn
  · rw [if_neg hlast, heq, append_nil]

theorem emitted_of_longer (hmax : 1 ≤ config.maxLineBytes)
    (h : config.maxLineBytes < (content line).length)
    (htake : line.take config.maxLineBytes = (content line).take config.maxLineBytes) :
    emitted config line = expectedLine config line ↔ ¬ CutAtReturn config line := by
  have hline : (content line).length ≤ line.length := by
    rcases content_eq line with ⟨-, heq⟩ | ⟨-, heq⟩
    · have := congrArg List.length heq
      rw [length_append] at this
      omega
    · rw [heq]
  rw [emitted_of_exceeds (h.trans_le hline), expectedLine_of_exceeds hmax (h.trans_le hline),
    lineText, if_neg h.not_ge, htake, fromUtf8Lossy_content ((content line).take _)]
  by_cases hcut : ((content line).take config.maxLineBytes).getLast? = some 13
  · refine iff_of_false (by simp [hcut]) (not_not.mpr ⟨h, hcut⟩)
  · refine iff_of_true (by simp [hcut]) fun hbad => hcut hbad.2

theorem length_content (line : Bytes) :
    (line.getLast? = some 13 ∧ line.length = (content line).length + 1) ∨
      (line.getLast? ≠ some 13 ∧ line.length = (content line).length) := by
  rcases content_eq line with ⟨hlast, heq⟩ | ⟨hlast, heq⟩
  · refine .inl ⟨hlast, ?_⟩
    rw [heq, length_append, ← heq]
    rfl
  · exact .inr ⟨hlast, by rw [heq]⟩

/-- A return behind a content of just the limit makes the line count as too long. -/
theorem emitted_of_endPastLimit (hmax : 1 ≤ config.maxLineBytes)
    (h : EndPastLimit config line) : emitted config line ≠ expectedLine config line := by
  obtain ⟨hlast, hlength⟩ := h
  obtain ⟨-, heq⟩ := (content_eq line).resolve_right fun hno => hno.1 hlast
  have hexceeds : config.maxLineBytes < line.length := by
    rw [heq, length_append, hlength]
    exact Nat.lt_succ_self _
  have htake : line.take config.maxLineBytes = content line := by
    conv_lhs => rw [heq, ← hlength]
    exact take_left
  rw [emitted_of_exceeds hexceeds, expectedLine_of_exceeds hmax hexceeds, htake, lineText,
    if_pos hlength.le, fromUtf8Lossy_content (content line)]
  intro hsame
  have htail := append_cancel_left (List.cons.inj hsame).1
  revert htail
  split_ifs <;> decide

/-- A line comes out as it should, unless a carriage return meets the limit. -/
theorem emitted_eq_iff (hmax : 1 ≤ config.maxLineBytes) :
    emitted config line = expectedLine config line ↔
      ¬ EndPastLimit config line ∧ ¬ CutAtReturn config line := by
  by_cases hend : EndPastLimit config line
  · exact iff_of_false (emitted_of_endPastLimit hmax hend) fun h => h.1 hend
  by_cases hlonger : config.maxLineBytes < (content line).length
  · have htake : line.take config.maxLineBytes = (content line).take config.maxLineBytes := by
      rcases content_eq line with ⟨-, heq⟩ | ⟨-, heq⟩
      · conv_lhs => rw [heq]
        exact take_append_of_le_length hlonger.le
      · rw [heq]
    rw [emitted_of_longer hmax hlonger htake]
    exact ⟨fun hcut => ⟨hend, hcut⟩, And.right⟩
  · refine iff_of_true (emitted_of_fits ?_) ⟨hend, fun hcut => hlonger hcut.1⟩
    rcases length_content line with ⟨hlast, hlength⟩ | ⟨-, hlength⟩
    · have : (content line).length ≠ config.maxLineBytes := fun heq => hend ⟨hlast, heq⟩
      omega
    · omega

/-- Every line is emitted once, as it should be or not. -/
theorem length_emitted (hmax : 1 ≤ config.maxLineBytes) :
    (emitted config line).length = (expectedLine config line).length := by
  by_cases hfits : line.length ≤ config.maxLineBytes
  · rw [emitted_of_fits hfits]
  · rw [emitted_of_exceeds (by omega), expectedLine_of_exceeds hmax (by omega)]
    rfl

theorem flatMap_eq_iff {α β : Type} {f g : α → List β} {xs : List α}
    (h : ∀ x ∈ xs, (f x).length = (g x).length) :
    xs.flatMap f = xs.flatMap g ↔ ∀ x ∈ xs, f x = g x := by
  induction xs with
  | nil => simp
  | cons x xs ih =>
    rw [flatMap_cons, flatMap_cons, forall_mem_cons,
      ← ih fun y hy => h y (mem_cons_of_mem _ hy)]
    exact ⟨fun heq => append_inj heq (h x mem_cons_self), fun heq => by rw [heq.1, heq.2]⟩

end Limit

/-- The lines of a stream come out as they should, whatever its chunks are, exactly if no carriage
return meets the limit; what is pending never exceeds it. -/
theorem logLines_exact_iff (hmax : 1 ≤ config.maxLineBytes) (chunks : List Bytes) :
    ((feed config {} chunks).2 = expectedLines config chunks.flatten ∧
      (feed config {} chunks).1.pendingLine.length ≤ config.maxLineBytes) ↔
    ∀ line ∈ terminated chunks.flatten,
      ¬ EndPastLimit config line ∧ ¬ CutAtReturn config line := by
  obtain ⟨line, hfeed⟩ := @feed_start config chunks
  rw [hfeed]
  have hpending : (within config line).pendingLine.length ≤ config.maxLineBytes :=
    length_take_le _ _
  rw [and_iff_left hpending]
  refine (flatMap_eq_iff fun line _ => length_emitted hmax).trans ?_
  exact forall₂_congr fun line _ => emitted_eq_iff hmax

/-- A receiver with a limit of three bytes. -/
def shortLines : DatabaseLogsReceiverConfig where
  startAt := .beginning
  maxLineBytes := 3
  maxReadBytes := 16

/-- Three bytes with a line feed, then four with a carriage return before it, in two chunks. -/
theorem logLines_exact_iff_short :
    (feed shortLines {} [[97, 98, 99, 10, 97], [98, 99, 100, 13, 10]]).2 =
      expectedLines shortLines [97, 98, 99, 10, 97, 98, 99, 100, 13, 10] :=
  ((logLines_exact_iff shortLines (by decide)
    [[97, 98, 99, 10, 97], [98, 99, 100, 13, 10]]).mpr (by decide)).1

/-- Three bytes, carriage return, line feed: the whole line is kept and marked as cut. -/
theorem endPastLimit_marked :
    (feed shortLines {} [[97, 98, 99, 13, 10]]).2 = ["abc… [truncated]".toList] ∧
      expectedLines shortLines [97, 98, 99, 13, 10] = ["abc".toList] := by
  decide

end SkidMonitor.DatabaseLogs
