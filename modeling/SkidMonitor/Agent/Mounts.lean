import SkidMonitor.Lib.Escape

/-! The mount table of the system metrics: its escaped fields. -/
namespace SkidMonitor.SystemMetrics

open Escape (replace)

abbrev Str := List Char

def unescapeMountValue (value : Str) : Str :=
  replace "\\134".toList "\\".toList
    (replace "\\012".toList "\n".toList
      (replace "\\011".toList "\t".toList
        (replace "\\040".toList " ".toList value)))

/-- How the kernel writes a character of a field. -/
def escapeMountChar : Char → Str
  | ' ' => "\\040".toList
  | '\t' => "\\011".toList
  | '\n' => "\\012".toList
  | '\\' => "\\134".toList
  | c => [c]

def escapeMountValue (value : Str) : Str := value.flatMap escapeMountChar

/-- The escapes of the mount table, in the order in which they are undone. -/
def mountEscapes : List (Char × Str) :=
  [(' ', "040".toList), ('\t', "011".toList), ('\n', "012".toList)] ++ [('\\', "134".toList)]

theorem mountEscapes_codes : Escape.Codes '\\' mountEscapes := by
  constructor <;> decide

theorem escapeMountChar_eq (c : Char) : escapeMountChar c = Escape.escape '\\' mountEscapes c := by
  unfold escapeMountChar
  split
  case h_5 hspace htab hline hslash =>
    refine (Escape.escape_of_notMem ?_).symm
    simp [mountEscapes]
    exact ⟨hspace, htab, hline, hslash⟩
  all_goals rfl

theorem escapeMountValue_eq (value : Str) :
    escapeMountValue value = Escape.encode '\\' mountEscapes value :=
  congrArg (value.flatMap ·) (funext escapeMountChar_eq)

theorem unescape_encode (value : Str) :
    unescapeMountValue (Escape.encode '\\' mountEscapes value) = value :=
  Escape.decode_encode mountEscapes_codes value

/-- What the kernel writes for a path is read back as the path. -/
theorem unescapeMountValue_escapeMountValue (value : Str) :
    unescapeMountValue (escapeMountValue value) = value := by
  rw [escapeMountValue_eq, unescape_encode]

end SkidMonitor.SystemMetrics
