/-
What is shown of sequences, failures and exports.
-/
import LambdaShell.Command.Failure
import LambdaShell.Export.File
import LambdaShell.Screen.Line
import LambdaShell.Text.Case

namespace LambdaShell.Screen

/-! ### Blocks -/

/-- A heading, underlined. -/
def underlined (color : Color) (mark : Char) (text : String) : Screen :=
  [.colored color text, .colored color (Line.rule mark text.length)]

/-- The title of a page. -/
def title (text : String) : Screen := .blank :: underlined .cyan '=' text

/-- How wide the rules around a sequence are. -/
def ruleWidth : Nat := 50

/-- The rules around a sequence. -/
def sequenceRule : Line := .plain (Line.rule '=' ruleWidth)

/-- An item behind its position, which has at least three digits. -/
def numbered (position : Nat) (item : Value) : Line :=
  let digits := String.ofList ((toString position).toList.leftpad 3 '0')
  .plain s!"[{digits}] {item.display}"

/-- A sequence, item by item. -/
def sequence (items : List Value) : Screen :=
  [.blank, sequenceRule, .plain "RESULT:", sequenceRule]
    ++ if items.isEmpty then [.warning "(empty result set)"]
      else (items.zipIdx.map fun p => numbered p.2 p.1)
        ++ [sequenceRule, .note s!"Total items: {items.length}"]

/-! ### Failures -/

/-- A line that would have worked. -/
def sampleLine (command sample : String) : Line := .note s!"Example: {command} {sample}"

/-- A text whose first letter is a capital. -/
def capitalized (text : String) : String :=
  match text.toList with
  | [] => ""
  | c :: cs => String.ofList (Text.toUpper [c] ++ cs)

/-- Why a command failed, and what would have worked. -/
def ofFailure (f : Failure) : Screen :=
  match f with
  | .format m => [.warning m]
  | .security _ => [.failure (capitalized f.message)]
  | .compile command diagnostics sample =>
    .failure "Compilation error:" :: (diagnostics.map fun d => .failure s!"  {d.text}")
      ++ [sampleLine command sample]
  | .runtime command message sample =>
    .failure s!"Error in {command}: {message}"
      :: if sample.isEmpty then [] else [sampleLine command sample]
  | .exportFailed reason => [.failure s!"Export failed: {reason}"]

/-! ### Exports -/

/-- Where a file went, and its contents if they are short. -/
def ofExport (e : Exported) : Screen :=
  .success s!"Exported to {e.path}" ::
    match e.preview with
    | none => []
    | some content =>
      [.blank, .plain s!"{e.format.label} Content:",
        .plain (String.ofList (Text.trimEnd content.toList))]

end LambdaShell.Screen
