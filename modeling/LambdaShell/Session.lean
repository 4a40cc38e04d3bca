/-
A session, line by line.

A session waits for data until a line brings some; from then on every line is a command.
What fails is shown, and the session goes on.
-/
import LambdaShell.Execution
import LambdaShell.Screen.Help
import LambdaShell.Value.Literal

namespace LambdaShell

/-- The state of a session. -/
inductive Session where
  /-- No data has been loaded. -/
  | awaiting
  /-- Data has been loaded. -/
  | working (timeline : Timeline)

/-- What a line is answered with. -/
structure Reply where
  screen : Screen
  /-- A file to be written. -/
  file : Option ExportFile
  /-- The session ends. -/
  isOver : Bool

namespace Reply

/-- Something to show and nothing else. -/
def showing (screen : Screen) : Reply := ⟨screen, none, false⟩

/-- The end of a session. -/
def farewell : Reply := ⟨[], none, true⟩

/-- What is shown for an answer where `items` are present by now. -/
def ofAnswer (items : List Value) : Answer → Reply
  | .updated .applied => showing (Screen.sequence items)
  | .updated .undone => showing (.note "Undone." :: Screen.sequence items)
  | .updated .redone => showing (.note "Redone." :: Screen.sequence items)
  | .updated .reset => showing (.note "Reset to original data." :: Screen.sequence items)
  | .item v => showing [.result v.display]
  | .number x => showing [.result (Number.fixed 2 x)]
  | .bool b => showing [.result (if b then "true" else "false")]
  | .count n => showing [.result (toString n)]
  | .exported file => ⟨Screen.ofExport file.exported, some file, false⟩
  | .nothingToUndo => showing [.warning "Nothing to undo."]
  | .nothingToRedo => showing [.warning "Nothing to redo."]
  | .help => showing Screen.help
  | .exit => farewell

end Reply

namespace Session

/-! ### Loading data -/

/-- What is shown when data has been loaded. -/
def loaded (items : List Value) : Screen :=
  .success s!"Loaded {items.length} items successfully." :: Screen.sequence items
    ++ [.note "Type 'help' for available commands or 'exit' to quit."]

/-- Reads a line, without white space around it, as data. -/
def load (line : List Char) : Reply × Session :=
  if line = [] then
    (.showing [.warning "Please enter some data or 'exit' to quit."], awaiting)
  else if Text.eqIgnoringAsciiCase line "exit".toList then (.farewell, awaiting)
  else match readData line with
    | [] => (.showing [.warning "No valid data found. Please try again."], awaiting)
    | items => (.showing (loaded items), working (.start items))

/-! ### Commands -/

/-- Reads a line, without white space around it, as a command. -/
def command (dest : Destination) (t : Timeline) (line : List Char) : Reply × Session :=
  if line = [] then (.showing [], working t)
  else match t.run dest line with
    | .ok answer next => (.ofAnswer next.current answer, working next)
    | .error failure next => (.showing (Screen.ofFailure failure), working next)

/-! ### Lines -/

/-- Reads a line. -/
def read (dest : Destination) (line : List Char) : Session → Reply × Session
  | awaiting => load (Text.trim line)
  | working t => command dest t (Text.trim line)

/-- What is written in front of a line while it is typed. -/
def prompt : Session → String
  | awaiting => "> "
  | working _ => "λ> "

/-- The request for data. -/
def request : Screen :=
  [.plain "Enter a list of values separated by commas (or 'exit' to quit):"]

/-- What is shown before a line is read. -/
def invitation : Session → Screen
  | awaiting => request
  | working _ => []

/-- What is shown first. -/
def greeting : Screen := Screen.title "Lambda Pipe v0.1.0"

/-- What is shown last. -/
def goodbye : Screen := [.note "Goodbye!"]

end Session

end LambdaShell
