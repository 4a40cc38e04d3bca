/-
The program on a terminal or between pipes.

Here is all that reads, writes and asks for the time.
-/
import LambdaShell.Export.Moment
import LambdaShell.Program
import Std.Time.Zoned

namespace LambdaShell.Main

/-! ### The world outside -/

/-- The present moment, by the clock on the wall. -/
def now : IO Moment := do
  let t ← Std.Time.PlainDateTime.now
  return ⟨t.year.toInt.toNat, t.month.val.toNat, t.day.val.toNat, t.hour.val.toNat,
    t.minute.val.toNat, t.second.val.toNat⟩

/-- What the system says when it refuses something. -/
def reason : IO.Error → String
  | .noFileOrDirectory _ code details | .inappropriateType _ code details
  | .permissionDenied _ code details | .resourceExhausted _ code details
  | .invalidArgument _ code details | .noSuchThing _ code details
  | .otherError code details => s!"{details} (os error {code})"
  | e => toString e

/-- Writes a file, or says why it can not be written. -/
def write? (file : ExportFile) : IO (Option String) := do
  try
    IO.FS.writeFile file.path file.content
    return none
  catch e => return some (reason e)

/-- The line history that a file holds, empty if there is no such file. -/
def loadHistory (path : Option String) : IO LineHistory := do
  match path with
  | none => return .empty
  | some p =>
    try return .ofFile (← IO.FS.readFile p).toList
    catch _ => return .empty

/-- Writes to the file of the line history, whose directory is made if there is none. -/
def saveHistory (path : Option String) (content : Option (List Char)) : IO Unit := do
  match path with
  | none => return
  | some p =>
    try
      if let some directory := Path.parent? p then IO.FS.createDirAll directory
      if let some cs := content then IO.FS.writeFile p (String.ofList cs)
    catch e => IO.eprintln s!"Failed to save history: {reason e}"

/-! ### The terminal -/

/-- Where lines come from and where answers go. -/
structure Terminal where
  input : IO.FS.Stream
  output : IO.FS.Stream
  /-- Lines are typed by hand. -/
  isTyped : Bool
  showsColors : Bool

/-- Shows lines at once. -/
def Terminal.print (t : Terminal) (screen : Screen) : IO Unit := do
  t.output.putStr (screen.render t.showsColors)
  t.output.flush

/-- The bytes behind `bytes` up to a line feed or the end of the input. -/
partial def Terminal.bytes (t : Terminal) (bytes : ByteArray) : IO ByteArray := do
  let next ← t.input.read 1
  if next.isEmpty then return bytes
  else if next.toList = [10] then return bytes ++ next
  else t.bytes (bytes ++ next)

/-- The next event. -/
def Terminal.event (t : Terminal) (session : Session) : IO Event := do
  if t.isTyped then
    t.output.putStr session.prompt
    t.output.flush
  return .ofBytes (← t.bytes .empty)

/-! ### Runs -/

/-- The response to an event.  If its file can not be written, the response is computed once
more with the reason. -/
def respond (directory : String) (p : Program) (event : Event) : IO (Response × Program) := do
  let dest : Destination := ⟨directory, (← now).stamp, none⟩
  let (response, next) := p.next dest event
  match response.file with
  | none => return (response, next)
  | some file =>
    match ← write? file with
    | none => return (response, next)
    | some why => return p.next { dest with refusal := some why } event

/-- Runs the program to its end. -/
partial def loop (t : Terminal) (directory : String) (p : Program) : IO (Ending × Program) := do
  let (response, next) ← respond directory p (← t.event p.session)
  t.print response.screen
  match response.ending with
  | some ending => return (ending, next)
  | none => loop t directory next

/-- Runs the program with these options. -/
def run (options : Options) : IO Ending := do
  let input ← IO.getStdin
  let output ← IO.getStdout
  let t : Terminal :=
    ⟨input, output, ← input.isTty, !options.noColor && (← output.isTty)⟩
  let history ← loadHistory options.history
  let (response, p) := Program.start ⟨options.directory, (← now).stamp, none⟩ options.data history
  t.print response.screen
  let (ending, last) ← loop t options.directory p
  if ending ≠ .brokenOff then
    saveHistory options.history (Program.historyFile? ending last.history)
  if ending = .inputLost then IO.eprintln "Error: Failed to read input"
  if ending = .brokenOff then IO.eprintln "A backspace has cut a character in two"
  if options.verbose then IO.eprintln s!"{last.history.entries.length} lines in the history"
  return ending

end LambdaShell.Main

open LambdaShell in
/-- Reads the command line and runs the program. -/
def main (args : List String) : IO UInt32 := do
  match Options.ofArgs args with
  | .error halt =>
    for line in halt.lines do IO.println line
    if let some mistake := halt.mistake? then IO.eprintln s!"error: {mistake}"
    return halt.ending.code.toUInt32
  | .ok options => return (← Main.run options).code.toUInt32
