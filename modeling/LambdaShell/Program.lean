/-
The program between its input and its output.

A program takes one event after the other and says what is to be shown and written, until it
has ended.  Reading, showing and writing are left to the caller.
-/
import LambdaShell.LineHistory
import LambdaShell.Options
import LambdaShell.Session
import LambdaShell.Text.Backspace

namespace LambdaShell

/-- What comes from the input. -/
inductive Event where
  /-- A line without its end and without what has been taken back. -/
  | line (text : List Char)
  /-- The input has ended. -/
  | closed
  /-- The input is no text. -/
  | unreadable
  /-- A backspace of the line would leave a part of a character. -/
  | torn
  deriving DecidableEq

/-- The event of the bytes up to a line feed, or up to the end of the input. -/
def Event.ofBytes (bytes : ByteArray) : Event :=
  match String.fromUTF8? bytes with
  | none => unreadable
  | some s =>
    match Text.lines s.toList with
    | [] => closed
    | l :: _ => ((Text.obeyBackspaces? l).map line).getD torn

/-- A running program. -/
structure Program where
  session : Session
  history : LineHistory

/-- What an event leads to. -/
structure Response where
  screen : Screen
  /-- A file to be written. -/
  file : Option ExportFile
  /-- The program ends. -/
  ending : Option Ending

namespace Program

/-! ### Steps -/

/-- Puts a request for data behind what is shown, if data is awaited. -/
def respond (reply : Reply) (session : Session) : Response :=
  if reply.isOver then ⟨reply.screen ++ Session.goodbye, reply.file, some .finished⟩
  else ⟨reply.screen ++ session.invitation, reply.file, none⟩

/-- The response to the line of data that is given on the command line, if one is, and the
program that starts with it.  Not even `exit` ends a program that has only been started. -/
def start (dest : Destination) (data : Option String) (history : LineHistory) :
    Response × Program :=
  let (reply, session) := match data with
    | none => (Reply.showing [], Session.awaiting)
    | some line => Session.awaiting.read dest line.toList
  (⟨Session.greeting ++ reply.screen ++ session.invitation, none, none⟩, ⟨session, history⟩)

/-- The history after a line, which is an entry unless it is blank. -/
def remember (line : List Char) (history : LineHistory) : LineHistory :=
  if Text.trim line = [] then history else history.add line

/-- The response to an event. -/
def next (dest : Destination) (p : Program) : Event → Response × Program
  | .line text =>
    let (reply, session) := p.session.read dest text
    (respond reply session, ⟨session, remember text p.history⟩)
  | .closed => (⟨Session.goodbye, none, some .finished⟩, p)
  | .unreadable => (⟨[], none, some .inputLost⟩, p)
  | .torn => (⟨[], none, some .brokenOff⟩, p)

/-- What the file of the line history holds after the program has ended, if it has to be
written. -/
def historyFile? (ending : Ending) (history : LineHistory) : Option (List Char) :=
  if ending ≠ .brokenOff ∧ history.isChanged then some history.toFile else none

/-! ### Runs -/

/-- What a run has shown and written. -/
structure Transcript where
  screen : Screen
  files : List ExportFile
  ending : Ending
  /-- What has been entered. -/
  history : LineHistory

/-- A response in front of what follows it. -/
def Transcript.after (response : Response) (t : Transcript) : Transcript :=
  { t with screen := response.screen ++ t.screen, files := response.file.toList ++ t.files }

/-- Runs a program on events.  The input is closed behind the last one. -/
def run (dest : Destination) (p : Program) : List Event → Transcript
  | [] => ⟨Session.goodbye, [], .finished, p.history⟩
  | event :: events =>
    let (response, next) := p.next dest event
    match response.ending with
    | some ending => ⟨response.screen, response.file.toList, ending, next.history⟩
    | none => (run dest next events).after response

/-- Runs the program from its start. -/
def transcript (dest : Destination) (data : Option String) (history : LineHistory)
    (events : List Event) : Transcript :=
  let (response, p) := start dest data history
  (p.run dest events).after response

end Program

end LambdaShell
