/-
The command line of the program.

Arguments are read from left to right, and the first one that settles the outcome, a mistake
or a request for the version, ends the reading.
-/
namespace LambdaShell

/-- The options there are. -/
inductive Flag where
  | data
  | exportDir
  | history
  | noColor
  | verbose
  | help
  | version
  deriving DecidableEq

namespace Flag

/-- The option of that long name. -/
def ofLong? : String → Option Flag
  | "data" => some data
  | "export-dir" => some exportDir
  | "history" => some history
  | "no-color" => some noColor
  | "verbose" => some verbose
  | "help" => some help
  | "version" => some version
  | _ => none

/-- The option of that letter. -/
def ofShort? : Char → Option Flag
  | 'd' => some data
  | 'v' => some verbose
  | 'h' => some help
  | 'V' => some version
  | _ => none

/-- The long name of an option. -/
def long : Flag → String
  | data => "data"
  | exportDir => "export-dir"
  | history => "history"
  | noColor => "no-color"
  | verbose => "verbose"
  | help => "help"
  | version => "version"

/-- The option comes with a value. -/
def takesValue : Flag → Bool
  | data | exportDir | history => true
  | noColor | verbose | help | version => false

end Flag

/-- How the program ends. -/
inductive Ending where
  | finished
  | inputLost
  | misused
  /-- At once, and with nothing saved. -/
  | brokenOff
  deriving DecidableEq

/-- The exit code. -/
def Ending.code : Ending → UInt8
  | finished => 0
  | inputLost => 1
  | misused => 2
  | brokenOff => 101

/-- What is chosen on the command line. -/
structure Options where
  /-- A line that is read before all others. -/
  data : Option String
  /-- The directory for exports. -/
  exportDir : Option String
  /-- The file of the line history. -/
  history : Option String
  noColor : Bool
  verbose : Bool

/-- Why there is nothing to be run. -/
inductive Halt where
  /-- The version is asked for. -/
  | version
  /-- The usage is asked for. -/
  | usage
  /-- There is no such option, or no place for such an argument. -/
  | unexpected (arg : String)
  /-- An option is given twice. -/
  | repeated (flag : Flag)
  /-- An option lacks its value. -/
  | valueMissing (flag : Flag)
  /-- A value is given to an option that takes none. -/
  | valueUnexpected (flag : Flag)

namespace Halt

/-- The lines that explain the options. -/
def usageText : List String := [
  "Load a list of values, then filter, project, sort and group it with lambda expressions",
  "",
  "Usage: lambda-pipe [OPTIONS]",
  "",
  "Options:",
  "  -d, --data <DATA>              Initial comma-separated data; skips the data prompt",
  "      --export-dir <EXPORT_DIR>  Directory export files are written to [default: .]",
  "      --history <HISTORY>        Line-editor history file",
  "      --no-color                 Disable coloured output",
  "  -v, --verbose                  Debug logging on stderr",
  "  -h, --help                     Print help",
  "  -V, --version                  Print version"]

/-- What was wrong, if something was. -/
def mistake? : Halt → Option String
  | version | usage => none
  | unexpected arg => some s!"unexpected argument '{arg}' found"
  | repeated flag => some s!"the argument '--{flag.long}' cannot be used multiple times"
  | valueMissing flag => some s!"a value is required for '--{flag.long}' but none was supplied"
  | valueUnexpected flag => some s!"unexpected value for '--{flag.long}' found; no more were expected"

/-- How the program ends that has nothing to run. -/
def ending (halt : Halt) : Ending := if halt.mistake?.isSome then .misused else .finished

/-- What was asked for. -/
def lines : Halt → List String
  | version => ["lambda-pipe 0.1.0"]
  | usage => usageText
  | _ => []

end Halt

namespace Options

/-- Nothing is chosen. -/
def empty : Options := ⟨none, none, none, false, false⟩

/-! ### One option -/

/-- Chooses a value for an option that takes one. -/
def choose (flag : Flag) (value : String) (chosen : Option String) : Except Halt (Option String) :=
  if chosen.isSome then .error (.repeated flag) else .ok (some value)

/-- Chooses a path, which is never empty. -/
def choosePath (flag : Flag) (value : String) (chosen : Option String) :
    Except Halt (Option String) :=
  if value.isEmpty ∧ chosen.isNone then .error (.valueMissing flag) else choose flag value chosen

/-- Switches an option on. -/
def switch (flag : Flag) (chosen : Bool) : Except Halt Bool :=
  if chosen then .error (.repeated flag) else .ok true

/-- The directory for exports, the present one if none is chosen. -/
def directory (o : Options) : String := o.exportDir.getD "."

/-- Sets an option, to a value if it takes one. -/
def set (flag : Flag) (value : String) (o : Options) : Except Halt Options :=
  match flag with
  | .data => return { o with data := ← choose flag value o.data }
  | .exportDir => return { o with exportDir := ← choosePath flag value o.exportDir }
  | .history => return { o with history := ← choosePath flag value o.history }
  | .noColor => return { o with noColor := ← switch flag o.noColor }
  | .verbose => return { o with verbose := ← switch flag o.verbose }
  | .help => .error .usage
  | .version => .error .version

end Options

/-! ### All arguments -/

/-- What is known when some of the arguments have been read. -/
structure ArgScan where
  options : Options
  /-- An option whose value is the next argument. -/
  pending : Option Flag
  /-- No more options follow. -/
  isClosed : Bool

namespace ArgScan

/-- Nothing has been read. -/
def start : ArgScan := ⟨.empty, none, false⟩

/-- Sets an option. -/
def set (flag : Flag) (value : String) (s : ArgScan) : Except Halt ArgScan :=
  return { s with options := ← s.options.set flag value, pending := none }

/-- Reads letters behind a dash.  What follows the letter of an option that takes a value is
the value, with or without an equals sign. -/
def letters (s : ArgScan) : List Char → Except Halt ArgScan
  | [] => .ok s
  | c :: cs =>
    match Flag.ofShort? c with
    | none => .error (.unexpected s!"-{c}")
    | some flag =>
      if flag.takesValue then
        match cs with
        | [] => .ok { s with pending := some flag }
        | '=' :: value => s.set flag (String.ofList value)
        | value => s.set flag (String.ofList value)
      else do letters (← s.set flag "") cs

/-- The name of a long option, and the value behind an equals sign. -/
def splitLong (cs : List Char) : String × Option String :=
  match cs.dropWhile (· ≠ '=') with
  | _ :: value => (String.ofList (cs.takeWhile (· ≠ '=')), some (String.ofList value))
  | [] => (String.ofList cs, none)

/-- Reads the name behind two dashes. -/
def name (s : ArgScan) (cs : List Char) : Except Halt ArgScan :=
  let (long, value) := splitLong cs
  match Flag.ofLong? long, value with
  | none, _ => .error (.unexpected s!"--{long}")
  | some flag, some v => if flag.takesValue then s.set flag v else .error (.valueUnexpected flag)
  | some flag, none =>
    if flag.takesValue then .ok { s with pending := some flag } else s.set flag ""

/-- Reads an argument that is not a value. -/
def option (s : ArgScan) (arg : String) : Except Halt ArgScan :=
  match arg.toList with
  | ['-', '-'] => .ok { s with isClosed := true }
  | '-' :: '-' :: cs => s.name cs
  | '-' :: c :: cs => s.letters (c :: cs)
  | _ => .error (.unexpected arg)

/-- The argument can be the value of an option. -/
def isValue (arg : String) : Bool :=
  match arg.toList with
  | '-' :: _ :: _ => false
  | _ => true

/-- Reads one more argument. -/
def next (s : ArgScan) (arg : String) : Except Halt ArgScan :=
  match s.pending with
  | some flag => if isValue arg then s.set flag arg else .error (.valueMissing flag)
  | none => if s.isClosed then .error (.unexpected arg) else s.option arg

end ArgScan

/-- What is chosen by the arguments of the program. -/
def Options.ofArgs (args : List String) : Except Halt Options := do
  let s ← args.foldlM ArgScan.next ArgScan.start
  match s.pending with
  | some flag => .error (.valueMissing flag)
  | none => .ok s.options

end LambdaShell
