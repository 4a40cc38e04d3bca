/-
Commands read from a line.

The first word of a line names the command, in any case of its letters, and the rest is the
argument.  Two commands carry a word behind their lambda: `orderby` ends in ` desc` to sort
downwards, and `groupby` ends in the name of an aggregate.  Whether the last word of a
`groupby` line is an aggregate or part of the lambda is decided on the text alone: it must
follow a complete operand, outside all brackets and quotes.
-/
import LambdaShell.Command.Basic
import LambdaShell.Command.Failure
import LambdaShell.Text.Alphanumeric

namespace LambdaShell.Command

/-! ### Name and argument -/

/-- The name of the command in small letters, if there is one, and the argument. -/
def splitLine (line : List Char) : Option (List Char) × List Char :=
  match Text.trim line with
  | [] => (none, [])
  | cs =>
    let (word, rest) := Text.cutAtBlank cs
    (some (Text.toLower word), Text.trimStart rest)

/-! ### Sorting -/

/-- The lambda by which items are sorted when none is given. -/
def identityLambda : List Char := "x => x".toList

/-- The lambda of an `orderby` argument, and whether it sorts downwards. -/
def splitOrderBy (args : List Char) : List Char × Bool :=
  let cs := Text.trim args
  let split := cs.length - 5
  if cs = [] then (identityLambda, false)
  else if Text.eqIgnoringAsciiCase cs "desc".toList then (identityLambda, true)
  else if Text.eqIgnoringAsciiCase (cs.drop split) " desc".toList then
    (Text.trim (cs.take split), true)
  else (cs, false)

/-! ### Grouping -/

/-- A text cut behind its last arrow. -/
def cutAtLastArrow? : List Char → Option (List Char × List Char)
  | [] => none
  | c :: cs =>
    match cutAtLastArrow? cs with
    | some (front, body) => some (c :: front, body)
    | none => if c = '=' ∧ cs.head? = some '>' then some (['=', '>'], cs.drop 1) else none

/-- What is known while the body of a lambda is scanned for its last gap. -/
structure GapScan where
  /-- Open brackets less closed ones, in 32 bits that wrap around. -/
  depth : Int32
  /-- The quotation mark that is open. -/
  quote : Option Char
  /-- A backslash inside quotes has just been read. -/
  escaped : Bool
  /-- The character read last. -/
  previous : Char
  /-- How many characters have been read. -/
  position : Nat
  /-- Where the last gap starts that lies outside all brackets and quotes. -/
  gap : Option Nat

namespace GapScan

/-- Nothing has been read. -/
def start : GapScan := ⟨0, none, false, ' ', 0, none⟩

/-- What a character outside quotes changes. -/
def outside (s : GapScan) (c : Char) : GapScan :=
  if c = '"' ∨ c = '\'' then { s with quote := some c }
  else if c = '(' ∨ c = '{' ∨ c = '[' then { s with depth := s.depth + 1 }
  else if c = ')' ∨ c = '}' ∨ c = ']' then { s with depth := s.depth - 1 }
  else if Text.isBlank c ∧ s.depth = 0 ∧ ¬ Text.isBlank s.previous then
    { s with gap := some s.position }
  else s

/-- What a character inside quotes changes. -/
def inside (s : GapScan) (q c : Char) : GapScan :=
  if s.escaped then { s with escaped := false }
  else if c = '\\' then { s with escaped := true }
  else if c = q then { s with quote := none }
  else s

/-- Reads one more character. -/
def next (s : GapScan) (c : Char) : GapScan :=
  let t := match s.quote with
    | some q => s.inside q c
    | none => s.outside c
  { t with previous := c, position := s.position + 1 }

/-- Reads a text. -/
def run (cs : List Char) : GapScan := cs.foldl next start

end GapScan

/-- An operand can end in this character. -/
def endsOperand (c : Char) : Bool :=
  Text.isAlphanumeric c || ['_', ')', '}', ']', '"', '\''].contains c

/-- A word of letters that is not part of an expression. -/
def isPlainWord (word : List Char) : Bool :=
  word ≠ [] && word.all Char.isAlpha && (Keyword.ofWord? (String.ofList word)).isNone

/-- How many characters of the body of a lambda stand before an aggregate word, if the body
ends in one. -/
def aggregateGap? (body : List Char) : Option Nat :=
  let s := GapScan.run body
  s.gap.filter fun gap =>
    (Text.trimEnd (body.take gap)).getLast?.any endsOperand
      && isPlainWord (Text.trim (body.drop gap)) && s.quote.isNone

/-- The aggregate when none is named. -/
def defaultAggregate : List Char := "items".toList

/-- The key lambda of a `groupby` argument, if there is one, and the name of the aggregate. -/
def splitGroupBy (args : List Char) : Option (List Char) × List Char :=
  let cs := Text.trim args
  match Text.words cs with
  | [] => (none, defaultAggregate)
  | [_] => (some cs, defaultAggregate)
  | word :: words =>
    match cutAtLastArrow? cs with
    | none => (some word, words.getLastD word)
    | some (front, body) =>
      match aggregateGap? body with
      | some gap => (some (Text.trim (front ++ body.take gap)), Text.trim (body.drop gap))
      | none => (some cs, defaultAggregate)

/-! ### Arguments -/

/-- An argument that must not be missing. -/
def required (args : List Char) (message : String) : Except Failure String :=
  if args = [] then .error (.format message) else .ok (String.ofList args)

/-- An argument that can be missing. -/
def optional (args : List Char) : Option String :=
  if args = [] then none else some (String.ofList args)

/-- A count of items. -/
def countArg (args : List Char) (message : String) : Except Failure Nat :=
  match Number.readCount? args with
  | some n => .ok n
  | none => .error (.format message)

/-- The command `groupby` with its argument. -/
def readGroupBy (args : List Char) : Except Failure Command :=
  match splitGroupBy args with
  | (some key, aggregate) => .ok (.groupBy (String.ofList key) (Aggregate.ofName aggregate))
  | (none, _) =>
    .error (.format "GroupBy requires a key selector. Example: groupby x => (int)x % 2 count")

/-- The command `export` with its argument. -/
def readExport (args : List Char) : Except Failure Command :=
  match ExportFormat.ofName? args with
  | some format => .ok (.exportTo format)
  | none =>
    let name := String.ofList (Text.toLower args)
    .error (.format s!"Unsupported export format: {name}. Use csv, json, or txt.")

/-! ### Lines -/

/-- The command of that name with its argument. -/
def ofParts (name : String) (args : List Char) : Except Failure Command :=
  match name with
  | "filter" | "where" =>
    (required args
      "Filter requires a lambda expression. Example: filter x => (int)x > 10").map .filter
  | "select" =>
    (required args
      "Select requires a lambda expression. Example: select x => new \x7b Value = x, Square = ((int)x) * ((int)x) \x7d").map
      .select
  | "orderby" | "sort" =>
    let (lambda, descending) := splitOrderBy args
    .ok (.orderBy (String.ofList lambda) descending)
  | "groupby" | "group" => readGroupBy args
  | "take" => (countArg args "Take requires a non-negative integer. Example: take 5").map .take
  | "skip" => (countArg args "Skip requires a non-negative integer. Example: skip 3").map .skip
  | "distinct" => .ok .distinct
  | "any" => .ok (.any (optional args))
  | "all" => .ok (.all (optional args))
  | "count" => .ok (.count (optional args))
  | "sum" => .ok .sum
  | "avg" | "average" => .ok .average
  | "min" => .ok .min
  | "max" => .ok .max
  | "first" => .ok (.first (optional args))
  | "last" => .ok (.last (optional args))
  | "undo" => .ok .undo
  | "redo" => .ok .redo
  | "reset" => .ok .reset
  | "export" | "save" => readExport args
  | "help" => .ok .help
  | "exit" => .ok .exit
  | other =>
    .error (.format s!"Unknown command '{other}'. Type 'help' for available commands.")

/-- The command of a line. -/
def ofLine (line : List Char) : Except Failure Command :=
  match splitLine line with
  | (none, _) => .error (.format "Invalid command format.")
  | (some name, args) => ofParts (String.ofList name) (Text.trim args)

end LambdaShell.Command
