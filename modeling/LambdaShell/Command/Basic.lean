/-
The commands of the shell.
-/
import LambdaShell.Export.Format
import LambdaShell.Items.Aggregate

namespace LambdaShell

/-- A command with its arguments; lambdas are still text. -/
inductive Command where
  /-- Keeps the items that pass a test. -/
  | filter (lambda : String)
  /-- Projects every item. -/
  | select (lambda : String)
  /-- Sorts by key. -/
  | orderBy (lambda : String) (descending : Bool)
  /-- Gathers items under keys and summarises each group. -/
  | groupBy (key : String) (aggregate : Aggregate)
  /-- Keeps the first items. -/
  | take (n : Nat)
  /-- Drops the first items. -/
  | skip (n : Nat)
  /-- Drops repeated items. -/
  | distinct
  | any (lambda : Option String)
  | all (lambda : Option String)
  | count (lambda : Option String)
  | sum
  | average
  | min
  | max
  | first (lambda : Option String)
  | last (lambda : Option String)
  | undo
  | redo
  | reset
  | exportTo (format : ExportFormat)
  | help
  | exit
  deriving DecidableEq

namespace Command

/-- The name of a command in messages. -/
def name : Command → String
  | filter _ => "filter"
  | select _ => "select"
  | orderBy _ _ => "orderby"
  | groupBy _ _ => "groupby"
  | take _ => "take"
  | skip _ => "skip"
  | distinct => "distinct"
  | any _ => "any"
  | all _ => "all"
  | count _ => "count"
  | sum => "sum"
  | average => "avg"
  | min => "min"
  | max => "max"
  | first _ => "first"
  | last _ => "last"
  | undo => "undo"
  | redo => "redo"
  | reset => "reset"
  | exportTo _ => "export"
  | help => "help"
  | exit => "exit"

/-- Arguments that would have been fine, shown when a command fails. -/
def sample : Command → String
  | filter _ => "x => (int)x > 10"
  | select _ => "x => new \x7b Value = x, Double = ((int)x) * 2 \x7d"
  | orderBy _ _ => "x => x or orderby x => (int)x desc"
  | groupBy _ _ => "x => (int)x % 2 count"
  | take _ => "5"
  | skip _ => "3"
  | any _ => "x => (int)x > 5"
  | all _ => "x => (int)x > 0"
  | count _ => "x => (int)x > 5"
  | first _ => "x => (int)x > 5"
  | last _ => "x => (int)x < 10"
  | exportTo _ => "json"
  | _ => ""

/-- The command puts a new sequence in place of the current one. -/
def isMutating : Command → Bool
  | filter _ | select _ | orderBy _ _ | groupBy _ _ | take _ | skip _ | distinct => true
  | _ => false

end Command

end LambdaShell
