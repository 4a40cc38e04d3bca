/-
What a command does to a timeline.

A command has one of three effects: it puts another sequence in place of the present one, it
says something of the present sequence, or it moves along the timeline.  The next sequence
is computed as a whole before the timeline takes it.  This is what makes a command that fails
leave the timeline as it was: nothing is put back on a failure, so a change that came first
would stay.
-/
import LambdaShell.Command.Line
import LambdaShell.Export.File
import LambdaShell.Items.Query
import LambdaShell.Timeline

namespace LambdaShell

/-- How the present sequence came to be another one. -/
inductive Change where
  | applied
  | undone
  | redone
  | reset
  deriving DecidableEq

/-- What a command that succeeds has to say. -/
inductive Answer where
  /-- Another sequence is present. -/
  | updated (change : Change)
  | item (value : Value)
  | number (x : Double)
  | bool (b : Bool)
  | count (n : Nat)
  /-- A file is to be written. -/
  | exported (file : ExportFile)
  /-- There is no past to go back to. -/
  | nothingToUndo
  /-- There is no future to go on to. -/
  | nothingToRedo
  | help
  | exit

/-- What a command does, computed from the present sequence. -/
inductive Effect where
  /-- Another sequence takes the place of the present one. -/
  | replace (next : Except Failure (List Value))
  /-- The present sequence stays. -/
  | say (answer : Except Failure Answer)
  | undo
  | redo
  | reset

namespace Command

/-! ### Queries with the lambda of a command -/

/-- What a query says of a lambda, once the lambda compiles. -/
def query {α : Type} (c : Command) (source : String) (goal : Goal)
    (ask : Lambda → Outcome? α) : Except Failure α :=
  match Lambda.compile source.toList goal with
  | .error e => .error (.ofCompile c.name c.sample e)
  | .ok lambda =>
    match ask lambda with
    | .error e => .error (.ofEval c.name c.sample e)
    | .ok a => .ok a

/-- What a query says of a predicate, or else what is said without one. -/
def queryIfGiven {α : Type} (c : Command) (source : Option String) (plain : α)
    (ask : (Value → Outcome? Bool) → Outcome? α) : Except Failure α :=
  match source with
  | none => .ok plain
  | some s => c.query s .boolean fun lambda => ask lambda.test

/-! ### Effects -/

/-- Writes the items to a file, if its directory takes it. -/
def export? (dest : Destination) (format : ExportFormat) (items : List Value) :
    Except Failure Answer :=
  match dest.refusal with
  | some reason => .error (.exportFailed reason)
  | none => .ok (.exported (ExportFile.ofItems dest format items))

/-- The effect of a command where `items` are present. -/
def effect (dest : Destination) (items : List Value) (c : Command) : Effect :=
  match c with
  | filter l => .replace (c.query l .boolean fun p => Items.filter p.test items)
  | select l => .replace (c.query l .any fun f => Items.select f.call items)
  | orderBy l d => .replace (c.query l .any fun f => Items.orderBy f.call d items)
  | groupBy k a =>
    .replace (c.query k .any fun f => (Items.groupBy f.call items).map (Groups.rows a))
  | take n => .replace (.ok (items.take n))
  | skip n => .replace (.ok (items.drop n))
  | distinct => .replace (.ok (Items.distinct items))
  | any l =>
    .say ((c.queryIfGiven l (!items.isEmpty) fun p => Items.any p items).map .bool)
  | all l => .say ((c.queryIfGiven l items.isEmpty fun p => Items.all p items).map .bool)
  | count l =>
    .say ((c.queryIfGiven l items.length fun p =>
      (Items.filter p items).map List.length).map .count)
  | first l =>
    .say ((c.queryIfGiven l items.head? fun p => Items.find p items).map fun v? =>
      .item (v?.getD .null))
  | last l =>
    .say ((c.queryIfGiven l items.getLast? fun p => Items.find p items.reverse).map fun v? =>
      .item (v?.getD .null))
  | sum => .say (.ok (.number (Items.sum items)))
  | average => .say (.ok (.number (Items.average items)))
  | min => .say (.ok (.item (Items.least items)))
  | max => .say (.ok (.item (Items.greatest items)))
  | exportTo f => .say (export? dest f items)
  | help => .say (.ok .help)
  | exit => .say (.ok .exit)
  | undo => .undo
  | redo => .redo
  | reset => .reset

end Command

/-! ### Execution -/

/-- A program that works on a timeline and can fail.  Where it fails it leaves the timeline as
it has made it by then. -/
abbrev Action := EStateM Failure Timeline

namespace Action

/-- What has been computed already. -/
def ofResult {α : Type} : Except Failure α → Action α
  | .ok a => pure a
  | .error failure => throw failure

/-- Moves along the timeline, if there is somewhere to go. -/
def move (target? : Timeline → Option Timeline) : Action Bool := do
  match target? (← get) with
  | some next =>
    set next
    return true
  | none => return false

/-- Carries out an effect. -/
def perform : Effect → Action Answer
  | .replace next => do
    let items ← ofResult next
    modify (Timeline.push items)
    return .updated .applied
  | .say answer => ofResult answer
  | .undo => do if ← move Timeline.undo? then return .updated .undone else return .nothingToUndo
  | .redo => do if ← move Timeline.redo? then return .updated .redone else return .nothingToRedo
  | .reset => do
    modify Timeline.reset
    return .updated .reset

end Action

/-- Runs a command. -/
def Command.execute (dest : Destination) (c : Command) : Action Answer := do
  Action.perform (c.effect dest (← get).current)

/-- Runs the command of a line. -/
def Command.executeLine (dest : Destination) (line : List Char) : Action Answer := do
  (← Action.ofResult (ofLine line)).execute dest

/-- Runs the command of a line on a timeline. -/
def Timeline.run (dest : Destination) (t : Timeline) (line : List Char) :
    EStateM.Result Failure Timeline Answer :=
  Command.executeLine dest line t

end LambdaShell
