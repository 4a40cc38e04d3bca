/-
The reference of commands.
-/
import LambdaShell.Screen.Message

namespace LambdaShell

/-! ### What the reference holds -/

/-- How a command is used. -/
structure HelpEntry where
  usage : String
  summary : String
  sample : String

/-- Commands of one kind. -/
structure HelpTopic where
  heading : String
  entries : List HelpEntry
  /-- A line behind the entries. -/
  remark : Option String

/-- Commands that choose and project items. -/
def HelpTopic.selection : HelpTopic where
  heading := "FILTERING & SELECTION"
  entries := [
    ⟨"filter/where <lambda>", "Filter items by condition", "filter x => (int)x > 10"⟩,
    ⟨"select <lambda>", "Transform/project items",
      "select x => new \x7b Value = x, Square = ((int)x) * ((int)x) \x7d"⟩,
    ⟨"distinct", "Remove duplicate items", "distinct"⟩]
  remark := none

/-- Commands that sort and group items. -/
def HelpTopic.ordering : HelpTopic where
  heading := "ORDERING & GROUPING"
  entries := [
    ⟨"orderby/sort [lambda] [desc]", "Sort items (stable)", "orderby x => x desc"⟩,
    ⟨"groupby/group <lambda> [agg]", "Group and aggregate", "groupby x => (int)x % 2 count"⟩]
  remark := some "Available aggregates: count, sum, avg, min, max, items"

/-- Commands that count, test and summarise items. -/
def HelpTopic.summaries : HelpTopic where
  heading := "QUANTIFIERS & AGGREGATES"
  entries := [
    ⟨"take <n>", "Take first n items", "take 5"⟩,
    ⟨"skip <n>", "Skip first n items", "skip 3"⟩,
    ⟨"any [lambda]", "Check if any item matches", "any x => (int)x > 100"⟩,
    ⟨"all [lambda]", "Check if all items match", "all x => (int)x > 0"⟩,
    ⟨"count [lambda]", "Count items (optionally matching)", "count x => (int)x > 5"⟩,
    ⟨"sum", "Sum numeric values", "sum"⟩,
    ⟨"avg/average", "Average of numeric values", "avg"⟩,
    ⟨"min", "Find minimum value", "min"⟩,
    ⟨"max", "Find maximum value", "max"⟩,
    ⟨"first [lambda]", "Get first item (optionally matching)", "first x => (int)x > 5"⟩,
    ⟨"last [lambda]", "Get last item (optionally matching)", "last"⟩]
  remark := none

/-- Commands for the session itself. -/
def HelpTopic.utilities : HelpTopic where
  heading := "UTILITY COMMANDS"
  entries := [
    ⟨"export/save <format>", "Export results (csv, json, txt)", "export json"⟩,
    ⟨"undo", "Undo last operation", "undo"⟩,
    ⟨"redo", "Redo last undone operation", "redo"⟩,
    ⟨"reset", "Reset to original data", "reset"⟩,
    ⟨"help", "Show this help", "help"⟩,
    ⟨"exit", "Exit the application", "exit"⟩]
  remark := none

/-- All kinds of commands. -/
def HelpTopic.all : List HelpTopic := [selection, ordering, summaries, utilities]

/-- What is worth knowing besides the commands. -/
def tips : List String := [
  "Use (int)x, (double)x, (string)x for type casting",
  "String values in input should be quoted: \"hello\", 'world'",
  "Lambda expressions must use => syntax",
  "Records: x => new \x7b Name = x, Len = ((string)x).Length \x7d",
  "Commands are case-insensitive",
  "Use Ctrl+C to clear the current line, Ctrl+D to quit"]

/-! ### How it is shown -/

/-- How wide the column of usages is. -/
def usageWidth : Nat := 30

/-- A command and a sample of it. -/
def HelpEntry.screen (e : HelpEntry) : Screen :=
  let usage := String.ofList (e.usage.toList.rightpad usageWidth ' ')
  [.plain s!"  {usage} - {e.summary}", .colored .gray s!"    Example: {e.sample}"]

/-- The commands of a topic under their heading. -/
def HelpTopic.screen (t : HelpTopic) : Screen :=
  .blank :: Screen.underlined .yellow '-' t.heading ++ t.entries.flatMap HelpEntry.screen
    ++ t.remark.toList.map fun r => .colored .gray s!"  {r}"

/-- The reference of commands. -/
def Screen.help : Screen :=
  title "LAMBDA-PIPE COMMANDS" ++ HelpTopic.all.flatMap HelpTopic.screen
    ++ [.blank, .colored .cyan "TIPS:"] ++ tips.map fun t => .colored .gray s!"• {t}"

end LambdaShell
