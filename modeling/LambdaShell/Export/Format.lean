/-
The formats that a sequence can be exported in.
-/
import LambdaShell.Export.Csv
import LambdaShell.Text.Case
import LambdaShell.Value.Json

namespace LambdaShell

/-- File formats. -/
inductive ExportFormat where
  | csv
  | json
  | text
  deriving DecidableEq

namespace ExportFormat

/-- The format of that name, in any case of its letters; no name means JSON. -/
def ofName? (name : List Char) : Option ExportFormat :=
  match String.ofList (Text.toLower (Text.trim name)) with
  | "" | "json" => some json
  | "csv" => some csv
  | "txt" | "text" => some text
  | _ => none

/-- The ending of file names. -/
def extension : ExportFormat → String
  | csv => "csv"
  | json => "json"
  | text => "txt"

/-- The name of a format in messages. -/
def label : ExportFormat → String
  | csv => "CSV"
  | json => "JSON"
  | text => "Text"

/-- One item a line, as it is shown. -/
def lines (items : List Value) : String := String.join (items.map fun v => v.display ++ "\n")

/-- The contents of a file that holds the items. -/
def render (items : List Value) : ExportFormat → String
  | csv => Csv.write items
  | json => (Value.list items).prettyJson 0
  | text => lines items

end ExportFormat

end LambdaShell
