/-
Items as comma-separated values.

A cell is written in quotes when its text would otherwise be mistaken for several cells or
several rows, and when it is empty, so that no row is blank; quotes inside quotes are
doubled.  If the first item is a record, its field names head the columns and every item
fills them; otherwise each item is a row of one cell.
-/
import LambdaShell.Value.Text

namespace LambdaShell.Csv

/-- A text with every quotation mark written twice. -/
def doubleQuotes (cs : List Char) : List Char :=
  cs.flatMap fun c => if c = '"' then ['"', '"'] else [c]

/-- The character makes it necessary to write a cell in quotes. -/
def needsQuotes (c : Char) : Bool := c == '"' || c == ',' || c == '\n' || c == '\r'

/-- A cell as it is written. -/
def cell (cs : List Char) : List Char :=
  if cs = [] ∨ cs.any needsQuotes then '"' :: doubleQuotes cs ++ ['"'] else cs

/-- A row as it is written. -/
def row (cells : List String) : List Char :=
  [','].intercalate (cells.map fun c => cell c.toList) ++ ['\n']

/-- The text of the field of that name, empty if the item has none. -/
def column (item : Value) (name : String) : String :=
  match item with
  | .record fields => ((Fields.get? fields name).map (·.text)).getD ""
  | _ => ""

/-- The rows of a list of items. -/
def table : List Value → List (List String)
  | [] => []
  | .record header :: items =>
    let names := Fields.names header
    names :: (.record header :: items).map fun item => names.map (column item)
  | items => items.map fun item => [item.text]

/-- A list of items as it is written. -/
def write (items : List Value) : String := String.ofList ((table items).flatMap row)

end LambdaShell.Csv
