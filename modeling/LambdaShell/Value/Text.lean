/-
Values as text.

`display` is how a value is shown to the user: strings in double quotes, records in braces,
lists in brackets.  `text` is the value as text to be joined, compared or written into a
cell: the same, except that a string is bare and null is empty.
-/
import LambdaShell.Number.Decimal
import LambdaShell.Value.Basic

namespace LambdaShell.Value

/-- Items between brackets of a kind, divided by commas. -/
def bracketed (opening closing : String) (items : List String) : String :=
  opening ++ ", ".intercalate items ++ closing

mutual

/-- The value as it is shown. -/
def display : Value → String
  | null => "null"
  | bool b => if b then "true" else "false"
  | int i => toString i.toInt
  | float x => Number.plain.text x
  | str s => "\"" ++ s ++ "\""
  | record [] => "\x7b \x7d"
  | record (f :: fs) => bracketed "\x7b " " \x7d" (displayFields (f :: fs))
  | list items => bracketed "[" "]" (displayItems items)

/-- The fields as they are shown, one by one. -/
def displayFields : List (String × Value) → List String
  | [] => []
  | (name, v) :: fields => (name ++ " = " ++ display v) :: displayFields fields

/-- The items as they are shown, one by one. -/
def displayItems : List Value → List String
  | [] => []
  | v :: items => display v :: displayItems items

end

/-- The value as bare text. -/
def text : Value → String
  | null => ""
  | str s => s
  | v => v.display

end LambdaShell.Value
