/-
Values as JSON.

Records become objects with their fields in order, a double without a finite value becomes
null, and numbers are written with the fewest digits that read back.  The pretty form
indents by two spaces and keeps empty containers closed up.
-/
import LambdaShell.Number.Decimal
import LambdaShell.Value.Basic

namespace LambdaShell

/-! ### Strings -/

namespace Text

/-- A hexadecimal digit in small letters. -/
def hexDigit (n : Nat) : Char := Nat.digitChar (n % 16)

/-- One character inside a JSON string.  Quotation marks, backslashes and the control
characters below space are escaped, all else stands for itself. -/
def escapedChar (c : Char) : List Char :=
  match c with
  | '"' => ['\\', '"']
  | '\\' => ['\\', '\\']
  | '\n' => ['\\', 'n']
  | '\r' => ['\\', 'r']
  | '\t' => ['\\', 't']
  | '\x08' => ['\\', 'b']
  | '\x0c' => ['\\', 'f']
  | c =>
    if c.toNat < 0x20 then ['\\', 'u', '0', '0', hexDigit (c.toNat / 16), hexDigit c.toNat]
    else [c]

/-- A text as a JSON string. -/
def jsonString (s : String) : String := String.ofList ('"' :: s.toList.flatMap escapedChar ++ ['"'])

end Text

/-! ### Values -/

namespace Value

/-- Numbers in JSON: an exponent mark from `1e+16` on and below `0.00001`, and a decimal
place on whole numbers. -/
def jsonLayout : Number.Layout := ⟨fun e => -5 ≤ e ∧ e < 16, ['.', '0'], .toEven⟩

/-- A double as a JSON value. -/
def jsonFloat (x : Double) : String := if x.isFinite then jsonLayout.text x else "null"

mutual

/-- The value as JSON without white space. -/
def json : Value → String
  | null => "null"
  | bool b => if b then "true" else "false"
  | int i => toString i.toInt
  | float x => jsonFloat x
  | str s => Text.jsonString s
  | record fields => "\x7b" ++ ",".intercalate (jsonFields fields) ++ "\x7d"
  | list items => "[" ++ ",".intercalate (jsonItems items) ++ "]"

/-- The members of an object, one by one. -/
def jsonFields : List (String × Value) → List String
  | [] => []
  | (name, v) :: fields => (Text.jsonString name ++ ":" ++ json v) :: jsonFields fields

/-- The elements of an array, one by one. -/
def jsonItems : List Value → List String
  | [] => []
  | v :: items => json v :: jsonItems items

end

/-- A line break and the indentation of the given depth. -/
def lineBreak (depth : Nat) : String := "\n" ++ "".pushn ' ' (2 * depth)

/-- Members on lines of their own, between brackets that stand at the given depth. -/
def indented (opening closing : String) (depth : Nat) : List String → String
  | [] => opening ++ closing
  | m :: ms =>
    opening ++ lineBreak (depth + 1) ++ ("," ++ lineBreak (depth + 1)).intercalate (m :: ms)
      ++ lineBreak depth ++ closing

mutual

/-- The value as indented JSON, starting at the given depth. -/
def prettyJson (depth : Nat) : Value → String
  | record fields => indented "\x7b" "\x7d" depth (prettyFields (depth + 1) fields)
  | list items => indented "[" "]" depth (prettyItems (depth + 1) items)
  | null => "null"
  | bool b => if b then "true" else "false"
  | int i => toString i.toInt
  | float x => jsonFloat x
  | str s => Text.jsonString s

/-- The members of an object at the given depth, one by one. -/
def prettyFields (depth : Nat) : List (String × Value) → List String
  | [] => []
  | (name, v) :: fields =>
    (Text.jsonString name ++ ": " ++ prettyJson depth v) :: prettyFields depth fields

/-- The elements of an array at the given depth, one by one. -/
def prettyItems (depth : Nat) : List Value → List String
  | [] => []
  | v :: items => prettyJson depth v :: prettyItems depth items

end

end Value

end LambdaShell
