/-
Values read from a data line.

A data line holds literals divided by commas; a comma inside a quoted run does not divide.
A literal in quotes is a text, whatever it looks like.  Any other is read as the most
specific value it can be: a truth value, a whole number, a number, and else a text.
-/
import LambdaShell.Text.Case
import LambdaShell.Value.Basic

namespace LambdaShell

/-! ### Literals -/

/-- A quotation mark, single or double. -/
def isQuote (c : Char) : Bool := c == '"' || c == '\''

/-- What stands between two equal quotation marks at the ends of a text. -/
def unquoted? : List Char → Option (List Char)
  | q :: cs => if isQuote q ∧ cs.getLast? = some q then some cs.dropLast else none
  | [] => none

/-- The truth value spelled out, in any case of its letters. -/
def truthValue? (cs : List Char) : Option Bool :=
  if Text.eqIgnoringAsciiCase cs "true".toList then some true
  else if Text.eqIgnoringAsciiCase cs "false".toList then some false
  else none

/-- The value that a text without surrounding white space stands for. -/
def Value.ofTrimmed (cs : List Char) : Value :=
  match unquoted? cs with
  | some inner => .str (String.ofList inner)
  | none =>
  match truthValue? cs with
  | some b => .bool b
  | none =>
  match Number.readInt64? cs with
  | some i => .int i
  | none =>
  match (Number.readFloat? cs).filter (·.isFinite) with
  | some x => .float x
  | none => .str (String.ofList cs)

/-- The value that a literal stands for. -/
def Value.ofLiteral (cs : List Char) : Value := .ofTrimmed (Text.trim cs)

/-! ### Data lines -/

/-- The quotation mark that is open behind `c`, given the one open before it. -/
def quoteAfter : Option Char → Char → Option Char
  | none, c => if isQuote c then some c else none
  | some q, c => if c = q then none else some q

/-- The pieces between the commas that stand outside quoted runs, with `quote` open. -/
def splitUnquoted (quote : Option Char) : List Char → List (List Char)
  | [] => [[]]
  | c :: cs =>
    if quote = none ∧ c = ',' then [] :: splitUnquoted none cs
    else Text.extendFirst c (splitUnquoted (quoteAfter quote c) cs)

/-- The values of a data line; blank pieces are left out. -/
def readData (line : List Char) : List Value :=
  (((splitUnquoted none line).map Text.trim).filter (!·.isEmpty)).map Value.ofLiteral

end LambdaShell
