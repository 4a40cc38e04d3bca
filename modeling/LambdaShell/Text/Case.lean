/-
Upper and lower case of any text.

Both mappings are the full ones of Unicode: a letter may become several (ß to SS, İ to i
with a dot above), letters without a partner stay, and the lower case of Σ depends on
whether it ends a word.  On ASCII letters they agree with the familiar A to a, wherever the
letter stands; `eqIgnoringAsciiCase` compares by those letters alone.
-/
import LambdaShell.Text.CaseContext
import LambdaShell.Text.CaseMapping

namespace LambdaShell.Text

/-- The characters that a code point becomes under the given runs. -/
def mapByRuns (runs : List CaseRun) (c : Char) : Char :=
  match runs.findSome? (·.image? c.toNat) with
  | some n => Char.ofNat n
  | none => c

/-- The capital form of one character. -/
def upperChar (c : Char) : List Char :=
  if c.toNat < 0x80 then [c.toUpper]
  else match upperExpansions.lookup c.toNat with
    | some ns => ns.map Char.ofNat
    | none => [mapByRuns upperRuns c]

/-- The small form of one character that is not a capital sigma. -/
def lowerChar (c : Char) : List Char :=
  if c.toNat < 0x80 then [c.toLower]
  else if c.toNat = 0x130 then ['i', Char.ofNat 0x307]
  else [mapByRuns lowerRuns c]

/-- The text in capital letters. -/
def toUpper (cs : List Char) : List Char := cs.flatMap upperChar

/-- A capital sigma with `before` in front of it, nearest first, and `after` behind it
becomes ς where a word ends and σ elsewhere. -/
def lowerSigma (before after : List Char) : Char :=
  if meetsCased before && !meetsCased after then 'ς' else 'σ'

/-- The text in small letters, `before` being what stands in front of it, nearest first. -/
def lowerFrom (before : List Char) : List Char → List Char
  | [] => []
  | c :: cs =>
    (if c = 'Σ' then [lowerSigma before cs] else lowerChar c) ++ lowerFrom (c :: before) cs

/-- The text in small letters. -/
def toLower (cs : List Char) : List Char := lowerFrom [] cs

/-- The texts agree once ASCII capitals are made small. -/
def eqIgnoringAsciiCase (a b : List Char) : Bool := a.map Char.toLower == b.map Char.toLower

end LambdaShell.Text
