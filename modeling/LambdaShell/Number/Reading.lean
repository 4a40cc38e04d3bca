/-
Numbers read from text.

Three grammars are read here: signed 64-bit integers, counts that fit 64 bits, and decimals
with an optional fraction and exponent.  Each reader takes the whole text and answers
`none` when anything is left over, so no prefix of a word is ever taken for a number.
-/
import LambdaShell.Number.Binary
import LambdaShell.Text.Blank

namespace LambdaShell.Number

-- Powers are those of the core library, also where algebra offers others.
attribute [local instance (high)] instPowNat

/-- The leading decimal digits of a text. -/
def leadingDigits (cs : List Char) : List Char := cs.takeWhile Char.isDigit

/-- The text behind its leading decimal digits. -/
def afterDigits (cs : List Char) : List Char := cs.dropWhile Char.isDigit

/-! ### Whole numbers -/

/-- A non-empty run of decimal digits and nothing else. -/
def natural? (cs : List Char) : Option Nat :=
  if cs ≠ [] ∧ cs.all Char.isDigit then some (Nat.ofDigitChars 10 cs 0) else none

/-- Digits behind an optional sign. -/
def integer? : List Char → Option Int
  | '-' :: cs => (natural? cs).map fun n => -(n : Int)
  | '+' :: cs => (natural? cs).map fun n => (n : Int)
  | cs => (natural? cs).map fun n => (n : Int)

/-- A signed integer of 64 bits. -/
def readInt64? (cs : List Char) : Option Int64 := (integer? cs).bind int64?

/-- A count of at most 64 bits; a plus sign may precede it. -/
def readCount? (cs : List Char) : Option Nat :=
  let digits := match cs with
    | '+' :: rest => rest
    | _ => cs
  (natural? digits).filter (· < 2 ^ (64 : Nat))

/-! ### Decimals -/

/-- The number `digits · 10 ^ exponent`. -/
structure Scientific where
  digits : Nat
  exponent : Int

/-- The double nearest to the number. -/
def Scientific.toDouble (s : Scientific) : Double :=
  .ofFloat (Float.ofScientific s.digits (s.exponent < 0) s.exponent.natAbs)

/-- Digits with `fraction` behind the point, scaled by a power of ten. -/
def Scientific.ofParts (whole fraction : List Char) (exponent : Int) : Scientific :=
  ⟨Nat.ofDigitChars 10 (whole ++ fraction) 0, exponent - fraction.length⟩

/-- An exponent as it is written: the mark, at most one sign, and digits. -/
structure ExponentPart where
  mark : Char
  sign : List Char
  digits : List Char

/-- The characters of a written exponent. -/
def ExponentPart.chars (p : ExponentPart) : List Char := p.mark :: p.sign ++ p.digits

/-- The number a written exponent stands for. -/
def ExponentPart.value (p : ExponentPart) : Int :=
  let n := Nat.ofDigitChars 10 p.digits 0
  if p.sign = ['-'] then -(n : Int) else n

/-- The exponent that a text starts with: a mark, a sign or none, and at least one digit. -/
def leadingExponent? : List Char → Option ExponentPart
  | mark :: cs =>
    let sign := (cs.take 1).filter fun c => c == '+' || c == '-'
    let digits := leadingDigits (cs.drop sign.length)
    if (mark = 'e' ∨ mark = 'E') ∧ digits ≠ [] then some ⟨mark, sign, digits⟩ else none
  | [] => none

/-- An exponent that makes up the whole text, or no text at all. -/
def exponent? (cs : List Char) : Option Int :=
  if cs = [] then some 0
  else ((leadingExponent? cs).filter (·.chars == cs)).map (·.value)

/-- Digits with an optional point and an optional exponent; at least one digit must stand
before or behind the point. -/
def scientific? (cs : List Char) : Option Scientific :=
  let whole := leadingDigits cs
  match afterDigits cs with
  | '.' :: rest =>
    let fraction := leadingDigits rest
    if whole = [] ∧ fraction = [] then none
    else (exponent? (afterDigits rest)).map (Scientific.ofParts whole fraction)
  | rest => if whole = [] then none else (exponent? rest).map (Scientific.ofParts whole [])

/-- The double nearest to a signed decimal. -/
def readFloat? : List Char → Option Double
  | '-' :: cs => (scientific? cs).map fun s => -s.toDouble
  | '+' :: cs => (scientific? cs).map (·.toDouble)
  | cs => (scientific? cs).map (·.toDouble)

/-- The finite number that a text stands for, white space around it ignored. -/
def ofText? (text : String) : Option Double :=
  (readFloat? (Text.trim text.toList)).filter (·.isFinite)

end LambdaShell.Number
