/-
Doubles as decimal text.

`shortest` selects the decimal with the fewest digits that reads back to the same double:
it walks through grids of one, two, ... digits and takes the first on which a neighbour of
the exact value lies among the reals that round to the double.  `Layout` then holds the
choices a written form makes, and `fixed` writes a double with a set number of places.
The selection compares naturals only; nothing is rounded on the way.
-/
import LambdaShell.Number.Binary

namespace LambdaShell.Number

-- Powers are those of the core library, also where algebra offers others.
attribute [local instance (high)] instPowNat

/-- The positive decimal `digits · 10 ^ exponent`. -/
structure Decimal where
  digits : Nat
  exponent : Int
  deriving DecidableEq

/-! ### Exact comparison -/

/-- Compares `a · 10 ^ i` with `b · 2 ^ j`. -/
def compareScaled (a : Nat) (i : Int) (b : Nat) (j : Int) : Ordering :=
  compare (a * 10 ^ i.toNat * 2 ^ (-j).toNat) (b * 2 ^ j.toNat * 10 ^ (-i).toNat)

/-- The gap to the double below is half as wide as the gap to the double above. -/
def Magnitude.isNarrowBelow (m : Magnitude) : Bool :=
  m.mantissa == 2 ^ (52 : Nat) && m.exponent > -1074

/-- The decimal lies among the reals that round to the double of this magnitude; the two
ends of that interval belong to it exactly if the mantissa is even. -/
def Magnitude.readsBack (m : Magnitude) (d : Decimal) : Bool :=
  let low := if m.isNarrowBelow then 4 * m.mantissa - 1 else 4 * m.mantissa - 2
  let atLow := compareScaled d.digits d.exponent low (m.exponent - 2)
  let atHigh := compareScaled d.digits d.exponent (4 * m.mantissa + 2) (m.exponent - 2)
  if m.mantissa % 2 = 0 then atLow.isGE && atHigh.isLE else atLow.isGT && atHigh.isLT

/-! ### The shortest decimal -/

/-- The magnitude is less than `10 ^ k`. -/
def Magnitude.isBelowPower (m : Magnitude) (k : Int) : Bool :=
  (compareScaled 1 k m.mantissa m.exponent).isGT

/-- The least `k` such that the magnitude is less than `10 ^ k`, found from the binary
logarithm, which determines it up to two steps. -/
def Magnitude.place (m : Magnitude) : Int :=
  let k := (m.exponent + m.mantissa.log2) * 30103 / 100000
  if m.isBelowPower k then k else if m.isBelowPower (k + 1) then k + 1 else k + 2

/-- Of the two neighbours of the magnitude among the multiples of `10 ^ g`, the nearer one
that reads back. -/
def Magnitude.onGrid? (tie : Tie) (m : Magnitude) (g : Int) : Option Decimal :=
  let d := m.mantissa * 2 ^ m.exponent.toNat * 10 ^ (-g).toNat
    / (2 ^ (-m.exponent).toNat * 10 ^ g.toNat)
  match m.readsBack ⟨d, g⟩, m.readsBack ⟨d + 1, g⟩ with
  | true, false => some ⟨d, g⟩
  | false, true => some ⟨d + 1, g⟩
  | false, false => none
  | true, true =>
    match compareScaled (2 * d + 1) g (2 * m.mantissa) m.exponent, tie with
    | .gt, _ => some ⟨d, g⟩
    | .lt, _ => some ⟨d + 1, g⟩
    | .eq, .up => some ⟨d + 1, g⟩
    | .eq, .toEven => some ⟨d + d % 2, g⟩

/-- The magnitude itself as a decimal. -/
def Magnitude.exact (m : Magnitude) : Decimal :=
  if 0 ≤ m.exponent then ⟨m.mantissa * 2 ^ m.exponent.toNat, 0⟩
  else ⟨m.mantissa * 5 ^ (-m.exponent).toNat, m.exponent⟩

/-- The decimal with the fewest digits that reads back to the double of a positive
magnitude; of several it is the nearest. -/
def Magnitude.shortest (tie : Tie) (m : Magnitude) : Decimal :=
  ((List.range 17).findSome? fun n => m.onGrid? tie (m.place - (n + 1 : Nat))).getD m.exact

/-! ### Written forms -/

/-- How a decimal is laid out as text. -/
structure Layout where
  /-- Exponents of the leading digit that are written without an exponent mark. -/
  positional : Int → Bool
  /-- What follows a whole number. -/
  wholeEnding : List Char
  /-- Which of two equally near decimals is written. -/
  tie : Tie

/-- Digits written with an exponent mark and a signed exponent. -/
def scientificText (digits : List Char) (e : Int) : List Char :=
  let fraction := match digits.drop 1 with
    | [] => []
    | ds => '.' :: ds
  digits.take 1 ++ fraction ++ 'e' :: (if e < 0 then '-' else '+') :: Nat.toDigits 10 e.natAbs

/-- Digits written with the point after the first `point` of them; zeros fill what is
missing on either side. -/
def positionalText (layout : Layout) (digits : List Char) (point : Int) : List Char :=
  if point ≤ 0 then '0' :: '.' :: List.replicate (-point).toNat '0' ++ digits
  else if digits.length ≤ point then
    digits ++ List.replicate (point.toNat - digits.length) '0' ++ layout.wholeEnding
  else digits.take point.toNat ++ '.' :: digits.drop point.toNat

/-- A positive decimal laid out as text. -/
def Decimal.text (layout : Layout) (d : Decimal) : List Char :=
  let all := Nat.toDigits 10 d.digits
  let digits := (all.reverse.dropWhile (· == '0')).reverse
  let point := all.length + d.exponent
  if layout.positional (point - 1) then positionalText layout digits point
  else scientificText digits (point - 1)

/-- Sign, digits or name of a double, the digits being written by `finite`. -/
def signedText (finite : Magnitude → List Char) (x : Double) : String :=
  match parts x with
  | .nan => "NaN"
  | .infinite negative => if negative then "-inf" else "inf"
  | .finite negative m => String.ofList (if negative then '-' :: finite m else finite m)

/-- The shortest text of a double in the given layout. -/
def Layout.text (layout : Layout) (x : Double) : String :=
  signedText (fun m =>
    if m.mantissa = 0 then '0' :: layout.wholeEnding else (m.shortest layout.tie).text layout) x

/-- The form in which numbers are shown: never an exponent, and whole numbers bare. -/
def plain : Layout := ⟨fun _ => true, [], .up⟩

/-- The exact value rounded to `places` decimal places, ties to even. -/
def fixed (places : Nat) (x : Double) : String :=
  signedText (fun m =>
    let n := roundDiv .toEven (m.mantissa * 2 ^ m.exponent.toNat * 10 ^ places)
      (2 ^ (-m.exponent).toNat)
    let digits := Nat.toDigits 10 n
    let padded := List.replicate (places + 1 - digits.length) '0' ++ digits
    padded.take (padded.length - places) ++ '.' :: padded.drop (padded.length - places)) x

end LambdaShell.Number
