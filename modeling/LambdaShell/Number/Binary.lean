/-
The exact value of a double, and the double nearest to an exact value.

A finite double is a sign and a magnitude `mantissa · 2 ^ exponent`.  This file reads the
parts off the bits, puts parts back together rounding to nearest with ties to even, and
defines through the two every conversion and rounding the shell needs: remainder, rounding
to whole numbers, conversion from and to 64-bit integers, and the total order of the bit
patterns.  All of it is arithmetic on `Nat` and `Int`, so each result is a fact that can be
computed rather than a property of the machine.
-/
import LambdaShell.Number.Double

namespace LambdaShell.Number

-- Powers are those of the core library, also where algebra offers others.
attribute [local instance (high)] instPowNat

/-! ### Rounding a quotient -/

/-- Where a value half way between two neighbours goes. -/
inductive Tie where
  | toEven
  | up
  deriving DecidableEq

/-- The quotient `num / den` rounded to the nearest natural number. -/
def roundDiv (tie : Tie) (num den : Nat) : Nat :=
  let q := num / den
  match compare (2 * (num % den)) den with
  | .lt => q
  | .gt => q + 1
  | .eq => match tie with
    | .up => q + 1
    | .toEven => q + q % 2

/-! ### The parts of a double -/

/-- The magnitude `mantissa · 2 ^ exponent`. -/
structure Magnitude where
  mantissa : Nat
  exponent : Int
  deriving DecidableEq

/-- What a double stands for. -/
inductive Parts where
  | nan
  | infinite (negative : Bool)
  | finite (negative : Bool) (size : Magnitude)

/-- The 64 bits as a natural number. -/
def bits (x : Double) : Nat := x.bits.toNat

/-- The sign bit. -/
def isNegative (x : Double) : Bool := 2 ^ (63 : Nat) ≤ bits x

/-- The sign and magnitude that the bits of a double encode. -/
def parts (x : Double) : Parts :=
  let e : Nat := bits x / 2 ^ (52 : Nat) % 2 ^ (11 : Nat)
  let f : Nat := bits x % 2 ^ (52 : Nat)
  if e = 2047 then (if f = 0 then .infinite (isNegative x) else .nan)
  else if e = 0 then .finite (isNegative x) ⟨f, -1074⟩
  else .finite (isNegative x) ⟨2 ^ (52 : Nat) + f, (e : Int) - 1075⟩

/-- The double with the given sign whose other bits are `b`. -/
def ofSignAndBits (negative : Bool) (b : Nat) : Double :=
  ⟨UInt64.ofNat (if negative then 2 ^ (63 : Nat) + b else b)⟩

/-- The bits, without the sign, of the double nearest to a magnitude.  A mantissa that
rounding carries to `2 ^ 53` raises the exponent by itself, since the mantissa field sits
directly below the exponent field. -/
def nearestBits (m : Magnitude) : Nat :=
  if m.mantissa = 0 then 0
  else
    let q := max (m.exponent + m.mantissa.log2 - 52) (-1074)
    let r :=
      if q ≤ m.exponent then m.mantissa * 2 ^ (m.exponent - q).toNat
      else roundDiv .toEven m.mantissa (2 ^ (q - m.exponent).toNat)
    min ((q + 1074).toNat * 2 ^ (52 : Nat) + r) (2047 * 2 ^ (52 : Nat))

/-- The double nearest to a signed magnitude. -/
def nearest (negative : Bool) (m : Magnitude) : Double := ofSignAndBits negative (nearestBits m)

/-! ### The total order -/

/-- The place of a double in the total order of bit patterns: -0.0 stands just below 0.0, the
infinities outside all finite numbers, and outside these the NaNs, each on the side of its
sign. -/
def rank (x : Double) : Int :=
  if isNegative x then -((bits x : Int) - 2 ^ (63 : Nat)) - 1 else bits x

/-- Compares by the total order of bit patterns. -/
def totalCompare (x y : Double) : Ordering := compare (rank x) (rank y)

/-! ### Whole numbers -/

/-- Directions in which a fraction can be dropped. -/
inductive Rounding where
  | floor
  | ceiling
  | towardZero
  | nearestEven
  deriving DecidableEq

/-- The whole magnitude that a signed magnitude is rounded to. -/
def roundedMagnitude (rule : Rounding) (negative : Bool) (m : Magnitude) : Nat :=
  let n := m.mantissa * 2 ^ m.exponent.toNat
  let d := 2 ^ (-m.exponent).toNat
  match rule with
  | .towardZero => n / d
  | .nearestEven => roundDiv .toEven n d
  | .floor => if negative then (n + d - 1) / d else n / d
  | .ceiling => if negative then n / d else (n + d - 1) / d

/-- A double rounded to a whole number; the sign stays, also that of a zero. -/
def roundWhole (rule : Rounding) (x : Double) : Double :=
  match parts x with
  | .finite negative m => nearest negative ⟨roundedMagnitude rule negative m, 0⟩
  | _ => x

/-- The whole part of a finite double. -/
def wholePart? (x : Double) : Option Int :=
  match parts x with
  | .finite negative m =>
    let n := roundedMagnitude .towardZero negative m
    some (if negative then -(n : Int) else n)
  | _ => none

/-- The double nearest to a natural number. -/
def ofNat (n : Nat) : Double := nearest false ⟨n, 0⟩

/-- The double nearest to a 64-bit integer. -/
def ofInt64 (i : Int64) : Double := nearest (i.toInt < 0) ⟨i.toInt.natAbs, 0⟩

/-- The 64-bit integer with a given value, if there is one. -/
def int64? (i : Int) : Option Int64 :=
  if -(2 ^ (63 : Nat)) ≤ i ∧ i < 2 ^ (63 : Nat) then some (Int64.ofInt i) else none

/-- The whole part of a double as a 64-bit integer, if it is one. -/
def toInt64? (x : Double) : Option Int64 := (wholePart? x).bind int64?

/-! ### Remainder -/

/-- The remainder of two magnitudes, on the finer of their two grids. -/
def Magnitude.rem (a b : Magnitude) : Magnitude :=
  let e := min a.exponent b.exponent
  ⟨(a.mantissa * 2 ^ (a.exponent - e).toNat) % (b.mantissa * 2 ^ (b.exponent - e).toNat), e⟩

/-- The remainder with the sign of the dividend.  It is exact: no rounding takes place.  A NaN
goes through, as in any other operation. -/
def rem (x y : Double) : Double :=
  match parts x, parts y with
  | .nan, _ => x
  | _, .nan => y
  | .finite negative a, .finite _ b =>
    if b.mantissa = 0 then .invalid else nearest negative (a.rem b)
  | .finite _ _, .infinite _ => x
  | .infinite _, _ => .invalid

/-! ### Lesser and greater -/

/-- The lesser of two numbers; a NaN gives way to the other, and of equals the first stays. -/
def lesser (x y : Double) : Double := if x.isNaN then y else if y < x then y else x

/-- The greater of two numbers; a NaN gives way to the other, and of equals the first stays. -/
def greater (x y : Double) : Double := if x.isNaN then y else if y > x then y else x

end LambdaShell.Number
