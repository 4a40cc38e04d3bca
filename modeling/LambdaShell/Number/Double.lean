/-
Doubles, told apart by their bits.

The core library has one NaN.  The machine has many, of either sign, and the total order of
doubles tells them apart, so a double is kept here as its 64 bits.  What it computes with is
the core library's arithmetic; only where that answers NaN there is something to settle: a
NaN among the operands goes through as it is, and an operation that has no result on numbers
answers the NaN that the processor makes, which has its sign bit set.
-/
namespace LambdaShell

/-- A double, as its bits. -/
structure Double where
  bits : UInt64
  deriving DecidableEq

namespace Double

/-- The double as the core library has it, without the sign of a NaN. -/
def toFloat (x : Double) : Float := Float.ofBits x.bits

/-- A double of the core library. -/
def ofFloat (x : Float) : Double := ⟨x.toBits⟩

instance : Inhabited Double := ⟨⟨0⟩⟩

instance {n : Nat} : OfNat Double n := ⟨ofFloat (OfNat.ofNat n)⟩

instance : OfScientific Double := ⟨fun m s e => ofFloat (OfScientific.ofScientific m s e)⟩

/-- The double is no number. -/
def isNaN (x : Double) : Bool := x.toFloat.isNaN

/-- The double is a number and not infinite. -/
def isFinite (x : Double) : Bool := x.toFloat.isFinite

/-! ### Comparison -/

instance : BEq Double := ⟨fun x y => x.toFloat == y.toFloat⟩

instance : LT Double := ⟨fun x y => x.toFloat < y.toFloat⟩

instance (x y : Double) : Decidable (x < y) := inferInstanceAs (Decidable (x.toFloat < y.toFloat))

/-! ### The sign -/

/-- The other sign, also of a zero or a NaN. -/
def negated (x : Double) : Double := ⟨x.bits ^^^ 0x8000000000000000⟩

instance : Neg Double := ⟨negated⟩

/-- The double without its sign. -/
def abs (x : Double) : Double := ⟨x.bits &&& 0x7fffffffffffffff⟩

/-! ### Arithmetic -/

/-- The NaN that an operation on numbers answers where it has no result. -/
def invalid : Double := ⟨0xfff8000000000000⟩

/-- The result of an operation that is `r` on these operands.  Where `r` is NaN, the first
operand that is NaN goes through. -/
def settle (operands : List Double) (r : Float) : Double :=
  if r.isNaN then (operands.find? isNaN).getD invalid else ofFloat r

instance : Add Double := ⟨fun x y => settle [x, y] (x.toFloat + y.toFloat)⟩

instance : Sub Double := ⟨fun x y => settle [x, y] (x.toFloat - y.toFloat)⟩

instance : Mul Double := ⟨fun x y => settle [x, y] (x.toFloat * y.toFloat)⟩

instance : Div Double := ⟨fun x y => settle [x, y] (x.toFloat / y.toFloat)⟩

/-- The square root. -/
def sqrt (x : Double) : Double := settle [x] x.toFloat.sqrt

/-- The first double to the power of the second. -/
def pow (x y : Double) : Double := settle [x, y] (x.toFloat.pow y.toFloat)

end Double

end LambdaShell
