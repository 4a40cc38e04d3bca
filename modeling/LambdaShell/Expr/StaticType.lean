/-
What is known of an operand before it is evaluated.

The parameter of a lambda may hold anything, so most of what depends on it is `dynamic`.
Literals, casts and operators with a fixed result are known for certain.
-/
import LambdaShell.Expr.Basic

namespace LambdaShell

/-- The statically known type of an expression. -/
inductive Ty where
  | null
  | bool
  | int
  | float
  | str
  | record
  /-- Nothing is known. -/
  | dynamic
  deriving DecidableEq

namespace Ty

/-- The type of a value that stands in the text. -/
def ofValue : Value → Ty
  | .null => null
  | .bool _ => bool
  | .int _ => int
  | .float _ => float
  | .str _ => str
  | .record _ => record
  | .list _ => dynamic

/-- The type a cast produces. -/
def ofCast : CastType → Ty
  | .int => int
  | .float => float
  | .str => str
  | .bool => bool
  | .object => dynamic

/-- The name of a type in messages. -/
def name : Ty → String
  | null => "null"
  | bool => "bool"
  | int => "int"
  | float => "double"
  | str => "string"
  | record => "<anonymous type>"
  | dynamic => "object"

/-- Certainly a number. -/
def isNumeric : Ty → Bool
  | int | float => true
  | _ => false

/-- A value of this type could turn out to be of type `want`. -/
def admits (t want : Ty) : Bool := t == want || t == dynamic

/-- A value of this type could turn out to be a number. -/
def admitsNumber (t : Ty) : Bool := t.isNumeric || t == dynamic

end Ty

end LambdaShell
