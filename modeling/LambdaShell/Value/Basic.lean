/-
The values a session works on.

Items are typed as they come: the same list may hold numbers, words and records.  A value
is *numeric* when it is a number or a text that reads as a finite number, and that view,
not the kind, decides how values are ordered and summed.
-/
import LambdaShell.Number.Reading

namespace LambdaShell

/-- A single item. -/
inductive Value where
  | null
  | bool (b : Bool)
  | int (i : Int64)
  | float (x : Double)
  | str (s : String)
  /-- Named fields, in the order in which they were given. -/
  | record (fields : List (String × Value))
  /-- The members of a group. -/
  | list (items : List Value)
  deriving Inhabited

/-- A record: names with their values, in order. -/
abbrev Fields := List (String × Value)

/-- The value of the first field of that name. -/
def Fields.get? (fields : Fields) (name : String) : Option Value := fields.lookup name

/-- The field names in order. -/
def Fields.names (fields : Fields) : List String := fields.map (·.1)

/-! ### Kinds -/

/-- What sort of value something is. -/
inductive Kind where
  | null
  | bool
  | int
  | double
  | string
  | record
  | list
  deriving DecidableEq

/-- The name of a kind in messages. -/
def Kind.name : Kind → String
  | .null => "null"
  | .bool => "bool"
  | .int => "int"
  | .double => "double"
  | .string => "string"
  | .record => "record"
  | .list => "list"

namespace Value

/-- The kind of a value. -/
def kind : Value → Kind
  | null => .null
  | bool _ => .bool
  | int _ => .int
  | float _ => .double
  | str _ => .string
  | record _ => .record
  | list _ => .list

/-- The value is null. -/
def isNull : Value → Bool
  | null => true
  | _ => false

/-! ### The numeric view -/

/-- The number a value stands for, if it stands for one. -/
def number? : Value → Option Double
  | int i => some (Number.ofInt64 i)
  | float x => some x
  | str s => Number.ofText? s
  | _ => none

/-- The value stands for a number. -/
def isNumeric (v : Value) : Bool := v.number?.isSome

/-! ### Equality -/

mutual

/-- Equality of values: between integers and doubles it is numeric, otherwise it compares
like with like.  A text never equals a number, even if it reads as one. -/
def eq : Value → Value → Bool
  | null, null => true
  | bool a, bool b => a == b
  | int a, int b => a == b
  | float a, float b => a == b
  | int a, float b => Number.ofInt64 a == b
  | float a, int b => Number.ofInt64 b == a
  | str a, str b => a == b
  | record a, record b => eqFields a b
  | list a, list b => eqItems a b
  | _, _ => false

/-- The same names with equal values, in the same order. -/
def eqFields : List (String × Value) → List (String × Value) → Bool
  | [], [] => true
  | (m, v) :: a, (n, w) :: b => m == n && eq v w && eqFields a b
  | _, _ => false

/-- Equal values, in the same order. -/
def eqItems : List Value → List Value → Bool
  | [], [] => true
  | v :: a, w :: b => eq v w && eqItems a b
  | _, _ => false

end

instance : BEq Value := ⟨eq⟩

end Value

end LambdaShell
