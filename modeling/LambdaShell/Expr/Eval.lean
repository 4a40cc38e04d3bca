/-
Evaluating a lambda on one item.

Operands are evaluated left to right before the operator is applied; only `&&`, `||`, `??`
and `?:` skip an operand they do not need.  Integers stay integers and fail rather than
wrap, a double among the operands makes the computation one on doubles, and a text on
either side of `+` joins texts.
-/
import LambdaShell.Expr.Basic
import LambdaShell.Text.Case
import LambdaShell.Value.Literal

namespace LambdaShell

/-! ### Failures -/

/-- Why a lambda fails on an item. -/
inductive EvalError where
  | divideByZero
  | overflow
  /-- A value that a cast does not accept; `shown` is how the value is shown. -/
  | invalidCast (kind : Kind) (shown : String) (target : CastType)
  /-- An operator that is not defined for its operands. -/
  | invalidOperands (op : BinaryOp) (lhs rhs : Kind)
  /-- An operator, given as it is written, that is not defined for one operand. -/
  | invalidOperand (op : String) (operand : Kind)
  /-- A kind of value, or `Math`, without that member. -/
  | noMember (owner name : String)
  /-- A record without that field. -/
  | noField (name : String)
  /-- A member of null. -/
  | nullReference (name : String)
  /-- A predicate that answers no truth value. -/
  | notBool (kind : Kind)
  deriving DecidableEq

/-- The wording of each failure. -/
def EvalError.message : EvalError → String
  | divideByZero => "attempted to divide by zero"
  | overflow => "arithmetic operation resulted in an overflow"
  | invalidCast k shown t => s!"unable to cast {k.name} value {shown} to type '{t.name}'"
  | invalidOperands op l r =>
    s!"operator '{op.text}' cannot be applied to operands of type '{l.name}' and '{r.name}'"
  | invalidOperand op k => s!"operator '{op}' cannot be applied to operand of type '{k.name}'"
  | noMember o n => s!"'{o}' does not contain a definition for '{n}'"
  | noField n => s!"record has no field '{n}'"
  | nullReference n => s!"cannot access '{n}' on a null value"
  | notBool k => s!"expected a bool result, found {k.name}"

/-- The value of an evaluation, or why there is none. -/
abbrev Outcome? := Except EvalError

namespace Eval

-- Powers are those of the core library, also where algebra offers others.
attribute [local instance (high)] instPowNat

/-- The failure of a cast. -/
def castFailure (v : Value) (target : CastType) : EvalError :=
  .invalidCast v.kind v.display target

/-- An integer result, or an overflow if there is none. -/
def intResult (i : Option Int64) : Outcome? Value :=
  match i with
  | some i => .ok (.int i)
  | none => .error .overflow

/-! ### Arithmetic -/

/-- A number as a double; other values have no such view. -/
def asFloat? : Value → Option Double
  | .int i => some (Number.ofInt64 i)
  | .float x => some x
  | _ => none

/-- Integer arithmetic, if the result fits; dividing rounds toward zero. -/
def intOp? (op : BinaryOp) (a b : Int64) : Option Int64 :=
  match op with
  | .add => Number.int64? (a.toInt + b.toInt)
  | .sub => Number.int64? (a.toInt - b.toInt)
  | .mul => Number.int64? (a.toInt * b.toInt)
  | .div => Number.int64? (a.toInt.tdiv b.toInt)
  | _ => (Number.int64? (a.toInt.tdiv b.toInt)).bind fun _ => Number.int64? (a.toInt.tmod b.toInt)

/-- Integer arithmetic; nothing is divided by zero. -/
def intArithmetic (op : BinaryOp) (a b : Int64) : Outcome? Value :=
  if (op = .div ∨ op = .rem) ∧ b = 0 then .error .divideByZero else intResult (intOp? op a b)

/-- Arithmetic on doubles. -/
def floatArithmetic (op : BinaryOp) (x y : Double) : Double :=
  match op with
  | .add => x + y
  | .sub => x - y
  | .mul => x * y
  | .div => x / y
  | _ => Number.rem x y

/-- A text on either side makes `+` join the two as text. -/
def joined? (op : BinaryOp) (l r : Value) : Option Value :=
  match op, l.kind, r.kind with
  | .add, .string, _ => some (.str (l.text ++ r.text))
  | .add, _, .string => some (.str (l.text ++ r.text))
  | _, _, _ => none

/-- The value of an arithmetic operator. -/
def arithmetic (op : BinaryOp) (l r : Value) : Outcome? Value :=
  match joined? op l r with
  | some v => .ok v
  | none =>
    match l, r with
    | .int a, .int b => intArithmetic op a b
    | _, _ =>
      match asFloat? l, asFloat? r with
      | some x, some y => .ok (.float (floatArithmetic op x y))
      | _, _ => .error (.invalidOperands op l.kind r.kind)

/-! ### Comparison -/

/-- How two doubles compare; a NaN compares with nothing. -/
def floatOrdering? (x y : Double) : Option Ordering :=
  if x < y then some .lt else if x == y then some .eq else if x > y then some .gt else none

/-- How two operands compare, if they can be compared at all. -/
def ordering (op : BinaryOp) (l r : Value) : Outcome? (Option Ordering) :=
  match l, r with
  | .int a, .int b => .ok (some (compare a.toInt b.toInt))
  | .str a, .str b => .ok (some (compare a b))
  | _, _ =>
    match asFloat? l, asFloat? r with
    | some x, some y => .ok (floatOrdering? x y)
    | _, _ => .error (.invalidOperands op l.kind r.kind)

/-- The ordering satisfies the operator. -/
def holds (op : BinaryOp) (o : Ordering) : Bool :=
  match op with
  | .lt => o.isLT
  | .atMost => o.isLE
  | .gt => o.isGT
  | _ => o.isGE

/-- The value of an operator that evaluates both operands. -/
def strict (op : BinaryOp) (l r : Value) : Outcome? Value :=
  match op with
  | .eq => .ok (.bool (l == r))
  | .notEq => .ok (.bool (!(l == r)))
  | .lt | .atMost | .gt | .atLeast => do
    let o ← ordering op l r
    return .bool (o.any (holds op))
  | _ => arithmetic op l r

/-- The value of an operator in front of its operand. -/
def unary (op : UnaryOp) (v : Value) : Outcome? Value :=
  match op, v with
  | .not, .bool b => .ok (.bool !b)
  | .neg, .int i => intResult (Number.int64? (-i.toInt))
  | .neg, .float x => .ok (.float (-x))
  | .plus, .int i => .ok (.int i)
  | .plus, .float x => .ok (.float x)
  | _, _ => .error (.invalidOperand op.text v.kind)

/-- The truth value of an operand of a logical operator, given as it is written. -/
def truth (op : String) (v : Value) : Outcome? Bool :=
  match v with
  | .bool b => .ok b
  | _ => .error (.invalidOperand op v.kind)

/-! ### Casts -/

/-- The whole part of a double, or an overflow. -/
def truncated (x : Double) : Outcome? Value := intResult (Number.toInt64? x)

/-- A value as an integer. -/
def castInt (v : Value) : Outcome? Value :=
  match v with
  | .int i => .ok (.int i)
  | .float x => truncated x
  | .str s =>
    match Number.readInt64? (Text.trim s.toList) with
    | some i => .ok (.int i)
    | none =>
      match Number.ofText? s with
      | some x => truncated x
      | none => .error (castFailure v .int)
  | _ => .error (castFailure v .int)

/-- A value as a double. -/
def castFloat (v : Value) : Outcome? Value :=
  match v with
  | .int i => .ok (.float (Number.ofInt64 i))
  | .float x => .ok (.float x)
  | .str s =>
    match Number.ofText? s with
    | some x => .ok (.float x)
    | none => .error (castFailure v .float)
  | _ => .error (castFailure v .float)

/-- A value as a truth value. -/
def castBool (v : Value) : Outcome? Value :=
  match v with
  | .bool b => .ok (.bool b)
  | .str s =>
    match truthValue? (Text.trim s.toList) with
    | some b => .ok (.bool b)
    | none => .error (castFailure v .bool)
  | _ => .error (castFailure v .bool)

/-- A value as text; null stays null. -/
def castText (v : Value) : Value :=
  match v with
  | .null => .null
  | _ => .str v.text

/-- The value of a cast. -/
def cast (target : CastType) (v : Value) : Outcome? Value :=
  match target with
  | .object => .ok v
  | .int => castInt v
  | .float => castFloat v
  | .str => .ok (castText v)
  | .bool => castBool v

/-! ### Members and methods -/

/-- The length of a text or a list. -/
def lengthValue (n : Nat) : Value := .int (Int64.ofNat n)

/-- The value of a member. -/
def member (v : Value) (name : String) : Outcome? Value :=
  match v with
  | .record fields =>
    match Fields.get? fields name with
    | some w => .ok w
    | none => .error (.noField name)
  | .null => .error (.nullReference name)
  | .str s =>
    if name = "Length" then .ok (lengthValue s.length) else .error (.noMember v.kind.name name)
  | .list items =>
    if name = "Length" ∨ name = "Count" then .ok (lengthValue items.length)
    else .error (.noMember v.kind.name name)
  | _ => .error (.noMember v.kind.name name)

/-- The second text occurs in the first. -/
def occursIn (part : List Char) : List Char → Bool
  | [] => part.isEmpty
  | c :: cs => part.isPrefixOf (c :: cs) || occursIn part cs

/-- The text that a method takes as its argument. -/
def textArgument (name : String) (args : List Value) : Outcome? (List Char) :=
  match args with
  | .str s :: _ => .ok s.toList
  | v :: _ => .error (castFailure v .str)
  | [] => .error (.noMember "string" name)

/-- The value of a method of a text. -/
def textMethod (s : List Char) (name : String) (args : List Value) : Outcome? Value :=
  match name with
  | "ToUpper" => .ok (.str (String.ofList (Text.toUpper s)))
  | "ToLower" => .ok (.str (String.ofList (Text.toLower s)))
  | "Trim" => .ok (.str (String.ofList (Text.trim s)))
  | "Contains" => do return .bool (occursIn (← textArgument name args) s)
  | "StartsWith" => do return .bool ((← textArgument name args).isPrefixOf s)
  | "EndsWith" => do return .bool ((← textArgument name args).isSuffixOf s)
  | _ => .error (.noMember "string" name)

/-- The value of a method. -/
def method (v : Value) (name : String) (args : List Value) : Outcome? Value :=
  match v with
  | .null => .error (.nullReference (name ++ "()"))
  | _ =>
    if name = "ToString" then .ok (.str v.text)
    else match v with
      | .str s => textMethod s.toList name args
      | _ => .error (.noMember v.kind.name name)

/-! ### Functions of `Math` -/

/-- The number that a function takes as its argument at a place. -/
def numberArgument (name : String) (args : List Value) (place : Nat) : Outcome? Double :=
  match args[place]? with
  | some v =>
    match asFloat? v with
    | some x => .ok x
    | none => .error (castFailure v .float)
  | none => .error (.noMember "Math" name)

/-- Rounds to a number of decimal places, at most fifteen, ties to even. -/
def roundPlaces (x : Double) (places : Int) : Double :=
  let scale := Number.nearest false ⟨10 ^ (min places 15).toNat, 0⟩
  Number.roundWhole .nearestEven (x * scale) / scale

/-- The value of a function of `Math` on doubles. -/
def floatMath (name : String) (args : List Value) : Outcome? Value := do
  match name with
  | "Abs" => return .float (← numberArgument name args 0).abs
  | "Min" =>
    let x ← numberArgument name args 0
    let y ← numberArgument name args 1
    return .float (Number.lesser x y)
  | "Max" =>
    let x ← numberArgument name args 0
    let y ← numberArgument name args 1
    return .float (Number.greater x y)
  | "Sqrt" => return .float (← numberArgument name args 0).sqrt
  | "Pow" =>
    let x ← numberArgument name args 0
    let y ← numberArgument name args 1
    return .float (x.pow y)
  | "Floor" => return .float (Number.roundWhole .floor (← numberArgument name args 0))
  | "Ceiling" => return .float (Number.roundWhole .ceiling (← numberArgument name args 0))
  | "Round" =>
    match args with
    | [_] => return .float (Number.roundWhole .nearestEven (← numberArgument name args 0))
    | [_, .int places] => return .float (roundPlaces (← numberArgument name args 0) places.toInt)
    | _ => .error (.noMember "Math" name)
  | _ => .error (.noMember "Math" name)

/-- The value of a function of `Math`; some keep integers as they are. -/
def math (name : String) (args : List Value) : Outcome? Value :=
  match name, args with
  | "Abs", [.int i] => intResult (Number.int64? i.toInt.natAbs)
  | "Min", [.int a, .int b] => .ok (.int (if b < a then b else a))
  | "Max", [.int a, .int b] => .ok (.int (if a < b then b else a))
  | _, _ => floatMath name args

end Eval

/-! ### Expressions -/

namespace Expr

mutual

/-- The value of an expression when the parameter is `arg`.  Every bare name stands for the
parameter: no other name passes the checks. -/
def eval (arg : Value) : Expr → Outcome? Value
  | literal _ v => .ok v
  | name _ _ => .ok arg
  | member _ target n => do Eval.member (← target.eval arg) n
  | method _ target n args => do
    let v ← target.eval arg
    Eval.method v n (← evalArgs arg args)
  | math _ f args => do Eval.math f (← evalArgs arg args)
  | cast _ t e => do Eval.cast t (← e.eval arg)
  | unary _ op e => do Eval.unary op (← e.eval arg)
  | binary _ op l r =>
    match op with
    | .and => do
      if ← Eval.truth op.text (← l.eval arg) then
        return .bool (← Eval.truth op.text (← r.eval arg))
      else return .bool false
    | .or => do
      if ← Eval.truth op.text (← l.eval arg) then return .bool true
      else return .bool (← Eval.truth op.text (← r.eval arg))
    | .coalesce => do
      match ← l.eval arg with
      | .null => r.eval arg
      | v => return v
    | _ => do
      let v ← l.eval arg
      Eval.strict op v (← r.eval arg)
  | conditional _ test yes no => do
    if ← Eval.truth "?:" (← test.eval arg) then yes.eval arg else no.eval arg
  | record _ members => do return .record (← evalMembers arg members)

/-- The values of arguments, left to right. -/
def evalArgs (arg : Value) : List Expr → Outcome? (List Value)
  | [] => .ok []
  | e :: es => do
    let v ← e.eval arg
    return v :: (← evalArgs arg es)

/-- The fields of a record, left to right. -/
def evalMembers (arg : Value) : List (String × Expr) → Outcome? (List (String × Value))
  | [] => .ok []
  | (n, e) :: ms => do
    let v ← e.eval arg
    return (n, v) :: (← evalMembers arg ms)

end

end Expr

end LambdaShell
