/-
Lambda expressions.

A lambda is a parameter name and a body.  Every node of the body keeps the span of source
text it was read from; parentheses leave no node, they only widen the span of what they
enclose.
-/
import LambdaShell.Expr.Token

namespace LambdaShell

/-! ### Operators and casts -/

/-- Target types of an explicit cast. -/
inductive CastType where
  | int
  | float
  | str
  | bool
  | object
  deriving DecidableEq

namespace CastType

/-- The cast a type name stands for. -/
def ofName? : String → Option CastType
  | "int" | "long" => some int
  | "double" | "float" | "decimal" => some float
  | "string" => some str
  | "bool" => some bool
  | "object" => some object
  | _ => none

/-- The name of a cast in messages. -/
def name : CastType → String
  | int => "int"
  | float => "double"
  | str => "string"
  | bool => "bool"
  | object => "object"

end CastType

/-- Operators in front of one operand. -/
inductive UnaryOp where
  | not
  | neg
  | plus
  deriving DecidableEq

/-- How a unary operator is written. -/
def UnaryOp.text : UnaryOp → String
  | .not => "!"
  | .neg => "-"
  | .plus => "+"

/-- Operators between two operands. -/
inductive BinaryOp where
  | add
  | sub
  | mul
  | div
  | rem
  | eq
  | notEq
  | lt
  | atMost
  | gt
  | atLeast
  | and
  | or
  | coalesce
  deriving DecidableEq

namespace BinaryOp

/-- How a binary operator is written. -/
def text : BinaryOp → String
  | add => "+"
  | sub => "-"
  | mul => "*"
  | div => "/"
  | rem => "%"
  | eq => "=="
  | notEq => "!="
  | lt => "<"
  | atMost => "<="
  | gt => ">"
  | atLeast => ">="
  | and => "&&"
  | or => "||"
  | coalesce => "??"

/-- The operator computes a number from numbers. -/
def isArithmetic : BinaryOp → Bool
  | add | sub | mul | div | rem => true
  | _ => false

/-- The operator asks which operand is greater. -/
def isOrdering : BinaryOp → Bool
  | lt | atMost | gt | atLeast => true
  | _ => false

end BinaryOp

/-! ### Expressions -/

/-- The body of a lambda, or a part of one. -/
inductive Expr where
  | literal (span : Span) (value : Value)
  /-- A bare name. -/
  | name (span : Span) (name : String)
  /-- `target.name` -/
  | member (span : Span) (target : Expr) (name : String)
  /-- `target.name(args)` -/
  | method (span : Span) (target : Expr) (name : String) (args : List Expr)
  /-- `Math.function(args)` -/
  | math (span : Span) (function : String) (args : List Expr)
  /-- `(type)operand` -/
  | cast (span : Span) (type : CastType) (operand : Expr)
  | unary (span : Span) (op : UnaryOp) (operand : Expr)
  | binary (span : Span) (op : BinaryOp) (lhs rhs : Expr)
  /-- `test ? yes : no` -/
  | conditional (span : Span) (test yes no : Expr)
  /-- A new record with the given members. -/
  | record (span : Span) (members : List (String × Expr))

namespace Expr

/-- The source text a node was read from. -/
def span : Expr → Span
  | literal s .. | name s .. | member s .. | method s .. | math s .. | cast s .. | unary s ..
  | binary s .. | conditional s .. | record s .. => s

/-- The same node with another span. -/
def withSpan (s : Span) : Expr → Expr
  | literal _ v => literal s v
  | name _ n => name s n
  | member _ e n => member s e n
  | method _ e n as => method s e n as
  | math _ f as => math s f as
  | cast _ t e => cast s t e
  | unary _ op e => unary s op e
  | binary _ op l r => binary s op l r
  | conditional _ c y n => conditional s c y n
  | record _ ms => record s ms

/-- The member name that an expression suggests when a record member gives none. -/
def impliedName? : Expr → Option String
  | name _ n => some n
  | member _ _ n => some n
  | _ => none

end Expr

/-- A function of one parameter. -/
structure LambdaExpr where
  param : String
  body : Expr

end LambdaShell
