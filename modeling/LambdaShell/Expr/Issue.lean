/-
Why a lambda text is refused.

Each refusal is an issue: a cause and the byte offset it is about.  The causes come from
three readings of the text, as tokens, as a sentence of the grammar, and as a typed
expression; their wording is in `Cause.message` and nowhere else.
-/
import LambdaShell.Expr.StaticType

namespace LambdaShell

/-- How deep an expression may nest. -/
def maxDepth : Nat := 64

/-- What the grammar was waiting for. -/
inductive Wanted where
  | parameter
  | parenEnd
  | arrow
  | branchColon
  | memberName
  | functionName
  | callStart
  | argumentEnd
  | expression
  | recordStart
  | recordEnd
  deriving DecidableEq

/-- What the grammar was waiting for, in words. -/
def Wanted.text : Wanted → String
  | parameter => "lambda parameter name"
  | parenEnd => "')'"
  | arrow => "'=>' after lambda parameter"
  | branchColon => "':' in conditional expression"
  | memberName => "member name after '.'"
  | functionName => "function name after 'Math.'"
  | callStart => "'(' after Math function name"
  | argumentEnd => "',' or ')' in argument list"
  | expression => "expression"
  | recordStart => "'\x7b' after 'new'"
  | recordEnd => "',' or '\x7d' in anonymous type"

/-- The causes of an issue. -/
inductive Cause where
  /-- Characters that start no token. -/
  | strayText (text : String)
  /-- A string that is not closed or holds an unknown escape. -/
  | badString (text : String)
  /-- A number out of range. -/
  | badNumber (text : String)
  /-- Something else stands where the grammar wants a token, or nothing does. -/
  | expected (what : Wanted) (found : Option Token)
  /-- The text goes on behind a complete lambda. -/
  | trailing (found : Token)
  /-- More than `maxDepth` levels. -/
  | tooDeep
  /-- A record member whose name can not be told. -/
  | unnamedMember
  /-- There is no text. -/
  | emptySource
  /-- There is no arrow in the text. -/
  | notLambda
  /-- A name other than the parameter. -/
  | unknownName (name : String)
  /-- A test or a predicate that can not be a truth value. -/
  | notBoolean (type : Ty)
  /-- An argument that can not have the type it must have. -/
  | argumentType (type want : Ty)
  /-- A type without that member, method or function. -/
  | noDefinition (owner name : String)
  /-- No type has that method. -/
  | unsupportedMethod (name : String)
  /-- A call with the wrong number of arguments. -/
  | wrongArity (name : String) (count : Nat)
  /-- A cast that can never succeed. -/
  | impossibleCast (type : Ty) (target : CastType)
  /-- An operator that is not defined for its operand. -/
  | unaryOperand (op : UnaryOp) (type : Ty)
  /-- An operator that is not defined for its operands. -/
  | binaryOperands (op : BinaryOp) (lhs rhs : Ty)
  /-- Two members of one record share a name. -/
  | duplicateMember (name : String)

/-- What was found instead, in words. -/
def foundText : Option Token → String
  | some t => s!"'{t.text}'"
  | none => "end of expression"

/-- The wording of each cause. -/
def Cause.message : Cause → String
  | strayText t => s!"unexpected character '{t}'"
  | badString t => s!"invalid string literal {t}"
  | badNumber t => s!"invalid numeric literal '{t}'"
  | expected w f => s!"expected {w.text}, found {foundText f}"
  | trailing t => s!"unexpected '{t.text}' after end of expression"
  | tooDeep => s!"expression nested too deeply (max {maxDepth})"
  | unnamedMember => "invalid anonymous type member; expected 'Name = expression'"
  | emptySource => "expression is empty"
  | notLambda => "expected a lambda of the form 'x => expression'"
  | unknownName n => s!"the name '{n}' does not exist in the current context"
  | notBoolean t => s!"cannot implicitly convert type '{t.name}' to 'bool'"
  | argumentType t w => s!"cannot convert from '{t.name}' to '{w.name}'"
  | noDefinition o n => s!"'{o}' does not contain a definition for '{n}'"
  | unsupportedMethod n => s!"'{n}' is not a supported method"
  | wrongArity n k => s!"no overload for method '{n}' takes {k} arguments"
  | impossibleCast t c => s!"cannot convert type '{t.name}' to '{c.name}'"
  | unaryOperand op t => s!"operator '{op.text}' cannot be applied to operand of type '{t.name}'"
  | binaryOperands op l r =>
    s!"operator '{op.text}' cannot be applied to operands of type '{l.name}' and '{r.name}'"
  | duplicateMember n =>
    s!"an anonymous type cannot have multiple properties with the same name '{n}'"

/-- A cause and the byte offset at which it arose. -/
structure Issue where
  offset : Nat
  cause : Cause

/-- An issue in words, with the byte offset it is about. -/
structure Diagnostic where
  offset : Nat
  message : String

/-- The issue in words. -/
def Issue.diagnostic (i : Issue) : Diagnostic := ⟨i.offset, i.cause.message⟩

/-- The column of a diagnostic, counted in bytes from one. -/
def Diagnostic.column (d : Diagnostic) : Nat := d.offset + 1

/-- A diagnostic as it is shown.  Columns are counted through line breaks, so the line is
always the first. -/
def Diagnostic.text (d : Diagnostic) : String := s!"(1,{d.column}): error: {d.message}"

end LambdaShell
