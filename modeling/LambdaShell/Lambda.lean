/-
Lambdas ready to be applied.

Compiling a text takes four steps: a scan for forbidden names, a look for the arrow, the
parser, and the checks.  What comes out can be applied to any item.
-/
import LambdaShell.Expr.Eval
import LambdaShell.Expr.Parser
import LambdaShell.Expr.Typing

namespace LambdaShell

/-- Texts that no lambda may contain, in any case of their letters. -/
def forbidden : List String :=
  ["System.IO", "File.", "Directory.", "Process.", "Assembly.", "Reflection.", "Environment."]

/-- The first forbidden text that occurs in a lambda. -/
def findForbidden (source : List Char) : Option String :=
  let low := Text.toLower source
  forbidden.find? fun p => Eval.occursIn (Text.toLower p.toList) low

/-- Why a lambda is not compiled. -/
inductive CompileError where
  /-- It contains a forbidden text. -/
  | security (pattern : String)
  /-- It is not a lambda, or not a well-typed one. -/
  | invalid (issues : List Issue)

/-- The wording of a compile error. -/
def CompileError.message : CompileError → String
  | security p => s!"expression contains potentially dangerous code: {p}"
  | invalid is => s!"invalid expression ({is.length} diagnostic(s))"

/-- A compiled lambda: its text without white space around it, what it is used for, and the
expression it spells. -/
structure Lambda where
  source : String
  goal : Goal
  expr : LambdaExpr

namespace Lambda

/-- Checks an expression for what it is used for. -/
def ofExpr (source : List Char) (goal : Goal) (expr : LambdaExpr) : Except CompileError Lambda :=
  match expr.issues goal with
  | [] => .ok ⟨String.ofList source, goal, expr⟩
  | issues => .error (.invalid issues)

/-- Compiles a text without white space around it. -/
def compileTrimmed (source : List Char) (goal : Goal) : Except CompileError Lambda :=
  match findForbidden source with
  | some p => .error (.security p)
  | none =>
    if source.isEmpty then .error (.invalid [⟨0, .emptySource⟩])
    else if !Eval.occursIn ['=', '>'] source then .error (.invalid [⟨0, .notLambda⟩])
    else match parseLambda source with
      | .error issues => .error (.invalid issues)
      | .ok expr => ofExpr source goal expr

/-- Compiles a text. -/
def compile (source : List Char) (goal : Goal) : Except CompileError Lambda :=
  compileTrimmed (Text.trim source) goal

/-- Applies a lambda to an item. -/
def call (lambda : Lambda) (arg : Value) : Outcome? Value := lambda.expr.body.eval arg

/-- The answer of a predicate. -/
def verdict : Value → Outcome? Bool
  | .bool b => .ok b
  | v => .error (.notBool v.kind)

/-- Applies a predicate to an item. -/
def test (lambda : Lambda) (arg : Value) : Outcome? Bool := do verdict (← lambda.call arg)

end Lambda

end LambdaShell
