/-
Finding mistakes before anything is evaluated.

`Expr.type` is what is known of an expression from its text alone, and `Expr.issues` lists
what is certain to be wrong with it, left to right.  Whatever depends on the parameter is
left to evaluation; only the name of the parameter is checked.
-/
import LambdaShell.Expr.Issue

namespace LambdaShell

/-! ### Operators and functions -/

namespace UnaryOp

/-- The type of an operator's result, if the operator is defined for the operand. -/
def resultType? (op : UnaryOp) (t : Ty) : Option Ty :=
  match op with
  | not => if t.admits .bool then some .bool else none
  | neg | plus => if t.admitsNumber then some t else none

end UnaryOp

namespace BinaryOp

/-- The type of a computed number, if both operands can be numbers. -/
def arithmeticType? (l r : Ty) : Option Ty :=
  if l = .int ∧ r = .int then some .int
  else if l.isNumeric ∧ r.isNumeric then some .float
  else if l.admitsNumber ∧ r.admitsNumber then some .dynamic
  else none

/-- Numbers are compared with numbers and texts with texts. -/
def areComparable (l r : Ty) : Bool :=
  let one (t : Ty) := t.admitsNumber || t == .str
  let mixed := (l.isNumeric && r == .str) || (l == .str && r.isNumeric)
  one l && one r && !mixed

/-- The type of an operator's result, if the operator is defined for the operands. -/
def resultType? (op : BinaryOp) (l r : Ty) : Option Ty :=
  match op with
  | add => if l = .str ∨ r = .str then some .str else arithmeticType? l r
  | sub | mul | div | rem => arithmeticType? l r
  | eq | notEq => some .bool
  | lt | atMost | gt | atLeast => if areComparable l r then some .bool else none
  | and | or => if l.admits .bool ∧ r.admits .bool then some .bool else none
  | coalesce => some (if l = r then l else .dynamic)

end BinaryOp

/-- The type of a value that comes from one of two branches. -/
def Ty.join (a b : Ty) : Ty :=
  if a = b then a
  else if a = .null then b
  else if b = .null then a
  else if a.isNumeric ∧ b.isNumeric then .float
  else .dynamic

/-- How many arguments a method takes and what it answers. -/
def methodSignature? : String → Option (Nat × Ty)
  | "ToString" | "ToUpper" | "ToLower" | "Trim" => some (0, .str)
  | "Contains" | "StartsWith" | "EndsWith" => some (1, .bool)
  | _ => none

/-- How many arguments a function of `Math` takes. -/
def mathArities? : String → Option (List Nat)
  | "Abs" | "Sqrt" | "Floor" | "Ceiling" => some [1]
  | "Pow" | "Min" | "Max" => some [2]
  | "Round" => some [1, 2]
  | _ => none

/-- The function of `Math` answers an integer when all its arguments are integers. -/
def mathKeepsInt (name : String) : Bool := name == "Abs" || name == "Min" || name == "Max"

/-- What a function of `Math` answers. -/
def mathType (name : String) (args : List Ty) : Ty :=
  if (mathArities? name).isNone then .dynamic
  else if mathKeepsInt name && args.all (· == .int) then .int
  else if mathKeepsInt name && args.contains .dynamic then .dynamic
  else .float

/-- The cast can succeed for some value of the type. -/
def CastType.isPossible (target : CastType) (t : Ty) : Bool :=
  match target with
  | object | str => true
  | int | float => t == .dynamic || t.isNumeric || t == .str
  | bool => t == .dynamic || t == .bool || t == .str

namespace Expr

/-! ### Types -/

mutual

/-- What is known of the value of an expression. -/
def type : Expr → Ty
  | literal _ v => .ofValue v
  | name _ _ => .dynamic
  | member _ target n => if target.type = .str ∧ n = "Length" then .int else .dynamic
  | method _ _ n _ => ((methodSignature? n).map (·.2)).getD .dynamic
  | math _ f args => mathType f (types args)
  | cast _ t _ => .ofCast t
  | unary _ op e => (op.resultType? e.type).getD .dynamic
  | binary _ op l r => (op.resultType? l.type r.type).getD .dynamic
  | conditional _ _ yes no => yes.type.join no.type
  | record _ _ => .record

/-- The types of the arguments of a call. -/
def types : List Expr → List Ty
  | [] => []
  | e :: es => e.type :: types es

end

/-! ### Issues -/

/-- One issue at the start of a node. -/
def issueAt (e : Expr) (cause : Cause) : List Issue := [⟨e.span.start, cause⟩]

/-- Issues with the member that is accessed. -/
def memberIssues (at' : Expr) (target : Ty) (n : String) : List Issue :=
  match target with
  | .str => if n = "Length" then [] else at'.issueAt (.noDefinition target.name n)
  | .dynamic | .record => []
  | _ => at'.issueAt (.noDefinition target.name n)

/-- Issues with the method that is called and the number of its arguments. -/
def methodIssues (at' : Expr) (target : Ty) (n : String) (count : Nat) : List Issue :=
  match methodSignature? n with
  | none => at'.issueAt (.unsupportedMethod n)
  | some (arity, _) =>
    (if n ≠ "ToString" ∧ ¬ target.admits .str then at'.issueAt (.noDefinition target.name n)
      else []) ++ (if count ≠ arity then at'.issueAt (.wrongArity n count) else [])

/-- Issues with the function of `Math` that is called and the number of its arguments. -/
def mathIssues (at' : Expr) (f : String) (count : Nat) : List Issue :=
  match mathArities? f with
  | none => at'.issueAt (.noDefinition "Math" f)
  | some arities => if arities.contains count then [] else at'.issueAt (.wrongArity f count)

/-- An issue if a test can not be a truth value. -/
def testIssues (test : Expr) : List Issue :=
  if test.type.admits .bool then [] else test.issueAt (.notBoolean test.type)

/-- Why an argument of that type is refused by a method. -/
def textArgument (n : String) (t : Ty) : Option Cause :=
  if n ≠ "ToString" ∧ ¬ t.admits .str then some (.argumentType t .str) else none

/-- Why an argument of that type is refused by a function of `Math`. -/
def numberArgument (t : Ty) : Option Cause :=
  if t.admitsNumber then none else some (.argumentType t .float)

mutual

/-- What is certain to be wrong with an expression whose parameter is `param`. -/
def issues (param : String) : Expr → List Issue
  | literal _ _ => []
  | e@(name _ n) => if n = param then [] else e.issueAt (.unknownName n)
  | e@(member _ target n) => target.issues param ++ e.memberIssues target.type n
  | e@(method _ target n args) =>
    target.issues param ++ argIssues param (textArgument n) args
      ++ e.methodIssues target.type n args.length
  | e@(math _ f args) => argIssues param numberArgument args ++ e.mathIssues f args.length
  | e@(cast _ t operand) =>
    operand.issues param ++
      if t.isPossible operand.type then [] else e.issueAt (.impossibleCast operand.type t)
  | e@(unary _ op operand) =>
    operand.issues param ++
      match op.resultType? operand.type with
      | some _ => []
      | none => e.issueAt (.unaryOperand op operand.type)
  | e@(binary _ op l r) =>
    l.issues param ++ r.issues param ++
      match op.resultType? l.type r.type with
      | some _ => []
      | none => e.issueAt (.binaryOperands op l.type r.type)
  | conditional _ test yes no =>
    test.issues param ++ test.testIssues ++ yes.issues param ++ no.issues param
  | record _ members => recordIssues param [] members

/-- The issues of arguments, each followed by the cause for which `refusal` refuses it. -/
def argIssues (param : String) (refusal : Ty → Option Cause) : List Expr → List Issue
  | [] => []
  | e :: es =>
    e.issues param ++ ((refusal e.type).map e.issueAt).getD [] ++ argIssues param refusal es

/-- The issues of record members, `seen` being the names that stand before them. -/
def recordIssues (param : String) (seen : List String) : List (String × Expr) → List Issue
  | [] => []
  | (n, e) :: ms =>
    (if seen.contains n then e.issueAt (.duplicateMember n) else []) ++ e.issues param
      ++ recordIssues param (n :: seen) ms

end

end Expr

/-! ### Lambdas -/

/-- What a lambda is used for. -/
inductive Goal where
  /-- A predicate. -/
  | boolean
  /-- A projection or a key. -/
  | any
  deriving DecidableEq

/-- The issues of a lambda that is used for a goal. -/
def LambdaExpr.issues (lambda : LambdaExpr) (goal : Goal) : List Issue :=
  lambda.body.issues lambda.param ++
    match goal with
    | .boolean => lambda.body.testIssues
    | .any => []

end LambdaShell
