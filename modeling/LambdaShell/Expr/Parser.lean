/-
Reading a lambda from its tokens.

The grammar has one rule per level of binding strength, loosest first: `?:`, `??`, six
levels of binary operators, operators in front of their operand and casts, and at last
member access on a primary expression.  Every step down the tree, and every further
operator or member of a chain, uses up one level of a budget of `maxDepth`.

`Rules` holds the readers for one budget.  `Rules.deepen` builds the readers for a budget
from those for the budget below it, so the grammar refers to itself only through a smaller
budget, and the two lists it contains, arguments and record members, end with the tokens.
Each reader answers the expression it found and the tokens behind it.
-/
import LambdaShell.Expr.Lexer

namespace LambdaShell

/-! ### Token access -/

/-- The byte offset of the next token, `stop` being where the text ends. -/
def nextOffset (stop : Nat) : List Lexeme → Nat
  | [] => stop
  | l :: _ => l.span.start

/-- The issue that the next token is not what the grammar wants. -/
def wanted (stop : Nat) (what : Wanted) (ts : List Lexeme) : Issue :=
  ⟨nextOffset stop ts, .expected what (ts.head?.map (·.token))⟩

/-- The tokens behind a symbol, if it comes next. -/
def behind? (s : Symbol) : List Lexeme → Option (List Lexeme)
  | l :: ts => if l.token.isSymbol s then some ts else none
  | [] => none

/-- The symbol that has to come next: where it ends, and the tokens behind it. -/
def readSymbol (stop : Nat) (s : Symbol) (what : Wanted) :
    List Lexeme → Except Issue (Nat × List Lexeme)
  | l :: ts => if l.token.isSymbol s then .ok (l.span.stop, ts) else .error (wanted stop what (l :: ts))
  | [] => .error (wanted stop what [])

/-- The name that has to come next: where it ends, and the tokens behind it. -/
def readName (stop : Nat) (what : Wanted) : List Lexeme → Except Issue (String × Nat × List Lexeme)
  | ⟨.name n, span⟩ :: ts => .ok (n, span.stop, ts)
  | ts => .error (wanted stop what ts)

/-! ### Lists -/

/-- Reads an expression: what it is, and the tokens behind it. -/
abbrev Reader := List Lexeme → Except Issue (Expr × List Lexeme)

/-- Arguments divided by commas up to the closing parenthesis: the arguments, where the
parenthesis ends, and the tokens behind it.  The first number bounds how many are read. -/
def readArgsUpTo (stop : Nat) (expr : Reader) :
    Nat → List Lexeme → Except Issue (List Expr × Nat × List Lexeme)
  | 0, ts => .error (wanted stop .argumentEnd ts)
  | n + 1, ts => do
    let (e, ts) ← expr ts
    match behind? .comma ts with
    | some rest =>
      let (es, close, rest) ← readArgsUpTo stop expr n rest
      return (e :: es, close, rest)
    | none =>
      let (close, rest) ← readSymbol stop .closeParen .argumentEnd ts
      return ([e], close, rest)

/-- The arguments of a call, behind its opening parenthesis. -/
def readArgs (stop : Nat) (expr : Reader) (ts : List Lexeme) :
    Except Issue (List Expr × Nat × List Lexeme) :=
  match readSymbol stop .closeParen .argumentEnd ts with
  | .ok (close, rest) => .ok ([], close, rest)
  | .error _ => readArgsUpTo stop expr (ts.length + 1) ts

/-- A record member: `Name = expression`, or an expression that suggests its own name. -/
def readMember (stop : Nat) (expr : Reader) (ts : List Lexeme) :
    Except Issue ((String × Expr) × List Lexeme) :=
  match ts with
  | ⟨.name n, _⟩ :: ⟨.symbol .assign, _⟩ :: rest => do
    let (e, rest) ← expr rest
    return ((n, e), rest)
  | _ => do
    let (e, rest) ← expr ts
    match e.impliedName? with
    | some n => return ((n, e), rest)
    | none => .error ⟨nextOffset stop ts, .unnamedMember⟩

/-- Record members up to the closing brace; a comma may stand before it. -/
def readMembersUpTo (stop : Nat) (expr : Reader) :
    Nat → List Lexeme → Except Issue (List (String × Expr) × Nat × List Lexeme)
  | 0, ts => .error (wanted stop .recordEnd ts)
  | n + 1, ts =>
    match readSymbol stop .closeBrace .recordEnd ts with
    | .ok (close, rest) => .ok ([], close, rest)
    | .error _ => do
      let (m, ts) ← readMember stop expr ts
      match behind? .comma ts with
      | some rest =>
        let (ms, close, rest) ← readMembersUpTo stop expr n rest
        return (m :: ms, close, rest)
      | none =>
        let (close, rest) ← readSymbol stop .closeBrace .recordEnd ts
        return ([m], close, rest)

/-- The members of a new record, behind its opening brace. -/
def readMembers (stop : Nat) (expr : Reader) (ts : List Lexeme) :
    Except Issue (List (String × Expr) × Nat × List Lexeme) :=
  readMembersUpTo stop expr (ts.length + 1) ts

/-! ### Binding strength -/

/-- The levels of binary operators that group to the left. -/
inductive Tier where
  | or
  | and
  | equality
  | relational
  | additive
  | multiplicative
  deriving DecidableEq

namespace Tier

/-- The levels, loosest first. -/
def all : List Tier := [or, and, equality, relational, additive, multiplicative]

/-- The operator of this level that a symbol stands for. -/
def opOf? : Tier → Symbol → Option BinaryOp
  | or, .either => some .or
  | and, .both => some .and
  | equality, .equals => some .eq
  | equality, .notEquals => some .notEq
  | relational, .less => some .lt
  | relational, .atMost => some .atMost
  | relational, .greater => some .gt
  | relational, .atLeast => some .atLeast
  | additive, .plus => some .add
  | additive, .minus => some .sub
  | multiplicative, .star => some .mul
  | multiplicative, .slash => some .div
  | multiplicative, .percent => some .rem
  | _, _ => none

/-- The operator of this level that comes next, and the tokens behind it. -/
def next? (tier : Tier) : List Lexeme → Option (BinaryOp × List Lexeme)
  | ⟨.symbol s, _⟩ :: ts => (tier.opOf? s).map (·, ts)
  | _ => none

end Tier

/-- The operator that a symbol stands for in front of an operand. -/
def UnaryOp.ofSymbol? : Symbol → Option UnaryOp
  | .bang => some .not
  | .minus => some .neg
  | .plus => some .plus
  | _ => none

/-- What can stand in front of an operand. -/
inductive Lead where
  | op (op : UnaryOp)
  | cast (type : CastType)

/-- The node of an operand with something in front of it. -/
def Lead.apply (span : Span) (e : Expr) : Lead → Expr
  | op o => .unary span o e
  | cast t => .cast span t e

/-- What stands in front of the next operand, and the tokens behind it.  Three tokens
`( type )` are a cast whatever follows them. -/
def Lead.next? : List Lexeme → Option (Lead × List Lexeme)
  | ⟨.symbol .openParen, _⟩ :: ⟨.name n, _⟩ :: ⟨.symbol .closeParen, _⟩ :: ts =>
    (CastType.ofName? n).map (.cast ·, ts)
  | ⟨.symbol s, _⟩ :: ts => (UnaryOp.ofSymbol? s).map (.op ·, ts)
  | _ => none

/-- The value that a token stands for. -/
def Token.literal? : Token → Option Value
  | .int i => some (.int i)
  | .float x => some (.float x)
  | .str s => some (.str s)
  | .keyword .true => some (.bool true)
  | .keyword .false => some (.bool false)
  | .keyword .null => some .null
  | _ => none

/-! ### The rules -/

/-- The readers for one nesting budget. -/
structure Rules where
  /-- A whole expression. -/
  expr : Reader
  /-- An expression that binds tighter than `?:`. -/
  coalesce : Reader
  /-- An operand of the operators of the given levels. -/
  level : List Tier → Reader
  /-- The rest of a chain of operators of one level, behind its first operand. -/
  chain : Tier → List Tier → Expr → Reader
  /-- An operand with what stands in front of it. -/
  unary : Reader
  /-- The rest of a chain of member accesses, behind a point. -/
  member : Expr → Reader

namespace Rules

variable (stop : Nat)

/-- The rules when the budget is used up: nothing more can be read. -/
def exhausted : Rules :=
  let refuse : Reader := fun ts => .error ⟨nextOffset stop ts, .tooDeep⟩
  ⟨refuse, refuse, fun _ => refuse, fun _ _ _ => refuse, refuse, fun _ => refuse⟩

variable (below : Rules)

/-- A node of two operands, spanning both. -/
def binary (op : BinaryOp) (lhs rhs : Expr) : Expr :=
  .binary ⟨lhs.span.start, rhs.span.stop⟩ op lhs rhs

/-- Literals, names, calls of `Math`, parentheses and new records. -/
def primaryAt : Reader
  | [] => .error (wanted stop .expression [])
  | l :: ts =>
    match l.token.literal? with
    | some v => .ok (.literal l.span v, ts)
    | none =>
      match l.token with
      | .name n =>
        match n == "Math", behind? .dot ts with
        | true, some rest => do
          let (function, _, rest) ← readName stop .functionName rest
          let (_, rest) ← readSymbol stop .openParen .callStart rest
          let (args, close, rest) ← readArgs stop below.expr rest
          return (.math ⟨l.span.start, close⟩ function args, rest)
        | _, _ => .ok (.name l.span n, ts)
      | .symbol .openParen => do
        let (e, rest) ← below.expr ts
        let (close, rest) ← readSymbol stop .closeParen .parenEnd rest
        return (e.withSpan ⟨l.span.start, close⟩, rest)
      | .keyword .new => do
        let (_, rest) ← readSymbol stop .openBrace .recordStart ts
        let (members, close, rest) ← readMembers stop below.expr rest
        return (.record ⟨l.span.start, close⟩ members, rest)
      | _ => .error (wanted stop .expression (l :: ts))

/-- The members accessed on an expression, if a point comes next. -/
def membersAt (e : Expr) : Reader := fun ts =>
  match behind? .dot ts with
  | some rest => below.member e rest
  | none => .ok (e, ts)

/-- A member name behind a point, its arguments if it is called, and further members. -/
def memberAt (target : Expr) : Reader := fun ts => do
  let (name, nameStop, ts) ← readName stop .memberName ts
  match behind? .openParen ts with
  | some rest =>
    let (args, close, rest) ← readArgs stop below.expr rest
    membersAt below (.method ⟨target.span.start, close⟩ target name args) rest
  | none => membersAt below (.member ⟨target.span.start, nameStop⟩ target name) ts

/-- An operand with what stands in front of it, or a primary expression with its members. -/
def unaryAt : Reader := fun ts =>
  match Lead.next? ts with
  | some (lead, rest) => do
    let (e, rest) ← below.unary rest
    return (lead.apply ⟨nextOffset stop ts, e.span.stop⟩ e, rest)
  | none => do
    let (e, rest) ← primaryAt stop below ts
    membersAt below e rest

/-- The rest of a chain of operators of one level, `lhs` being what was read so far. -/
def chainAt (tier : Tier) (tighter : List Tier) (lhs : Expr) : Reader := fun ts =>
  match tier.next? ts with
  | some (op, rest) => do
    let (rhs, rest) ← below.level tighter rest
    below.chain tier tighter (binary op lhs rhs) rest
  | none => .ok (lhs, ts)

/-- An operand of the operators of the given levels. -/
def levelAt : List Tier → Reader
  | [] => unaryAt stop below
  | tier :: tighter => fun ts => do
    let (lhs, ts) ← levelAt tighter ts
    chainAt below tier tighter lhs ts

/-- Operands of `??`, which groups to the right. -/
def coalesceAt : Reader := fun ts => do
  let (lhs, ts) ← levelAt stop below Tier.all ts
  match behind? .coalesce ts with
  | some rest =>
    let (rhs, rest) ← below.coalesce rest
    return (binary .coalesce lhs rhs, rest)
  | none => return (lhs, ts)

/-- A whole expression: a test with two branches, or what binds tighter. -/
def exprAt : Reader := fun ts => do
  let (test, ts) ← coalesceAt stop below ts
  match behind? .question ts with
  | some rest =>
    let (yes, rest) ← below.expr rest
    let (_, rest) ← readSymbol stop .colon .branchColon rest
    let (no, rest) ← below.expr rest
    return (.conditional ⟨test.span.start, no.span.stop⟩ test yes no, rest)
  | none => return (test, ts)

/-- The rules for a budget that is greater by one. -/
def deepen : Rules where
  expr := exprAt stop below
  coalesce := coalesceAt stop below
  level := levelAt stop below
  chain := chainAt below
  unary := unaryAt stop below
  member := memberAt stop below

/-- The rules for a budget. -/
def ofBudget : Nat → Rules
  | 0 => exhausted stop
  | n + 1 => deepen stop (ofBudget n)

end Rules

/-! ### Lambdas -/

/-- The parameter of a lambda, bare or in parentheses, and the tokens behind it. -/
def readParam (stop : Nat) (ts : List Lexeme) : Except Issue (String × List Lexeme) :=
  match behind? .openParen ts with
  | some rest => do
    let (name, _, rest) ← readName stop .parameter rest
    let (_, rest) ← readSymbol stop .closeParen .parenEnd rest
    return (name, rest)
  | none => do
    let (name, _, rest) ← readName stop .parameter ts
    return (name, rest)

/-- A lambda that takes up all tokens. -/
def readLambda (stop : Nat) (ts : List Lexeme) : Except Issue LambdaExpr := do
  let (param, ts) ← readParam stop ts
  let (_, ts) ← readSymbol stop .arrow .arrow ts
  let (body, ts) ← (Rules.ofBudget stop maxDepth).expr ts
  match ts with
  | [] => return ⟨param, body⟩
  | l :: _ => .error ⟨l.span.start, .trailing l.token⟩

/-- The lambda that a text spells, or why it spells none. -/
def parseLambda (source : List Char) : Except (List Issue) LambdaExpr :=
  match tokenize source with
  | .error issues => .error issues
  | .ok ts =>
    match readLambda (Text.byteLength source) ts with
    | .error issue => .error [issue]
    | .ok lambda => .ok lambda

end LambdaShell
