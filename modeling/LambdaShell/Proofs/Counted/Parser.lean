/-
Reading a lambda with a counter.

The readers of `Expr/Parser.lean` are given what is left of the tokens and of the budget, and
so they cannot lose count.  Here the same grammar is read by routines that share one state: how
many tokens have been read, and how deep the nesting is.  A routine that goes deeper adds one
and takes it off again, or remembers the depth it began with and goes back to it after a
chain; a routine that fails leaves the state as it is.

`Routines` holds the routines that are called one level deeper.  Each of them enters a level or
is called right behind one that was entered, so they need no more rounds than there are
levels.
-/
import LambdaShell.Expr.Parser

namespace LambdaShell.Counted

/-- What is kept while tokens are read. -/
structure State where
  /-- How many tokens have been read. -/
  position : Nat
  /-- How many levels have been entered and not left. -/
  depth : Nat
  /-- How deep the nesting was at each look at the tokens, the last one first. -/
  looks : List Nat

namespace State

/-- Nothing has been looked at. -/
def start (position depth : Nat) : State := ⟨position, depth, []⟩

/-- One more look at the tokens. -/
def look (s : State) : State := { s with looks := s.depth :: s.looks }

/-- Tokens are taken. -/
def skip (s : State) (n : Nat) : State := { s with position := s.position + n }

/-- A level is entered. -/
def deeper (s : State) : State := { s with depth := s.depth + 1 }

/-- The counter is set. -/
def setDepth (s : State) (depth : Nat) : State := { s with depth := depth }

end State

/-- A routine: what it reads or the issue it finds, and the state either way. -/
abbrev Routine (α : Type) := EStateM Issue State α

variable (ts : List Lexeme) (stop : Nat)

/-! ### Tokens -/

/-- The tokens that are left. -/
def left : Routine (List Lexeme) := fun s => .ok (ts.drop s.position) s.look

/-- Takes tokens that were looked at. -/
def skip (n : Nat) : Routine Unit := fun s => .ok () (s.skip n)

/-- Where the token ends that was taken last. -/
def State.prevEnd (s : State) : Nat :=
  match s.position with
  | 0 => 0
  | n + 1 => (ts[n]?.map (·.span.stop)).getD 0

/-- Where the token ends that was taken last. -/
def prevEnd : Routine Nat := fun s => .ok (s.prevEnd ts) s

/-- Takes a symbol, if it comes next. -/
def eat (symbol : Symbol) : Routine Bool := do
  match behind? symbol (← left ts) with
  | some _ =>
    skip 1
    return true
  | none => return false

/-- Takes a symbol that has to come next. -/
def expect (symbol : Symbol) (what : Wanted) : Routine Unit := do
  if ← eat ts symbol then return ()
  else throw (wanted stop what (← left ts))

/-- Takes a name that has to come next. -/
def ident (what : Wanted) : Routine String := do
  match ← left ts with
  | ⟨.name n, _⟩ :: _ =>
    skip 1
    return n
  | us => throw (wanted stop what us)

/-! ### The counter -/

/-- Enters a level.  Too many of them end the reading; the counter stays where it is then. -/
def enter : Routine Unit := fun s =>
  if s.deeper.depth ≤ maxDepth then .ok () s.deeper
  else .error ⟨nextOffset stop (ts.drop s.position), .tooDeep⟩ s.deeper

/-- Leaves a level. -/
def leave : Routine Unit := fun s => .ok () (s.setDepth (s.depth - 1))

/-- How deep the nesting is. -/
def depth : Routine Nat := fun s => .ok s.depth s

/-- Goes back to a depth. -/
def reset (base : Nat) : Routine Unit := fun s => .ok () (s.setDepth base)

/-! ### Routines -/

/-- The routines that call one another through a level. -/
structure Routines where
  /-- A whole expression; it enters a level itself. -/
  expr : Routine Expr
  /-- What stands behind `??`. -/
  coalesce : Routine Expr
  /-- An operand behind an operator of a level. -/
  level : List Tier → Routine Expr
  /-- The rest of a chain of operators that began at the depth that is given. -/
  chain : Tier → List Tier → Nat → Expr → Routine Expr
  /-- What stands behind an operator or a cast. -/
  unary : Routine Expr
  /-- The rest of a chain of members that began at the depth that is given. -/
  member : Nat → Expr → Routine Expr

/-- Routines that are never called.  What they report is no issue of a parser. -/
def uncalled : Routines :=
  let refuse : Routine Expr := throw ⟨0, .strayText ""⟩
  ⟨refuse, refuse, fun _ => refuse, fun _ _ _ _ => refuse, refuse, fun _ _ => refuse⟩

variable (R : Routines)

/-- Arguments behind the opening parenthesis, at most as many as the number says. -/
def argsUpTo : Nat → Routine (List Expr)
  | 0 => do throw (wanted stop .argumentEnd (← left ts))
  | n + 1 => do
    let e ← R.expr
    if ← eat ts .comma then
      let es ← argsUpTo n
      return e :: es
    else
      expect ts stop .closeParen .argumentEnd
      return [e]

/-- Call arguments, behind the opening parenthesis. -/
def args : Routine (List Expr) := do
  if ← eat ts .closeParen then return []
  else argsUpTo ts stop R ((← left ts).length + 1)

/-- A record member: `Name = expression`, or an expression that suggests its own name. -/
def recordMember : Routine (String × Expr) := do
  match ← left ts with
  | ⟨.name n, _⟩ :: ⟨.symbol .assign, _⟩ :: _ =>
    skip 2
    let e ← R.expr
    return (n, e)
  | us =>
    let e ← R.expr
    match e.impliedName? with
    | some n => return (n, e)
    | none => throw ⟨nextOffset stop us, .unnamedMember⟩

/-- Record members up to the closing brace, at most as many as the number says. -/
def membersUpTo : Nat → Routine (List (String × Expr))
  | 0 => do throw (wanted stop .recordEnd (← left ts))
  | n + 1 => do
    if ← eat ts .closeBrace then return []
    else
      let m ← recordMember ts stop R
      if ← eat ts .comma then
        let ms ← membersUpTo n
        return m :: ms
      else
        expect ts stop .closeBrace .recordEnd
        return [m]

/-- A record whose `new`, which begins at `start`, is already taken. -/
def record (start : Nat) : Routine Expr := do
  expect ts stop .openBrace .recordStart
  let members ← membersUpTo ts stop R ((← left ts).length + 1)
  let close ← prevEnd ts
  return .record ⟨start, close⟩ members

/-- A call of `Math`, behind the point. -/
def math (start : Nat) : Routine Expr := do
  let function ← ident ts stop .functionName
  expect ts stop .openParen .callStart
  let es ← args ts stop R
  let close ← prevEnd ts
  return .math ⟨start, close⟩ function es

/-- An expression in parentheses whose opening one, which begins at `start`, is taken. -/
def paren (start : Nat) : Routine Expr := do
  let e ← R.expr
  expect ts stop .closeParen .parenEnd
  let close ← prevEnd ts
  return e.withSpan ⟨start, close⟩

/-- Literals, names, calls of `Math`, parentheses and new records. -/
def primary : Routine Expr := do
  match ← left ts with
  | [] => throw (wanted stop .expression [])
  | l :: us =>
    skip 1
    match l.token.literal? with
    | some v => return .literal l.span v
    | none =>
      match l.token with
      | .name n =>
        if n == "Math" then
          if ← eat ts .dot then math ts stop R l.span.start
          else return .name l.span n
        else return .name l.span n
      | .symbol .openParen => paren ts stop R l.span.start
      | .keyword .new => record ts stop R l.span.start
      | _ => throw (wanted stop .expression (l :: us))

/-- The members accessed on an expression, if a point comes next. -/
def members (base : Nat) (e : Expr) : Routine Expr := do
  if ← eat ts .dot then
    enter ts stop
    R.member base e
  else
    reset base
    return e

/-- A member name behind a point, its arguments if it is called, and further members. -/
def member (base : Nat) (target : Expr) : Routine Expr := do
  let name ← ident ts stop .memberName
  if ← eat ts .openParen then
    let es ← args ts stop R
    let close ← prevEnd ts
    members ts stop R base (.method ⟨target.span.start, close⟩ target name es)
  else
    let close ← prevEnd ts
    members ts stop R base (.member ⟨target.span.start, close⟩ target name)

/-- A primary expression with its members. -/
def access : Routine Expr := do
  let base ← depth
  let e ← primary ts stop R
  members ts stop R base e

/-- How many tokens stand in front of an operand. -/
def width : Lead → Nat
  | .op _ => 1
  | .cast _ => 3

/-- An operand with what stands in front of it. -/
def unary : Routine Expr := do
  let us ← left ts
  match Lead.next? us with
  | some (lead, _) =>
    skip (width lead)
    enter ts stop
    let e ← R.unary
    leave
    return lead.apply ⟨nextOffset stop us, e.span.stop⟩ e
  | none => access ts stop R

/-- The rest of a chain of operators of one level. -/
def chain (tier : Tier) (tighter : List Tier) (base : Nat) (lhs : Expr) : Routine Expr := do
  match tier.next? (← left ts) with
  | some (op, _) =>
    skip 1
    enter ts stop
    let rhs ← R.level tighter
    R.chain tier tighter base (Rules.binary op lhs rhs)
  | none =>
    reset base
    return lhs

/-- An operand of the operators of the given levels. -/
def level : List Tier → Routine Expr
  | [] => unary ts stop R
  | tier :: tighter => do
    let base ← depth
    let lhs ← level tighter
    chain ts stop R tier tighter base lhs

/-- Operands of `??`, which groups to the right. -/
def coalesce : Routine Expr := do
  let lhs ← level ts stop R Tier.all
  if ← eat ts .coalesce then
    enter ts stop
    let rhs ← R.coalesce
    leave
    return Rules.binary .coalesce lhs rhs
  else return lhs

/-- The branches behind a test, if there are some. -/
def branches (test : Expr) : Routine Expr := do
  if ← eat ts .question then
    let yes ← R.expr
    expect ts stop .colon .branchColon
    let no ← R.expr
    return .conditional ⟨test.span.start, no.span.stop⟩ test yes no
  else return test

/-- A whole expression: a test with two branches, or what binds tighter. -/
def expr : Routine Expr := do
  enter ts stop
  let test ← coalesce ts stop R
  let e ← branches ts stop R test
  leave
  return e

/-- The routines that call the given ones. -/
def deepen : Routines where
  expr := expr ts stop R
  coalesce := coalesce ts stop R
  level := level ts stop R
  chain := chain ts stop R
  unary := unary ts stop R
  member := member ts stop R

/-- The routines, able to call one another so many times in a row. -/
def routines : Nat → Routines
  | 0 => uncalled
  | n + 1 => deepen ts stop (routines n)

end LambdaShell.Counted
