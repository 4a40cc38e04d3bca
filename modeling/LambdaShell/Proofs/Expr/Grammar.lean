/-
The grammar of lambdas.

`Derives` is the written grammar, one constructor for each alternative of each of its rules:
a phrase of some strength, the tokens it takes up from the first to the last, and the tree
they stand for.  Nothing in it looks ahead, counts levels or reads from left to right, so it
says what the readers of `Expr/Parser.lean` ought to accept and not how they go about it.

Two spellings would have two readings.  `(int)` is a cast and never a name in parentheses,
and `Math` in front of a point is the library and never a name; two side conditions say so
and leave each sentence one tree.
-/
import LambdaShell.Expr.Parser

namespace LambdaShell

/-! ### Operators and their levels -/

/-- How an operator is written. -/
def UnaryOp.symbol : UnaryOp → Symbol
  | .not => .bang
  | .neg => .minus
  | .plus => .plus

namespace BinaryOp

/-- How an operator is written. -/
def symbol : BinaryOp → Symbol
  | add => .plus
  | sub => .minus
  | mul => .star
  | div => .slash
  | rem => .percent
  | eq => .equals
  | notEq => .notEquals
  | lt => .less
  | atMost => .atMost
  | gt => .greater
  | atLeast => .atLeast
  | and => .both
  | or => .either
  | coalesce => .coalesce

/-- The level of an operator that groups to the left. -/
def tier? : BinaryOp → Option Tier
  | or => some .or
  | and => some .and
  | eq | notEq => some .equality
  | lt | atMost | gt | atLeast => some .relational
  | add | sub => some .additive
  | mul | div | rem => some .multiplicative
  | coalesce => none

end BinaryOp

/-! ### Phrases -/

/-- What a stretch of tokens can be read as, loosest first. -/
inductive Phrase where
  /-- A whole expression. -/
  | expr
  /-- Operands of `??`. -/
  | coalesce
  /-- Operands of the operators of one level. -/
  | tier (t : Tier)
  /-- An operand with operators and casts in front of it. -/
  | unary
  /-- A primary expression with members behind it. -/
  | access
  /-- A literal, a name, a call of `Math`, a record or an expression in parentheses. -/
  | primary
  deriving DecidableEq

namespace Tier

/-- What the operators of a level stand between. -/
def operand : Tier → Phrase
  | or => .tier and
  | and => .tier equality
  | equality => .tier relational
  | relational => .tier additive
  | additive => .tier multiplicative
  | multiplicative => .unary

/-- The levels that bind tighter, loosest first. -/
def tighter : Tier → List Tier
  | or => [and, equality, relational, additive, multiplicative]
  | and => [equality, relational, additive, multiplicative]
  | equality => [relational, additive, multiplicative]
  | relational => [additive, multiplicative]
  | additive => [multiplicative]
  | multiplicative => []

/-- What holds of operands with something in front, and passes from the operands of each
level to the level itself, holds of the operands of every level. -/
theorem operand_induction {P : Phrase → List Tier → Prop} (unary : P .unary [])
    (step : ∀ t : Tier, P t.operand t.tighter → P (.tier t) (t :: t.tighter)) :
    ∀ t : Tier, P t.operand t.tighter := by
  have hmultiplicative := step multiplicative unary
  have hadditive := step additive hmultiplicative
  have hrelational := step relational hadditive
  have hequality := step equality hrelational
  have hand := step and hequality
  intro t
  cases t with
  | or => exact hand
  | and => exact hequality
  | equality => exact hrelational
  | relational => exact hadditive
  | additive => exact hmultiplicative
  | multiplicative => exact unary

end Tier

mutual

/-- These tokens are a phrase of that kind, and this is its tree. -/
inductive Derives : Phrase → List Lexeme → Expr → Prop where
  /-- `test ? yes : no` -/
  | conditional {ts us vs : List Lexeme} {test yes no : Expr} {p q : Span}
      (htest : Derives .coalesce ts test) (hyes : Derives .expr us yes)
      (hno : Derives .expr vs no) :
      Derives .expr (ts ++ ⟨.symbol .question, p⟩ :: (us ++ ⟨.symbol .colon, q⟩ :: vs))
        (.conditional ⟨test.span.start, no.span.stop⟩ test yes no)
  | expr {ts : List Lexeme} {e : Expr} (h : Derives .coalesce ts e) : Derives .expr ts e
  /-- `lhs ?? rhs`, grouped to the right. -/
  | orElse {ts us : List Lexeme} {lhs rhs : Expr} {q : Span}
      (hlhs : Derives (.tier .or) ts lhs) (hrhs : Derives .coalesce us rhs) :
      Derives .coalesce (ts ++ ⟨.symbol .coalesce, q⟩ :: us) (Rules.binary .coalesce lhs rhs)
  | coalesce {ts : List Lexeme} {e : Expr} (h : Derives (.tier .or) ts e) :
      Derives .coalesce ts e
  /-- `lhs op rhs`, grouped to the left. -/
  | infixed {t : Tier} {op : BinaryOp} {ts us : List Lexeme} {lhs rhs : Expr} {q : Span}
      (hop : op.tier? = some t) (hlhs : Derives (.tier t) ts lhs)
      (hrhs : Derives t.operand us rhs) :
      Derives (.tier t) (ts ++ ⟨.symbol op.symbol, q⟩ :: us) (Rules.binary op lhs rhs)
  | operand {t : Tier} {ts : List Lexeme} {e : Expr} (h : Derives t.operand ts e) :
      Derives (.tier t) ts e
  /-- `op operand` -/
  | prefixed {op : UnaryOp} {ts : List Lexeme} {e : Expr} {p : Span}
      (h : Derives .unary ts e) :
      Derives .unary (⟨.symbol op.symbol, p⟩ :: ts) (.unary ⟨p.start, e.span.stop⟩ op e)
  /-- `(type)operand` -/
  | cast {n : String} {t : CastType} {ts : List Lexeme} {e : Expr} {p q r : Span}
      (ht : CastType.ofName? n = some t) (h : Derives .unary ts e) :
      Derives .unary
        (⟨.symbol .openParen, p⟩ :: ⟨.name n, q⟩ :: ⟨.symbol .closeParen, r⟩ :: ts)
        (.cast ⟨p.start, e.span.stop⟩ t e)
  | unary {ts : List Lexeme} {e : Expr} (h : Derives .access ts e) : Derives .unary ts e
  /-- `target.name` -/
  | member {n : String} {ts : List Lexeme} {target : Expr} {d q : Span}
      (h : Derives .access ts target) (hmath : ∀ s, ts ≠ [⟨.name "Math", s⟩]) :
      Derives .access (ts ++ [⟨.symbol .dot, d⟩, ⟨.name n, q⟩])
        (.member ⟨target.span.start, q.stop⟩ target n)
  /-- `target.name(args)` -/
  | method {n : String} {ts us : List Lexeme} {target : Expr} {args : List Expr}
      {d q p r : Span} (h : Derives .access ts target) (hmath : ∀ s, ts ≠ [⟨.name "Math", s⟩])
      (hargs : DerivesArgs us args) :
      Derives .access
        (ts ++ ⟨.symbol .dot, d⟩ :: ⟨.name n, q⟩ :: ⟨.symbol .openParen, p⟩ ::
          (us ++ [⟨.symbol .closeParen, r⟩]))
        (.method ⟨target.span.start, r.stop⟩ target n args)
  | access {ts : List Lexeme} {e : Expr} (h : Derives .primary ts e) : Derives .access ts e
  | literal {t : Token} {v : Value} {s : Span} (hv : t.literal? = some v) :
      Derives .primary [⟨t, s⟩] (.literal s v)
  | name {n : String} {s : Span} : Derives .primary [⟨.name n, s⟩] (.name s n)
  /-- `(expr)`, which widens the span and leaves no node. -/
  | paren {ts : List Lexeme} {e : Expr} {p q : Span} (h : Derives .expr ts e)
      (hcast : ∀ n s, ts = [⟨.name n, s⟩] → CastType.ofName? n = none) :
      Derives .primary (⟨.symbol .openParen, p⟩ :: (ts ++ [⟨.symbol .closeParen, q⟩]))
        (e.withSpan ⟨p.start, q.stop⟩)
  /-- `new { members }` -/
  | record {ts : List Lexeme} {members : List (String × Expr)} {s p q : Span}
      (h : DerivesMembers ts members) :
      Derives .primary
        (⟨.keyword .new, s⟩ :: ⟨.symbol .openBrace, p⟩ :: (ts ++ [⟨.symbol .closeBrace, q⟩]))
        (.record ⟨s.start, q.stop⟩ members)
  /-- `Math.function(args)` -/
  | math {f : String} {ts : List Lexeme} {args : List Expr} {s d q p r : Span}
      (h : DerivesArgs ts args) :
      Derives .primary
        (⟨.name "Math", s⟩ :: ⟨.symbol .dot, d⟩ :: ⟨.name f, q⟩ :: ⟨.symbol .openParen, p⟩ ::
          (ts ++ [⟨.symbol .closeParen, r⟩]))
        (.math ⟨s.start, r.stop⟩ f args)

/-- Arguments divided by commas, or none. -/
inductive DerivesArgs : List Lexeme → List Expr → Prop where
  | none : DerivesArgs [] []
  | one {ts : List Lexeme} {e : Expr} (h : Derives .expr ts e) : DerivesArgs ts [e]
  | more {ts us : List Lexeme} {e d : Expr} {es : List Expr} {q : Span}
      (h : Derives .expr ts e) (hmore : DerivesArgs us (d :: es)) :
      DerivesArgs (ts ++ ⟨.symbol .comma, q⟩ :: us) (e :: d :: es)

/-- A record member: `name = expr`, or an expression that suggests its name. -/
inductive DerivesMember : List Lexeme → String × Expr → Prop where
  | named {n : String} {ts : List Lexeme} {e : Expr} {p q : Span} (h : Derives .expr ts e) :
      DerivesMember (⟨.name n, p⟩ :: ⟨.symbol .assign, q⟩ :: ts) (n, e)
  | suggested {n : String} {ts : List Lexeme} {e : Expr} (h : Derives .expr ts e)
      (hn : e.impliedName? = some n) : DerivesMember ts (n, e)

/-- Record members divided by commas; one more comma may end them. -/
inductive DerivesMembers : List Lexeme → List (String × Expr) → Prop where
  | none : DerivesMembers [] []
  | last {ts : List Lexeme} {m : String × Expr} (h : DerivesMember ts m) :
      DerivesMembers ts [m]
  | more {ts us : List Lexeme} {m : String × Expr} {ms : List (String × Expr)} {q : Span}
      (h : DerivesMember ts m) (hmore : DerivesMembers us ms) :
      DerivesMembers (ts ++ ⟨.symbol .comma, q⟩ :: us) (m :: ms)

end

/-- A parameter, bare or in parentheses. -/
inductive DerivesParam : List Lexeme → String → Prop where
  | bare {n : String} {q : Span} : DerivesParam [⟨.name n, q⟩] n
  | paren {n : String} {p q r : Span} :
      DerivesParam
        [⟨.symbol .openParen, p⟩, ⟨.name n, q⟩, ⟨.symbol .closeParen, r⟩] n

/-- These tokens, all of them, are that lambda: `param => expr`. -/
inductive Sentence : List Lexeme → LambdaExpr → Prop where
  | lambda {ps ts : List Lexeme} {param : String} {body : Expr} {a : Span}
      (hparam : DerivesParam ps param) (hbody : Derives .expr ts body) :
      Sentence (ps ++ ⟨.symbol .arrow, a⟩ :: ts) ⟨param, body⟩

/-! ### How tightly a phrase holds together -/

/-- How tightly the operators of a level hold on to their operands. -/
def Tier.strength : Tier → Nat
  | or => 3
  | and => 4
  | equality => 5
  | relational => 6
  | additive => 7
  | multiplicative => 8

/-- How tightly a phrase holds together. -/
def Phrase.strength : Phrase → Nat
  | expr => 1
  | coalesce => 2
  | tier t => t.strength
  | unary => 9
  | access => 10
  | primary => 11

theorem Tier.strength_operand (t : Tier) : t.operand.strength = t.strength + 1 := by
  cases t <;> rfl

/-- A phrase is also the next looser one. -/
theorem Derives.loosen {q : Phrase} {ts : List Lexeme} {e : Expr} (h : Derives q ts e)
    (hq : q ≠ .expr) : ∃ p : Phrase, p.strength + 1 = q.strength ∧ Derives p ts e := by
  cases q with
  | expr => exact absurd rfl hq
  | coalesce => exact ⟨.expr, rfl, .expr h⟩
  | tier t =>
      cases t with
      | or => exact ⟨.coalesce, rfl, .coalesce h⟩
      | and => exact ⟨.tier .or, rfl, .operand h⟩
      | equality => exact ⟨.tier .and, rfl, .operand h⟩
      | relational => exact ⟨.tier .equality, rfl, .operand h⟩
      | additive => exact ⟨.tier .relational, rfl, .operand h⟩
      | multiplicative => exact ⟨.tier .additive, rfl, .operand h⟩
  | unary => exact ⟨.tier .multiplicative, rfl, .operand h⟩
  | access => exact ⟨.unary, rfl, .unary h⟩
  | primary => exact ⟨.access, rfl, .access h⟩

theorem Phrase.eq_of_strength {p q : Phrase} (h : p.strength = q.strength) : p = q := by
  cases p with
  | tier s =>
      cases q with
      | tier t => cases s <;> cases t <;> first | rfl | cases h
      | _ => cases s <;> cases h
  | _ =>
      cases q with
      | tier t => cases t <;> cases h
      | _ => first | rfl | cases h

theorem Phrase.strength_pos (p : Phrase) : 0 < p.strength := by
  cases p with
  | tier t => cases t <;> decide
  | _ => decide

theorem Phrase.strength_le (p : Phrase) : p.strength ≤ 11 := by
  cases p with
  | tier t => cases t <;> decide
  | _ => decide

/-- A phrase is also any looser one. -/
theorem Derives.weaken {p q : Phrase} {ts : List Lexeme} {e : Expr} (h : Derives q ts e)
    (hpq : p.strength ≤ q.strength) : Derives p ts e := by
  obtain ⟨k, hk⟩ := Nat.exists_eq_add_of_le hpq
  induction k generalizing q with
  | zero =>
      obtain rfl := Phrase.eq_of_strength hk
      exact h
  | succ k ih =>
      have hpos := p.strength_pos
      have hq : q ≠ .expr := by
        rintro rfl
        have hone : Phrase.expr.strength = 1 := rfl
        omega
      obtain ⟨r, hr, hd⟩ := h.loosen hq
      exact ih hd (by omega) (by omega)

end LambdaShell
