/-
What the grammar allows, the readers accept.

A reader stops as soon as the next token does not go on with the phrase it is reading, so
a phrase is read to its end only in front of a token that holds on to it less tightly than
it holds together itself.  `binding` measures the first and `Phrase.strength` the second.

Every level of the budget that a reader spends is spent on a token, and `cost` counts the
tokens that can make it spend one.  A budget of `cost` is more than enough for a phrase,
since neighbouring parts do not add up, but it is a bound that can be read off the tokens.

The chains are the difficult part: they group to the left, so the grammar sees the last
operator first, while the reader has the whole chain in front of that operator behind it
and has spent a level on each link.  What is shown of a chain is therefore not that it is
read but that reading it amounts to going on behind it with a smaller budget.
-/
import LambdaShell.Proofs.Expr.Soundness

namespace LambdaShell

variable {stop : Nat}

/-! ### What a token holds on to -/

/-- How tightly a symbol holds on to the phrase in front of it, 0 if it does not. -/
def Symbol.binding : Symbol → Nat
  | .question => 1
  | .coalesce => 2
  | .either => 3
  | .both => 4
  | .equals | .notEquals => 5
  | .less | .atMost | .greater | .atLeast => 6
  | .plus | .minus => 7
  | .star | .slash | .percent => 8
  | .dot => 10
  | .openParen => 11
  | _ => 0

/-- How tightly the next token holds on to what is in front of it. -/
def binding : List Lexeme → Nat
  | ⟨.symbol s, _⟩ :: _ => s.binding
  | _ => 0

theorem BinaryOp.binding_symbol {op : BinaryOp} {t : Tier} (h : op.tier? = some t) :
    op.symbol.binding = t.strength := by
  cases op <;> cases h <;> rfl

theorem Tier.opOf?_symbol {op : BinaryOp} {t : Tier} (h : op.tier? = some t) :
    t.opOf? op.symbol = some op := by
  cases op <;> cases h <;> rfl

theorem UnaryOp.ofSymbol?_symbol (op : UnaryOp) : ofSymbol? op.symbol = some op := by
  cases op <;> rfl

theorem ne_cons_of_binding {s : Symbol} {ts : List Lexeme} (h : binding ts < s.binding)
    (q : Span) (us : List Lexeme) : ts ≠ ⟨.symbol s, q⟩ :: us := by
  rintro rfl
  exact Nat.lt_irrefl _ h

theorem Tier.next?_eq_none {t : Tier} {ts : List Lexeme} (h : binding ts < t.strength) :
    t.next? ts = none := by
  refine Option.eq_none_iff_forall_ne_some.mpr ?_
  rintro ⟨op, rest⟩ hnext
  obtain ⟨s, q, rfl, hop⟩ := Tier.next?_eq_some.mp hnext
  obtain ⟨htier, rfl⟩ := Tier.opOf?_eq_some hop
  have hbinding := BinaryOp.binding_symbol htier
  have hnext : binding (⟨.symbol op.symbol, q⟩ :: rest) = op.symbol.binding := rfl
  omega

/-! ### What tokens cost -/

/-- The levels that a token can make a reader spend. -/
def Token.cost : Token → Nat
  | .symbol .arrow | .symbol .assign | .symbol .colon | .symbol .comma
  | .symbol .closeParen | .symbol .closeBrace => 0
  | .symbol _ => 1
  | _ => 0

/-- The levels that tokens can make a reader spend, all taken together. -/
def tokenCost : List Token → Nat
  | [] => 0
  | t :: ts => t.cost + tokenCost ts

@[simp] theorem tokenCost_nil : tokenCost [] = 0 := rfl

@[simp] theorem tokenCost_cons (t : Token) (ts : List Token) :
    tokenCost (t :: ts) = t.cost + tokenCost ts := rfl

@[simp] theorem tokenCost_append (ts us : List Token) :
    tokenCost (ts ++ us) = tokenCost ts + tokenCost us := by
  induction ts with
  | nil => exact (Nat.zero_add _).symm
  | cons t ts ih => rw [List.cons_append, tokenCost_cons, tokenCost_cons, ih, Nat.add_assoc]

/-- What tokens cost wherever they stand. -/
def cost (ts : List Lexeme) : Nat := tokenCost (ts.map (·.token))

@[simp] theorem cost_nil : cost [] = 0 := rfl

@[simp] theorem cost_cons (l : Lexeme) (ts : List Lexeme) :
    cost (l :: ts) = l.token.cost + cost ts := rfl

@[simp] theorem cost_append (ts us : List Lexeme) : cost (ts ++ us) = cost ts + cost us := by
  rw [cost, List.map_append, tokenCost_append, cost, cost]

theorem BinaryOp.cost_symbol (op : BinaryOp) : (Token.symbol op.symbol).cost = 1 := by
  cases op <;> rfl

theorem UnaryOp.cost_symbol (op : UnaryOp) : (Token.symbol op.symbol).cost = 1 := by
  cases op <;> rfl

/-! ### How phrases begin

No phrase begins with a closing symbol, and none with a name that `)` or `=` follows.  So
a phrase is never mistaken for the end of a list, for a cast or for a named member. -/

/-- The tokens begin like a phrase. -/
inductive Opens : List Lexeme → Prop where
  | name {n : String} {s : Span} {us : List Lexeme}
      (h : ∀ q vs, us ≠ ⟨.symbol .closeParen, q⟩ :: vs ∧ us ≠ ⟨.symbol .assign, q⟩ :: vs) :
      Opens (⟨.name n, s⟩ :: us)
  | other {l : Lexeme} {us : List Lexeme} (hname : ∀ n, l.token ≠ .name n)
      (hparen : l.token ≠ .symbol .closeParen) (hbrace : l.token ≠ .symbol .closeBrace) :
      Opens (l :: us)

theorem Opens.append {ts us : List Lexeme} {s : Symbol} {q : Span} (h : Opens ts)
    (hparen : s ≠ .closeParen) (hassign : s ≠ .assign) :
    Opens (ts ++ ⟨.symbol s, q⟩ :: us) := by
  cases h with
  | @name n p vs h =>
      refine .name fun r ws => ?_
      cases vs with
      | nil =>
          constructor
          · intro heq
            cases heq
            exact hparen rfl
          · intro heq
            cases heq
            exact hassign rfl
      | cons l vs =>
          constructor
          · intro heq
            cases heq
            exact (h r vs).1 rfl
          · intro heq
            cases heq
            exact (h r vs).2 rfl
  | other hname hparen hbrace => exact .other hname hparen hbrace

theorem BinaryOp.symbol_ne (op : BinaryOp) : op.symbol ≠ .closeParen ∧ op.symbol ≠ .assign := by
  cases op <;> exact ⟨nofun, nofun⟩

theorem Derives.opens {p : Phrase} {ts : List Lexeme} {e : Expr} :
    Derives p ts e → Opens ts
  | .conditional htest _ _ => htest.opens.append nofun nofun
  | .expr h => h.opens
  | .orElse hlhs _ => hlhs.opens.append nofun nofun
  | .coalesce h => h.opens
  | @Derives.infixed _ op _ _ _ _ _ _ hlhs _ => hlhs.opens.append op.symbol_ne.1 op.symbol_ne.2
  | .operand h => h.opens
  | @Derives.prefixed op _ _ _ _ => .other nofun (by cases op <;> nofun) (by cases op <;> nofun)
  | .cast _ _ => .other nofun nofun nofun
  | .unary h => h.opens
  | .member h _ => h.opens.append nofun nofun
  | .method h _ _ => h.opens.append nofun nofun
  | .access h => h.opens
  | .literal hv => .other (by rintro n rfl; cases hv) (by rintro rfl; cases hv)
      (by rintro rfl; cases hv)
  | .name => .name fun _ _ => ⟨nofun, nofun⟩
  | .paren _ _ => .other nofun nofun nofun
  | .record _ => .other nofun nofun nofun
  | .math _ => .name fun _ _ => ⟨nofun, nofun⟩

theorem Opens.not_closes {ts us rest : List Lexeme} {s : Symbol} {q : Span} (h : Opens ts)
    (hs : s = .closeParen ∨ s = .closeBrace) : ts ++ rest ≠ ⟨.symbol s, q⟩ :: us := by
  intro heq
  cases h with
  | name h => cases heq
  | other _ hparen hbrace =>
      obtain ⟨rfl, -⟩ := List.cons.inj heq
      rcases hs with rfl | rfl
      · exact hparen rfl
      · exact hbrace rfl

theorem Opens.not_startsNamed {ts : List Lexeme} (h : Opens ts) : ¬ StartsNamed ts := by
  rintro ⟨n, p, q, us, rfl⟩
  cases h with
  | name h => exact (h q us).2 rfl
  | other hname _ _ => exact hname n rfl

/-- A type in parentheses is a cast, anything else between them is not. -/
theorem Opens.not_cast {ts us rest : List Lexeme} {n : String} {p q r : Span} {t : CastType}
    (h : Opens ts) (hcast : ∀ n s, ts = [⟨.name n, s⟩] → CastType.ofName? n = none)
    (heq : ts ++ ⟨.symbol .closeParen, p⟩ :: rest =
      ⟨.name n, q⟩ :: ⟨.symbol .closeParen, r⟩ :: us) :
    CastType.ofName? n ≠ some t := by
  cases ts with
  | nil => cases h
  | cons l vs =>
      obtain ⟨rfl, hvs⟩ := List.cons.inj heq
      cases vs with
      | nil =>
          rw [hcast n q rfl]
          exact nofun
      | cons l vs =>
          obtain ⟨rfl, -⟩ := List.cons.inj hvs
          cases h with
          | name h => exact absurd rfl (h r vs).1
          | other hname _ _ => exact absurd rfl (hname n)

/-! ### What it is to be read -/

/-- What holds on less tightly ends the phrase.  A phrase that may begin with one of its own
kind ends where not even a greater one goes on. -/
def Phrase.reach : Phrase → Nat
  | tier t => t.strength + 1
  | access => 11
  | p => p.strength

/-- The phrase can be read to its end in front of these tokens. -/
structure Phrase.EndsBefore (p : Phrase) (ts rest : List Lexeme) : Prop where
  loose : binding rest < p.reach
  math : IsMath ts → binding rest < Symbol.dot.binding

open Rules in
/-- With a budget of `n`, the phrase in front of `rest` is read.  A phrase that may be the
beginning of another of its kind is read as a part of that one: with what is left of the
budget, the reader goes on behind it. -/
def Phrase.IsRead (stop n : Nat) (ts : List Lexeme) (e : Expr) (rest : List Lexeme) :
    Phrase → Prop
  | expr => exprAt stop (ofBudget stop n) (ts ++ rest) = .ok (e, rest)
  | coalesce => coalesceAt stop (ofBudget stop n) (ts ++ rest) = .ok (e, rest)
  | tier t => ∃ m, n ≤ m + cost ts ∧
      levelAt stop (ofBudget stop n) (t :: t.tighter) (ts ++ rest)
        = chainAt (ofBudget stop m) t t.tighter e rest
  | unary => unaryAt stop (ofBudget stop n) (ts ++ rest) = .ok (e, rest)
  | access => Lead.next? (ts ++ rest) = none ∧ ∃ m d us, n ≤ m + cost ts ∧
      primaryAt stop (ofBudget stop n) (ts ++ rest) = .ok (d, us) ∧
      membersAt (ofBudget stop n) d us = membersAt (ofBudget stop m) e rest
  | primary => Lead.next? (ts ++ rest) = none ∧
      primaryAt stop (ofBudget stop n) (ts ++ rest) = .ok (e, rest)

/-- The phrase is read wherever it can be, with any budget that covers its cost. -/
def Phrase.Complete (stop : Nat) (p : Phrase) (ts : List Lexeme) (e : Expr) : Prop :=
  ∀ ⦃n : Nat⦄ (rest : List Lexeme), cost ts ≤ n → p.EndsBefore ts rest →
    p.IsRead stop n ts e rest

/-- Only a phrase that ends in front of a point has to be told from the library. -/
theorem Phrase.EndsBefore.of_binding {p : Phrase} {ts rest : List Lexeme}
    (h : binding rest < p.reach) (hp : p.reach ≤ Symbol.dot.binding) : p.EndsBefore ts rest :=
  ⟨h, fun _ => Nat.lt_of_lt_of_le h hp⟩

namespace Phrase.Complete

open Rules

variable {ts us vs : List Lexeme} {e : Expr} {n : Nat}

/-! ### Using what is read -/

theorem expr_eq (h : Complete stop .expr ts e) (rest : List Lexeme) (hn : cost ts < n)
    (hrest : binding rest = 0) :
    (ofBudget stop n).expr (ts ++ rest) = .ok (e, rest) := by
  obtain ⟨m, rfl⟩ := Nat.exists_eq_add_of_lt hn
  exact h rest (Nat.le_add_right _ _) (.of_binding (by rw [hrest]; decide) (by decide))

theorem coalesce_eq (h : Complete stop .coalesce ts e) (rest : List Lexeme) (hn : cost ts < n)
    (hrest : binding rest < 2) : (ofBudget stop n).coalesce (ts ++ rest) = .ok (e, rest) := by
  obtain ⟨m, rfl⟩ := Nat.exists_eq_add_of_lt hn
  exact h rest (Nat.le_add_right _ _) (.of_binding hrest (by decide))

theorem unary_eq (h : Complete stop .unary ts e) (rest : List Lexeme) (hn : cost ts < n)
    (hrest : binding rest < 9) :
    (ofBudget stop n).unary (ts ++ rest) = .ok (e, rest) := by
  obtain ⟨m, rfl⟩ := Nat.exists_eq_add_of_lt hn
  exact h rest (Nat.le_add_right _ _) (.of_binding hrest (by decide))

/-- A chain in front of what does not continue it is read to its end. -/
theorem tier_eq {t : Tier} (h : Complete stop (.tier t) ts e) (rest : List Lexeme)
    (hn : cost ts ≤ n) (hrest : binding rest < t.strength) :
    levelAt stop (ofBudget stop n) (t :: t.tighter) (ts ++ rest) = .ok (e, rest) := by
  have hreach : (Phrase.tier t).reach ≤ Symbol.dot.binding := by cases t <;> decide
  obtain ⟨m, -, hread⟩ := h rest hn (.of_binding (Nat.lt_succ_of_lt hrest) hreach)
  rw [hread]
  exact chainAt_eq_ok.mpr (Or.inr ⟨Tier.next?_eq_none hrest, rfl, rfl⟩)

theorem operand_eq {t : Tier} (h : Complete stop t.operand ts e) (rest : List Lexeme)
    (hn : cost ts ≤ n) (hrest : binding rest ≤ t.strength) :
    levelAt stop (ofBudget stop n) t.tighter (ts ++ rest) = .ok (e, rest) := by
  have hlt : binding rest < t.operand.strength := by
    rw [Tier.strength_operand]
    exact Nat.lt_succ_of_le hrest
  cases t with
  | multiplicative => exact h rest hn (.of_binding hlt (by decide))
  | _ => exact tier_eq h rest hn hlt

/-! ### Operators -/

theorem conditional {test yes no : Expr} {p q : Span} (htest : Complete stop .coalesce ts test)
    (hyes : Complete stop .expr us yes) (hno : Complete stop .expr vs no) :
    Complete stop .expr (ts ++ ⟨.symbol .question, p⟩ :: (us ++ ⟨.symbol .colon, q⟩ :: vs))
      (.conditional ⟨test.span.start, no.span.stop⟩ test yes no) := by
  intro n rest hn hrest
  simp only [cost_append, cost_cons, Token.cost] at hn
  have hloose : binding rest = 0 := Nat.lt_one_iff.mp hrest.loose
  have hfirst := htest (⟨.symbol .question, p⟩ :: (us ++ ⟨.symbol .colon, q⟩ ::
    (vs ++ rest))) (show cost ts ≤ n by omega) (.of_binding (show 1 < 2 by decide) (by decide))
  refine exprAt_eq_ok.mpr ⟨test, _, ?_, Or.inl ⟨p, us ++ ⟨.symbol .colon, q⟩ :: (vs ++ rest),
    yes, q, vs ++ rest, no, rfl, ?_, ?_, rfl⟩⟩
  · simpa using! hfirst
  · exact hyes.expr_eq _ (by omega) rfl
  · exact hno.expr_eq _ (by omega) hloose

theorem expr (h : Complete stop .coalesce ts e) : Complete stop .expr ts e := by
  intro n rest hn hrest
  have hloose : binding rest = 0 := Nat.lt_one_iff.mp hrest.loose
  have hread := h rest hn (.of_binding (by rw [hloose]; decide) (by decide))
  refine exprAt_eq_ok.mpr ⟨e, rest, hread, Or.inr ⟨?_, rfl, rfl⟩⟩
  exact ne_cons_of_binding (by rw [hloose]; decide)

theorem orElse {lhs rhs : Expr} {q : Span} (hlhs : Complete stop (.tier .or) ts lhs)
    (hrhs : Complete stop .coalesce us rhs) :
    Complete stop .coalesce (ts ++ ⟨.symbol .coalesce, q⟩ :: us)
      (Rules.binary .coalesce lhs rhs) := by
  intro n rest hn hrest
  simp only [cost_append, cost_cons, Token.cost] at hn
  have hfirst := hlhs.tier_eq (⟨.symbol .coalesce, q⟩ :: (us ++ rest))
    (show cost ts ≤ n by omega) (show 2 < 3 by decide)
  refine coalesceAt_eq_ok.mpr ⟨lhs, _, ?_, Or.inl ⟨q, us ++ rest, rhs, rfl, ?_, rfl⟩⟩
  · simpa using! hfirst
  · exact hrhs.coalesce_eq _ (by omega) hrest.loose

theorem coalesce (h : Complete stop (.tier .or) ts e) : Complete stop .coalesce ts e := by
  intro n rest hn hrest
  have hread := h.tier_eq rest hn (Nat.lt_succ_of_lt hrest.loose)
  refine coalesceAt_eq_ok.mpr ⟨e, rest, hread, Or.inr ⟨?_, rfl, rfl⟩⟩
  exact ne_cons_of_binding hrest.loose

/-- The chain in front of the last operator is read first; the reader then has a level less
for each of its links, which the tokens of the chain have paid for. -/
theorem infixed {t : Tier} {op : BinaryOp} {lhs rhs : Expr} {q : Span}
    (hop : op.tier? = some t) (hlhs : Complete stop (.tier t) ts lhs)
    (hrhs : Complete stop t.operand us rhs) :
    Complete stop (.tier t) (ts ++ ⟨.symbol op.symbol, q⟩ :: us) (Rules.binary op lhs rhs) := by
  intro n rest hn hrest
  simp only [cost_append, cost_cons, BinaryOp.cost_symbol] at hn
  have hbinding := BinaryOp.binding_symbol hop
  have hreach : (Phrase.tier t).reach ≤ Symbol.dot.binding := by cases t <;> decide
  obtain ⟨m, hm, hread⟩ := hlhs (⟨.symbol op.symbol, q⟩ :: (us ++ rest))
    (show cost ts ≤ n by omega) (.of_binding (Nat.lt_succ_of_le (Nat.le_of_eq hbinding)) hreach)
  obtain ⟨k, rfl⟩ : ∃ k, m = k + 1 := ⟨m - 1, by omega⟩
  have hright := hrhs.operand_eq (n := k) rest (by omega) (Nat.le_of_lt_succ hrest.loose)
  refine ⟨k, by simp only [cost_append, cost_cons, BinaryOp.cost_symbol]; omega, ?_⟩
  rw [List.append_assoc, List.cons_append, hread]
  have hnext : t.next? (⟨.symbol op.symbol, q⟩ :: (us ++ rest)) = some (op, us ++ rest) :=
    Tier.next?_eq_some.mpr ⟨_, q, rfl, Tier.opOf?_symbol hop⟩
  rw [chainAt, hnext]
  show (levelAt stop (ofBudget stop k) t.tighter (us ++ rest) >>= _) = _
  rw [hright]
  rfl

theorem operand {t : Tier} (h : Complete stop t.operand ts e) : Complete stop (.tier t) ts e := by
  intro n rest hn hrest
  refine ⟨n, Nat.le_add_right _ _, ?_⟩
  show (levelAt stop (ofBudget stop n) t.tighter (ts ++ rest) >>= _) = _
  rw [h.operand_eq rest hn (Nat.le_of_lt_succ hrest.loose)]
  rfl

theorem prefixed {op : UnaryOp} {p : Span} (h : Complete stop .unary ts e) :
    Complete stop .unary (⟨.symbol op.symbol, p⟩ :: ts) (.unary ⟨p.start, e.span.stop⟩ op e) := by
  intro n rest hn hrest
  simp only [cost_cons, UnaryOp.cost_symbol] at hn
  have hlead : Lead.next? (⟨.symbol op.symbol, p⟩ :: (ts ++ rest)) = some (.op op, ts ++ rest) :=
    Lead.next?_eq_some.mpr (Or.inl ⟨_, p, op, rfl, UnaryOp.ofSymbol?_symbol op, rfl⟩)
  exact unaryAt_eq_ok.mpr (Or.inl ⟨_, _, e, hlead, h.unary_eq _ (by omega) hrest.loose, rfl⟩)

theorem cast {k : String} {t : CastType} {p q r : Span} (ht : CastType.ofName? k = some t)
    (h : Complete stop .unary ts e) :
    Complete stop .unary
      (⟨.symbol .openParen, p⟩ :: ⟨.name k, q⟩ :: ⟨.symbol .closeParen, r⟩ :: ts)
      (.cast ⟨p.start, e.span.stop⟩ t e) := by
  intro n rest hn hrest
  simp only [cost_cons, Token.cost] at hn
  have hlead : Lead.next? (⟨.symbol .openParen, p⟩ :: ⟨.name k, q⟩ ::
      ⟨.symbol .closeParen, r⟩ :: (ts ++ rest)) = some (.cast t, ts ++ rest) :=
    Lead.next?_eq_some.mpr (Or.inr ⟨p, k, q, r, t, rfl, ht, rfl⟩)
  exact unaryAt_eq_ok.mpr (Or.inl ⟨_, _, e, hlead, h.unary_eq _ (by omega) hrest.loose, rfl⟩)

/-! ### Members -/

theorem unary (h : Complete stop .access ts e) : Complete stop .unary ts e := by
  intro n rest hn hrest
  have hdot : binding rest < Symbol.dot.binding := Nat.lt_succ_of_lt hrest.loose
  obtain ⟨hlead, m, d, us, -, hprimary, hmembers⟩ :=
    h rest hn ⟨Nat.lt_succ_of_lt hdot, fun _ => hdot⟩
  refine unaryAt_eq_ok.mpr (Or.inr ⟨hlead, d, us, hprimary, ?_⟩)
  rw [hmembers]
  exact membersAt_eq_ok.mpr (Or.inr ⟨ne_cons_of_binding hdot, rfl, rfl⟩)

theorem access (h : Complete stop .primary ts e) : Complete stop .access ts e := by
  intro n rest hn hrest
  obtain ⟨hlead, hprimary⟩ := h rest hn ⟨hrest.loose, hrest.math⟩
  exact ⟨hlead, n, e, rest, Nat.le_add_right _ _, hprimary, rfl⟩

/-- Behind a target that is not the library, a point goes on with the reading. -/
theorem member_step {target : Expr} {d : Span} (h : Complete stop .access ts target)
    (rest : List Lexeme) (hmath : ∀ s, ts ≠ [⟨.name "Math", s⟩]) (hn : cost ts < n) :
    Lead.next? (ts ++ ⟨.symbol .dot, d⟩ :: rest) = none ∧ ∃ m a us, n ≤ m + 1 + cost ts ∧
      primaryAt stop (ofBudget stop n) (ts ++ ⟨.symbol .dot, d⟩ :: rest) = .ok (a, us) ∧
      membersAt (ofBudget stop n) a us = memberAt stop (ofBudget stop m) target rest := by
  obtain ⟨hlead, m, a, us, hm, hprimary, hmembers⟩ :=
    h (⟨.symbol .dot, d⟩ :: rest) (Nat.le_of_lt hn)
      ⟨show 10 < 11 by decide, fun ⟨s, hs⟩ => absurd hs (hmath s)⟩
  obtain ⟨k, rfl⟩ : ∃ k, m = k + 1 := ⟨m - 1, by omega⟩
  exact ⟨hlead, k, a, us, hm, hprimary, hmembers⟩

theorem member {k : String} {target : Expr} {d q : Span} (h : Complete stop .access ts target)
    (hmath : ∀ s, ts ≠ [⟨.name "Math", s⟩]) :
    Complete stop .access (ts ++ [⟨.symbol .dot, d⟩, ⟨.name k, q⟩])
      (.member ⟨target.span.start, q.stop⟩ target k) := by
  intro n rest hn hrest
  simp only [cost_append, cost_cons, cost_nil, Token.cost] at hn
  obtain ⟨hlead, m, a, us, hm, hprimary, hmembers⟩ :=
    h.member_step (d := d) (⟨.name k, q⟩ :: rest) hmath (show cost ts < n by omega)
  have hcall : behind? .openParen rest = none := by
    refine behind?_eq_none.mpr ?_
    rintro p vs rfl
    exact Nat.lt_irrefl 11 hrest.loose
  have hread : memberAt stop (ofBudget stop m) target (⟨.name k, q⟩ :: rest)
      = membersAt (ofBudget stop m) (.member ⟨target.span.start, q.stop⟩ target k) rest := by
    unfold memberAt
    rw [readName_eq_ok.mpr ⟨q, rfl, rfl⟩]
    dsimp only [bind, Except.bind]
    rw [hcall]
  refine ⟨by simpa using hlead, m, a, us, ?_, by simpa using hprimary, hmembers.trans hread⟩
  simp only [cost_append, cost_cons, cost_nil, Token.cost]
  omega

theorem literal {t : Token} {v : Value} {s : Span} (hv : t.literal? = some v) :
    Complete stop .primary [⟨t, s⟩] (.literal s v) := by
  intro n rest _ _
  have hlead : Lead.next? (⟨t, s⟩ :: rest) = none := by
    cases t with
    | symbol s => cases hv
    | _ => rfl
  exact ⟨hlead, primaryAt_eq_ok.mpr (.literal hv)⟩

theorem name {k : String} {s : Span} : Complete stop .primary [⟨.name k, s⟩] (.name s k) := by
  intro n rest _ hrest
  refine ⟨rfl, primaryAt_eq_ok.mpr (.name ?_)⟩
  rintro rfl
  exact ne_cons_of_binding (hrest.math ⟨s, rfl⟩)

theorem paren {p q : Span} (h : Complete stop .expr ts e) (hopens : Opens ts)
    (hcast : ∀ n s, ts = [⟨.name n, s⟩] → CastType.ofName? n = none) :
    Complete stop .primary (⟨.symbol .openParen, p⟩ :: (ts ++ [⟨.symbol .closeParen, q⟩]))
      (e.withSpan ⟨p.start, q.stop⟩) := by
  intro n rest hn _
  simp only [cost_append, cost_cons, Token.cost] at hn
  have hread := h.expr_eq (⟨.symbol .closeParen, q⟩ :: rest) (show cost ts < n by omega) rfl
  have hlead : Lead.next? (⟨.symbol .openParen, p⟩ :: (ts ++ ⟨.symbol .closeParen, q⟩ :: rest))
      = none := by
    refine Option.eq_none_iff_forall_ne_some.mpr ?_
    rintro ⟨lead, us⟩ hlead
    rcases Lead.next?_eq_some.mp hlead with ⟨s, r, op, heq, hop, -⟩ | ⟨r, k, a, b, t, heq, ht, -⟩
    · cases heq
      cases hop
    · exact hopens.not_cast hcast (List.cons.inj heq).2 ht
  refine ⟨by simpa using hlead, primaryAt_eq_ok.mpr ?_⟩
  simpa using ReadsPrimary.paren hread

end Phrase.Complete

/-! ### Lists -/

section Lists

open Rules

variable {ts us : List Lexeme} {e : Expr}

/-- Arguments, if there are any, are read up to the parenthesis behind them. -/
def ArgsComplete (stop : Nat) (ts : List Lexeme) (es : List Expr) : Prop :=
  ∀ ⦃n k : Nat⦄ (q : Span) (rest : List Lexeme), cost ts < n → ts.length < k → es ≠ [] →
    readArgsUpTo stop (ofBudget stop n).expr k (ts ++ ⟨.symbol .closeParen, q⟩ :: rest)
      = .ok (es, q.stop, rest)

/-- The member is read up to the comma or the brace behind it. -/
def MemberComplete (stop : Nat) (ts : List Lexeme) (m : String × Expr) : Prop :=
  ∀ ⦃n : Nat⦄ ⦃s : Symbol⦄ (q : Span) (rest : List Lexeme), cost ts < n →
    s = .comma ∨ s = .closeBrace →
    readMember stop (ofBudget stop n).expr (ts ++ ⟨.symbol s, q⟩ :: rest)
      = .ok (m, ⟨.symbol s, q⟩ :: rest)

/-- The members are read up to the brace behind them. -/
def MembersComplete (stop : Nat) (ts : List Lexeme) (ms : List (String × Expr)) : Prop :=
  ∀ ⦃n k : Nat⦄ (q : Span) (rest : List Lexeme), cost ts < n → ts.length < k →
    readMembersUpTo stop (ofBudget stop n).expr k (ts ++ ⟨.symbol .closeBrace, q⟩ :: rest)
      = .ok (ms, q.stop, rest)

theorem ArgsComplete.one (h : Phrase.Complete stop .expr ts e) : ArgsComplete stop ts [e] := by
  intro n k q rest hn hk _
  obtain ⟨j, rfl⟩ := Nat.exists_eq_add_of_lt hk
  exact readArgsUpTo_eq_ok.mpr ⟨e, _, h.expr_eq _ hn rfl, Or.inr ⟨q, rfl, rfl, rfl⟩⟩

theorem ArgsComplete.more {d : Expr} {es : List Expr} {c : Span}
    (h : Phrase.Complete stop .expr ts e) (hmore : ArgsComplete stop us (d :: es)) :
    ArgsComplete stop (ts ++ ⟨.symbol .comma, c⟩ :: us) (e :: d :: es) := by
  intro n k q rest hn hk _
  simp only [cost_append, cost_cons, Token.cost] at hn
  simp only [List.length_append, List.length_cons] at hk
  obtain ⟨j, rfl⟩ : ∃ j, k = j + 1 := ⟨k - 1, by omega⟩
  have hrest := hmore (n := n) (k := j) q rest (by omega) (by omega) nofun
  rw [List.append_assoc]
  exact readArgsUpTo_eq_ok.mpr
    ⟨e, _, h.expr_eq _ (by omega) rfl, Or.inl ⟨c, _, _, rfl, hrest, rfl⟩⟩

theorem DerivesArgs.opens {d : Expr} {es : List Expr} (h : DerivesArgs ts (d :: es)) :
    Opens ts := by
  cases h with
  | one h => exact h.opens
  | more h _ => exact h.opens.append nofun nofun

theorem ArgsComplete.args_eq {es : List Expr} {n : Nat} {q : Span} {rest : List Lexeme}
    (h : ArgsComplete stop ts es) (hd : DerivesArgs ts es) (hn : cost ts < n) :
    readArgs stop (ofBudget stop n).expr (ts ++ ⟨.symbol .closeParen, q⟩ :: rest)
      = .ok (es, q.stop, rest) := by
  cases es with
  | nil =>
      cases hd
      exact readArgs_eq_ok.mpr (Or.inl ⟨q, rfl, rfl, rfl⟩)
  | cons d es =>
      have hopens : Opens ts := hd.opens
      refine readArgs_eq_ok.mpr (Or.inr ⟨fun _ _ => hopens.not_closes (Or.inl rfl), ?_⟩)
      exact h q rest hn (by simp only [List.length_append]; omega) nofun

theorem MemberComplete.named {k : String} {p a : Span} (h : Phrase.Complete stop .expr ts e) :
    MemberComplete stop (⟨.name k, p⟩ :: ⟨.symbol .assign, a⟩ :: ts) (k, e) := by
  intro n s q rest hn hs
  simp only [cost_cons, Token.cost] at hn
  have hread := h.expr_eq (⟨.symbol s, q⟩ :: rest) (show cost ts < n by omega)
    (by rcases hs with rfl | rfl <;> rfl)
  exact readMember_eq_ok.mpr (Or.inl ⟨p, a, _, rfl, hread⟩)

theorem MemberComplete.suggested {k : String} (h : Phrase.Complete stop .expr ts e)
    (hopens : Opens ts) (hk : e.impliedName? = some k) : MemberComplete stop ts (k, e) := by
  intro n s q rest hn hs
  have hread := h.expr_eq (⟨.symbol s, q⟩ :: rest) hn
    (by rcases hs with rfl | rfl <;> rfl)
  have hstart : Opens (ts ++ ⟨.symbol s, q⟩ :: rest) :=
    hopens.append (by rcases hs with rfl | rfl <;> nofun) (by rcases hs with rfl | rfl <;> nofun)
  exact readMember_eq_ok.mpr (Or.inr ⟨hstart.not_startsNamed, hread, hk⟩)

theorem DerivesMember.not_closes {m : String × Expr} {q : Span} (h : DerivesMember ts m)
    (rest : List Lexeme) : ts ++ rest ≠ ⟨.symbol .closeBrace, q⟩ :: us := by
  cases h with
  | named h => exact nofun
  | suggested h _ => exact h.opens.not_closes (Or.inr rfl)

theorem MembersComplete.none : MembersComplete stop [] [] := by
  intro n k q rest _ hk
  obtain ⟨j, rfl⟩ := Nat.exists_eq_add_of_lt hk
  exact readMembersUpTo_eq_ok.mpr (Or.inl ⟨q, rfl, rfl, rfl⟩)

theorem MembersComplete.last {m : String × Expr} (h : MemberComplete stop ts m)
    (hd : DerivesMember ts m) : MembersComplete stop ts [m] := by
  intro n k q rest hn hk
  obtain ⟨j, rfl⟩ := Nat.exists_eq_add_of_lt hk
  exact readMembersUpTo_eq_ok.mpr (Or.inr ⟨fun _ _ => hd.not_closes _, m, _,
    h q rest hn (Or.inr rfl), Or.inr ⟨q, rfl, rfl, rfl⟩⟩)

theorem MembersComplete.more {m : String × Expr} {ms : List (String × Expr)} {c : Span}
    (h : MemberComplete stop ts m) (hd : DerivesMember ts m)
    (hmore : MembersComplete stop us ms) :
    MembersComplete stop (ts ++ ⟨.symbol .comma, c⟩ :: us) (m :: ms) := by
  intro n k q rest hn hk
  simp only [cost_append, cost_cons, Token.cost] at hn
  simp only [List.length_append, List.length_cons] at hk
  obtain ⟨j, rfl⟩ : ∃ j, k = j + 1 := ⟨k - 1, by omega⟩
  have hrest := hmore (n := n) (k := j) q rest (by omega) (by omega)
  rw [List.append_assoc]
  exact readMembersUpTo_eq_ok.mpr (Or.inr ⟨fun _ _ => hd.not_closes _, m, _,
    h c _ (by omega) (Or.inl rfl), Or.inl ⟨c, _, _, rfl, hrest, rfl⟩⟩)

end Lists

namespace Phrase.Complete

open Rules

variable {ts us : List Lexeme}

/-! ### Phrases with lists in them -/

theorem method {k : String} {target : Expr} {args : List Expr} {d q p r : Span}
    (h : Complete stop .access ts target) (hmath : ∀ s, ts ≠ [⟨.name "Math", s⟩])
    (hargs : ArgsComplete stop us args) (hd : DerivesArgs us args) :
    Complete stop .access
      (ts ++ ⟨.symbol .dot, d⟩ :: ⟨.name k, q⟩ :: ⟨.symbol .openParen, p⟩ ::
        (us ++ [⟨.symbol .closeParen, r⟩]))
      (.method ⟨target.span.start, r.stop⟩ target k args) := by
  intro n rest hn _
  simp only [cost_append, cost_cons, cost_nil, Token.cost] at hn
  obtain ⟨hlead, m, a, vs, hm, hprimary, hmembers⟩ := h.member_step (d := d)
    (⟨.name k, q⟩ :: ⟨.symbol .openParen, p⟩ :: (us ++ ⟨.symbol .closeParen, r⟩ :: rest))
    hmath (show cost ts < n by omega)
  have hread : memberAt stop (ofBudget stop m) target
      (⟨.name k, q⟩ :: ⟨.symbol .openParen, p⟩ :: (us ++ ⟨.symbol .closeParen, r⟩ :: rest))
        = membersAt (ofBudget stop m) (.method ⟨target.span.start, r.stop⟩ target k args)
          rest := by
    show (readArgs stop (ofBudget stop m).expr (us ++ ⟨.symbol .closeParen, r⟩ :: rest) >>= _) = _
    rw [hargs.args_eq hd (show cost us < m by omega)]
    rfl
  refine ⟨by simpa using hlead, m, a, vs, ?_, by simpa using hprimary, hmembers.trans hread⟩
  simp only [cost_append, cost_cons, cost_nil, Token.cost]
  omega

theorem math {f : String} {args : List Expr} {s d q p r : Span}
    (hargs : ArgsComplete stop ts args) (hd : DerivesArgs ts args) :
    Complete stop .primary
      (⟨.name "Math", s⟩ :: ⟨.symbol .dot, d⟩ :: ⟨.name f, q⟩ :: ⟨.symbol .openParen, p⟩ ::
        (ts ++ [⟨.symbol .closeParen, r⟩]))
      (.math ⟨s.start, r.stop⟩ f args) := by
  intro n rest hn _
  simp only [cost_append, cost_cons, cost_nil, Token.cost] at hn
  have hread : readArgs stop (ofBudget stop n).expr (ts ++ ⟨.symbol .closeParen, r⟩ :: rest)
      = .ok (args, r.stop, rest) := hargs.args_eq hd (by omega)
  refine ⟨rfl, primaryAt_eq_ok.mpr ?_⟩
  rw [List.cons_append, List.cons_append, List.cons_append, List.cons_append, List.append_assoc]
  exact .math hread

theorem record {members : List (String × Expr)} {s p q : Span}
    (h : MembersComplete stop ts members) :
    Complete stop .primary
      (⟨.keyword .new, s⟩ :: ⟨.symbol .openBrace, p⟩ :: (ts ++ [⟨.symbol .closeBrace, q⟩]))
      (.record ⟨s.start, q.stop⟩ members) := by
  intro n rest hn _
  simp only [cost_append, cost_cons, cost_nil, Token.cost] at hn
  have hread : readMembers stop (ofBudget stop n).expr (ts ++ ⟨.symbol .closeBrace, q⟩ :: rest)
      = .ok (members, q.stop, rest) :=
    h q rest (by omega) (by simp only [List.length_append]; omega)
  refine ⟨rfl, primaryAt_eq_ok.mpr ?_⟩
  simpa using ReadsPrimary.record (q := s) (p := p) hread

end Phrase.Complete

/-! ### All phrases -/

mutual

/-- Every phrase of the grammar is read. -/
theorem Derives.complete {p : Phrase} {ts : List Lexeme} {e : Expr} :
    Derives p ts e → p.Complete stop ts e
  | .conditional htest hyes hno => .conditional htest.complete hyes.complete hno.complete
  | .expr h => .expr h.complete
  | .orElse hlhs hrhs => .orElse hlhs.complete hrhs.complete
  | .coalesce h => .coalesce h.complete
  | .infixed hop hlhs hrhs => .infixed hop hlhs.complete hrhs.complete
  | .operand h => .operand h.complete
  | .prefixed h => .prefixed h.complete
  | .cast ht h => .cast ht h.complete
  | .unary h => .unary h.complete
  | .member h hmath => .member h.complete hmath
  | .method h hmath hargs => .method h.complete hmath hargs.complete hargs
  | .access h => .access h.complete
  | .literal hv => .literal hv
  | .name => .name
  | .paren h hcast => .paren h.complete h.opens hcast
  | .record h => .record h.complete
  | .math h => .math h.complete h

theorem DerivesArgs.complete {ts : List Lexeme} {es : List Expr} :
    DerivesArgs ts es → ArgsComplete stop ts es
  | .none => fun _ _ _ _ _ _ hne => absurd rfl hne
  | .one h => .one h.complete
  | .more h hmore => .more h.complete hmore.complete

theorem DerivesMember.complete {ts : List Lexeme} {m : String × Expr} :
    DerivesMember ts m → MemberComplete stop ts m
  | .named h => .named h.complete
  | .suggested h hn => .suggested h.complete h.opens hn

theorem DerivesMembers.complete {ts : List Lexeme} {ms : List (String × Expr)} :
    DerivesMembers ts ms → MembersComplete stop ts ms
  | .none => .none
  | .last h => .last h.complete h
  | .more h hmore => .more h.complete h hmore.complete

end

/-- A phrase of the grammar that costs less than the budget is read to its end. -/
theorem Derives.expr_eq {ts : List Lexeme} {e : Expr} {n : Nat} (h : Derives .expr ts e)
    (hn : cost ts < n) : (Rules.ofBudget stop n).expr ts = .ok (e, []) := by
  simpa using h.complete.expr_eq [] hn rfl

/-- **No sentence of the grammar is ambiguous**: the readers, given levels enough, answer the
tree of any derivation, so there is only one. -/
theorem Derives.unique {ts : List Lexeme} {d e : Expr} (hd : Derives .expr ts d)
    (he : Derives .expr ts e) : d = e := by
  have hread : (Rules.ofBudget 0 (cost ts + 1)).expr ts = .ok (d, []) :=
    hd.expr_eq (Nat.lt_succ_self _)
  rw [he.expr_eq (Nat.lt_succ_self _)] at hread
  cases hread
  rfl

end LambdaShell
