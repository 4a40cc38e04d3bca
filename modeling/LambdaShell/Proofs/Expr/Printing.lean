/-
Reading what was printed.

An expression is printed as tokens: each node as its rule of the grammar writes it, and in
parentheses where the place it stands in asks for something that binds tighter.  Those are
all parentheses there are, except that a parameter called `Math` has to be kept from being
taken for the library.

The printed tokens derive the tree they were printed from, up to its spans, and they cost
at most two levels for each of its nodes: one for the token that makes a node and one for
the parentheses around it.  So a printed tree is always read back, or else it is too deep,
and no tree of at most thirty nodes is too deep.
-/
import LambdaShell.Proofs.Expr.Parts
import LambdaShell.Proofs.Expr.Sentences
import LambdaShell.Proofs.Expr.Spelling

namespace LambdaShell

/-! ### Printing -/

/-- The token of a literal.  Records and lists have none. -/
def Token.ofValue : Value → Token
  | .bool true => .keyword .true
  | .bool false => .keyword .false
  | .int i => .int i
  | .float x => .float x
  | .str s => .str s
  | .null | .record _ | .list _ => .keyword .null

namespace BinaryOp

/-- What can stand in front of an operator. -/
def left (op : BinaryOp) : Phrase := .tier (op.tier?.getD .or)

/-- What can stand behind an operator. -/
def right (op : BinaryOp) : Phrase := (op.tier?.map Tier.operand).getD .coalesce

end BinaryOp

namespace Expr

/-- The tightest phrase that a node is without parentheses. -/
def phrase : Expr → Phrase
  | literal .. | name .. | math .. | record .. => .primary
  | member .. | method .. => .access
  | cast .. | unary .. => .unary
  | binary _ op _ _ => (op.tier?.map Phrase.tier).getD .coalesce
  | conditional .. => .expr

/-- The name of the library, as a name. -/
def isMath : Expr → Bool
  | name _ n => n == "Math"
  | _ => false

/-- The expression needs parentheses where such a phrase is wanted: it does not bind as
tightly, or it is `Math` in front of a point. -/
def needsParens (p : Phrase) (e : Expr) : Bool :=
  e.phrase.strength < p.strength || (p == .access && e.isMath)

/-- Tokens, in parentheses if they need them. -/
def enclose (needed : Bool) (ts : List Token) : List Token :=
  if needed then .symbol .openParen :: (ts ++ [.symbol .closeParen]) else ts

mutual

/-- An expression as tokens, without parentheses around it. -/
def tokens : Expr → List Token
  | literal _ v => [.ofValue v]
  | name _ n => [.name n]
  | member _ target n =>
    enclose (target.needsParens .access) target.tokens ++ [.symbol .dot, .name n]
  | method _ target n args =>
    enclose (target.needsParens .access) target.tokens ++
      .symbol .dot :: .name n :: .symbol .openParen :: (tokensOfArgs args ++ [.symbol .closeParen])
  | math _ f args =>
    .name "Math" :: .symbol .dot :: .name f :: .symbol .openParen ::
      (tokensOfArgs args ++ [.symbol .closeParen])
  | cast _ t e =>
    .symbol .openParen :: .name t.name :: .symbol .closeParen ::
      enclose (e.needsParens .unary) e.tokens
  | unary _ op e => .symbol op.symbol :: enclose (e.needsParens .unary) e.tokens
  | binary _ op l r =>
    enclose (l.needsParens op.left) l.tokens ++
      .symbol op.symbol :: enclose (r.needsParens op.right) r.tokens
  | conditional _ test yes no =>
    enclose (test.needsParens .coalesce) test.tokens ++
      .symbol .question :: (yes.tokens ++ .symbol .colon :: no.tokens)
  | record _ members =>
    .keyword .new :: .symbol .openBrace :: (tokensOfMembers members ++ [.symbol .closeBrace])

/-- Arguments with commas between them. -/
def tokensOfArgs : List Expr → List Token
  | [] => []
  | [e] => e.tokens
  | e :: d :: es => e.tokens ++ .symbol .comma :: tokensOfArgs (d :: es)

/-- Record members `name = value` with commas between them. -/
def tokensOfMembers : List (String × Expr) → List Token
  | [] => []
  | [(n, e)] => .name n :: .symbol .assign :: e.tokens
  | (n, e) :: m :: ms =>
    .name n :: .symbol .assign :: (e.tokens ++ .symbol .comma :: tokensOfMembers (m :: ms))

end

/-! ### What can be printed -/

/-- The literal or the names that a node adds to those of its children can be written. -/
def OwnWritable : Expr → Prop
  | literal _ v => match v with
    | .null | .bool _ | .str _ => True
    | .int i => 0 ≤ i.toInt
    | _ => False
  | name _ n | member _ _ n | method _ _ n _ => IsName n
  | math _ f _ => IsName f
  | record _ members => ∀ m ∈ members, IsName m.1
  | cast .. | unary .. | binary .. | conditional .. => True

/-- There are no decimals, no negative numbers and no odd names in the expression. -/
def Writable (e : Expr) : Prop := ∀ d ∈ e.parts, d.OwnWritable

theorem Writable.child {e c : Expr} (h : e.Writable) (hc : c ∈ e.children) : c.Writable :=
  fun d hd => h d (mem_parts.mpr (Or.inr ⟨c, hc, hd⟩))

theorem Writable.own {e : Expr} (h : e.Writable) : e.OwnWritable := h e (self_mem_parts e)

/-! ### Trees without spans -/

mutual

/-- The expression with all spans taken out. -/
def bare : Expr → Expr
  | literal _ v => literal ⟨0, 0⟩ v
  | name _ n => name ⟨0, 0⟩ n
  | member _ target n => member ⟨0, 0⟩ target.bare n
  | method _ target n args => method ⟨0, 0⟩ target.bare n (bareArgs args)
  | math _ f args => math ⟨0, 0⟩ f (bareArgs args)
  | cast _ t e => cast ⟨0, 0⟩ t e.bare
  | unary _ op e => unary ⟨0, 0⟩ op e.bare
  | binary _ op l r => binary ⟨0, 0⟩ op l.bare r.bare
  | conditional _ test yes no => conditional ⟨0, 0⟩ test.bare yes.bare no.bare
  | record _ members => record ⟨0, 0⟩ (bareMembers members)

/-- All arguments with their spans taken out. -/
def bareArgs : List Expr → List Expr
  | [] => []
  | e :: es => e.bare :: bareArgs es

/-- All record members with the spans of their values taken out. -/
def bareMembers : List (String × Expr) → List (String × Expr)
  | [] => []
  | (n, e) :: ms => (n, e.bare) :: bareMembers ms

end

theorem bareArgs_cons (e : Expr) (es : List Expr) :
    bareArgs (e :: es) = e.bare :: bareArgs es := rfl

theorem bareMembers_cons (n : String) (e : Expr) (ms : List (String × Expr)) :
    bareMembers ((n, e) :: ms) = (n, e.bare) :: bareMembers ms := rfl

@[simp] theorem bare_withSpan (s : Span) (e : Expr) : (e.withSpan s).bare = e.bare := by
  cases e <;> simp [withSpan, bare]

end Expr

/-! ### Printed tokens -/

/-- The tokens derive the expression, up to spans. -/
def Restores (p : Phrase) (ts : List Lexeme) (e : Expr) : Prop :=
  ∃ d, Derives p ts d ∧ d.bare = e.bare

namespace Expr

/-- Only a name is printed as a single name. -/
theorem eq_name_of_tokens {e : Expr} {n : String} (h : e.tokens = [.name n]) :
    ∃ s, e = .name s n := by
  have hmem : ∀ t ∈ e.tokens, t = .name n := by
    rw [h]
    exact fun t => List.mem_singleton.mp
  cases e with
  | literal s v =>
      cases v with
      | bool b => cases b <;> cases h
      | _ => cases h
  | name s m =>
      cases h
      exact ⟨s, rfl⟩
  | member s target m => cases hmem (.symbol .dot) (by simp [tokens])
  | method s target m args => cases hmem (.symbol .dot) (by simp [tokens])
  | math s f args => cases h
  | cast s t e => cases h
  | unary s op e => cases h
  | binary s op l r => cases hmem (.symbol op.symbol) (by simp [tokens])
  | conditional s test yes no => cases hmem (.symbol .question) (by simp [tokens])
  | record s members => cases h

/-- However it is spelled, the expression is restored from its tokens. -/
def Prints (e : Expr) : Prop :=
  ∀ ts : List Lexeme, ts.map (·.token) = e.tokens → Restores e.phrase ts e

variable {e : Expr} {ts : List Lexeme} {p : Phrase}

theorem Prints.weaken (h : e.Prints) (hts : ts.map (·.token) = e.tokens)
    (hp : p.strength ≤ e.phrase.strength) : Restores p ts e := by
  obtain ⟨d, hd, hbare⟩ := h ts hts
  exact ⟨d, hd.weaken hp, hbare⟩

theorem Prints.expr (h : e.Prints) (hts : ts.map (·.token) = e.tokens) :
    Restores .expr ts e :=
  h.weaken hts e.phrase.strength_pos

theorem name_of_needsParens {s : Span} {n : String} (h : (name s n).needsParens p = true) :
    n = "Math" := by
  have hloose : ¬ (name s n).phrase.strength < p.strength := Nat.not_lt_of_le p.strength_le
  rw [needsParens, decide_eq_false hloose, Bool.false_or, Bool.and_eq_true] at h
  exact beq_iff_eq.mp h.2

/-- With the parentheses it needs, an expression is restored in any place. -/
theorem Prints.enclose (h : e.Prints)
    (hts : ts.map (·.token) = Expr.enclose (e.needsParens p) e.tokens) : Restores p ts e := by
  cases hneeds : e.needsParens p with
  | false =>
      rw [hneeds] at hts
      refine h.weaken hts (Nat.le_of_not_lt fun hlt => ?_)
      rw [needsParens, decide_eq_true hlt] at hneeds
      cases hneeds
  | true =>
      rw [hneeds] at hts
      obtain ⟨s, us, rfl, hus⟩ := lexemes_cons hts
      obtain ⟨vs, q, rfl, hvs⟩ := lexemes_last hus
      obtain ⟨d, hd, hbare⟩ := h.expr hvs
      refine ⟨d.withSpan ⟨s.start, q.stop⟩, (Derives.paren hd ?_).weaken ?_, ?_⟩
      · -- a name in parentheses is `Math`, which is no type
        rintro n r rfl
        obtain ⟨r', rfl⟩ := eq_name_of_tokens hvs.symm
        obtain rfl := name_of_needsParens hneeds
        rfl
      · exact p.strength_le
      · rw [bare_withSpan, hbare]

/-- In front of a point, the expression is not taken for the library either. -/
theorem Prints.target (h : e.Prints)
    (hts : ts.map (·.token) = Expr.enclose (e.needsParens .access) e.tokens) :
    Restores .access ts e ∧ ∀ s, ts ≠ [⟨.name "Math", s⟩] := by
  refine ⟨h.enclose hts, ?_⟩
  rintro s rfl
  cases hneeds : e.needsParens .access with
  | false =>
      rw [hneeds] at hts
      obtain ⟨r, rfl⟩ := eq_name_of_tokens hts.symm
      cases hneeds
  | true =>
      rw [hneeds] at hts
      cases hts

/-! ### Lists -/

theorem restores_args {es : List Expr} (h : ∀ e ∈ es, e.Prints) :
    ∀ {ts : List Lexeme}, ts.map (·.token) = tokensOfArgs es →
      ∃ ds, DerivesArgs ts ds ∧ bareArgs ds = bareArgs es := by
  induction es with
  | nil =>
      intro ts hts
      rw [List.map_eq_nil_iff.mp hts]
      exact ⟨[], .none, rfl⟩
  | cons e es ih =>
      obtain ⟨he, hes⟩ := List.forall_mem_cons.mp h
      intro ts hts
      cases es with
      | nil =>
          obtain ⟨d, hd, hbare⟩ := he.expr hts
          exact ⟨[d], .one hd, congrArg (· :: []) hbare⟩
      | cons e' es =>
          obtain ⟨us, q, vs, rfl, hus, hvs⟩ := lexemes_middle hts
          obtain ⟨d, hd, hbare⟩ := he.expr hus
          obtain ⟨ds, hds, hbares⟩ := ih hes hvs
          cases ds with
          | nil => cases hbares
          | cons d' ds =>
              refine ⟨d :: d' :: ds, .more hd hds, ?_⟩
              rw [bareArgs_cons, hbare, hbares, ← bareArgs_cons]

theorem restores_members {ms : List (String × Expr)} (h : ∀ e ∈ ms.map (·.2), e.Prints) :
    ∀ {ts : List Lexeme}, ts.map (·.token) = tokensOfMembers ms →
      ∃ ds, DerivesMembers ts ds ∧ bareMembers ds = bareMembers ms := by
  induction ms with
  | nil =>
      intro ts hts
      rw [List.map_eq_nil_iff.mp hts]
      exact ⟨[], .none, rfl⟩
  | cons m ms ih =>
      obtain ⟨n, e⟩ := m
      obtain ⟨he, hms⟩ := List.forall_mem_cons.mp h
      intro ts hts
      cases ms with
      | nil =>
          obtain ⟨q, us, rfl, hus⟩ := lexemes_cons hts
          obtain ⟨a, vs, rfl, hvs⟩ := lexemes_cons hus
          obtain ⟨d, hd, hbare⟩ := he.expr hvs
          exact ⟨[(n, d)], .last (.named hd), congrArg (fun b => [(n, b)]) hbare⟩
      | cons m' ms =>
          obtain ⟨q, us, rfl, hus⟩ := lexemes_cons hts
          obtain ⟨a, vs, rfl, hvs⟩ := lexemes_cons hus
          obtain ⟨xs, c, ys, rfl, hxs, hys⟩ := lexemes_middle hvs
          obtain ⟨d, hd, hbare⟩ := he.expr hxs
          obtain ⟨ds, hds, hbares⟩ := ih hms hys
          refine ⟨(n, d) :: ds, .more (.named hd) hds, ?_⟩
          rw [bareMembers_cons, hbare, hbares, ← bareMembers_cons]

/-! ### Nodes -/

theorem literal?_ofValue {s : Span} {v : Value} (h : (literal s v).OwnWritable) :
    (Token.ofValue v).literal? = some v := by
  cases v with
  | bool b => cases b <;> rfl
  | float x => exact absurd h id
  | record fields => exact absurd h id
  | list items => exact absurd h id
  | _ => rfl

theorem prints_binary {s : Span} {op : BinaryOp} {l r : Expr} (hl : l.Prints) (hr : r.Prints) :
    (binary s op l r).Prints := by
  intro ts hts
  obtain ⟨us, q, vs, rfl, hus, hvs⟩ := lexemes_middle hts
  obtain ⟨dl, hdl, hbl⟩ := hl.enclose hus
  obtain ⟨dr, hdr, hbr⟩ := hr.enclose hvs
  have hbare : (Rules.binary op dl dr).bare = (binary s op l r).bare := by
    rw [Rules.binary, bare, hbl, hbr, bare]
  refine ⟨_, ?_, hbare⟩
  cases htier : op.tier? with
  | some t =>
      rw [BinaryOp.left, htier] at hdl
      rw [BinaryOp.right, htier] at hdr
      rw [phrase, htier]
      exact .infixed htier hdl hdr
  | none =>
      rw [BinaryOp.left, htier] at hdl
      rw [BinaryOp.right, htier] at hdr
      rw [phrase, htier]
      obtain rfl : op = .coalesce := by cases op <;> first | rfl | cases htier
      exact .orElse hdl hdr

/-- **Printed tokens derive what was printed.** -/
theorem Writable.prints {e : Expr} : e.Writable → e.Prints := by
  induction e using children_induction with
  | h e ih =>
      intro hw
      have hprints : ∀ c ∈ e.children, c.Prints := fun c hc => ih c hc (hw.child hc)
      have hown := hw.own
      cases e with
      | literal s v =>
          intro ts hts
          obtain ⟨q, rfl⟩ := lexemes_one hts
          exact ⟨_, .literal (literal?_ofValue hown), rfl⟩
      | name s n =>
          intro ts hts
          obtain ⟨q, rfl⟩ := lexemes_one hts
          exact ⟨_, .name, rfl⟩
      | member s target n =>
          intro ts hts
          obtain ⟨us, d, vs, rfl, hus, hvs⟩ := lexemes_middle hts
          obtain ⟨q, rfl⟩ := lexemes_one hvs
          obtain ⟨⟨c, hc, hbare⟩, hmath⟩ := (hprints target List.mem_cons_self).target hus
          exact ⟨_, .member hc hmath, by rw [bare, hbare, bare]⟩
      | method s target n args =>
          obtain ⟨htarget, hargs⟩ := List.forall_mem_cons.mp hprints
          intro ts hts
          obtain ⟨us, d, vs, rfl, hus, hvs⟩ := lexemes_middle hts
          obtain ⟨q, ws, rfl, hws⟩ := lexemes_cons hvs
          obtain ⟨p, xs, rfl, hxs⟩ := lexemes_cons hws
          obtain ⟨ys, r, rfl, hys⟩ := lexemes_last hxs
          obtain ⟨⟨c, hc, hbare⟩, hmath⟩ := htarget.target hus
          obtain ⟨ds, hds, hbares⟩ := restores_args hargs hys
          exact ⟨_, .method hc hmath hds, by rw [bare, hbare, hbares, bare]⟩
      | math s f args =>
          intro ts hts
          obtain ⟨q, us, rfl, hus⟩ := lexemes_cons hts
          obtain ⟨d, vs, rfl, hvs⟩ := lexemes_cons hus
          obtain ⟨q', ws, rfl, hws⟩ := lexemes_cons hvs
          obtain ⟨p, xs, rfl, hxs⟩ := lexemes_cons hws
          obtain ⟨ys, r, rfl, hys⟩ := lexemes_last hxs
          obtain ⟨ds, hds, hbares⟩ := restores_args hprints hys
          exact ⟨_, .math hds, congrArg (math ⟨0, 0⟩ f) hbares⟩
      | cast s t c =>
          intro ts hts
          obtain ⟨p, us, rfl, hus⟩ := lexemes_cons hts
          obtain ⟨q, vs, rfl, hvs⟩ := lexemes_cons hus
          obtain ⟨r, ws, rfl, hws⟩ := lexemes_cons hvs
          obtain ⟨d, hd, hbare⟩ := (hprints c List.mem_cons_self).enclose hws
          have ht : CastType.ofName? t.name = some t := by cases t <;> rfl
          exact ⟨_, .cast ht hd, by rw [bare, hbare, bare]⟩
      | unary s op c =>
          intro ts hts
          obtain ⟨p, us, rfl, hus⟩ := lexemes_cons hts
          obtain ⟨d, hd, hbare⟩ := (hprints c List.mem_cons_self).enclose hus
          exact ⟨_, .prefixed hd, by rw [bare, hbare, bare]⟩
      | binary s op l r =>
          exact prints_binary (hprints l (by simp [children])) (hprints r (by simp [children]))
      | conditional s test yes no =>
          intro ts hts
          obtain ⟨us, p, vs, rfl, hus, hvs⟩ := lexemes_middle hts
          obtain ⟨ws, q, xs, rfl, hws, hxs⟩ := lexemes_middle hvs
          obtain ⟨dt, hdt, hbt⟩ := (hprints test (by simp [children])).enclose hus
          obtain ⟨dy, hdy, hby⟩ := (hprints yes (by simp [children])).expr hws
          obtain ⟨dn, hdn, hbn⟩ := (hprints no (by simp [children])).expr hxs
          exact ⟨_, .conditional hdt hdy hdn, by rw [bare, hbt, hby, hbn, bare]⟩
      | record s members =>
          intro ts hts
          obtain ⟨q, us, rfl, hus⟩ := lexemes_cons hts
          obtain ⟨p, vs, rfl, hvs⟩ := lexemes_cons hus
          obtain ⟨ws, r, rfl, hws⟩ := lexemes_last hvs
          obtain ⟨ds, hds, hbares⟩ := restores_members hprints hws
          exact ⟨_, .record hds, congrArg (record ⟨0, 0⟩) hbares⟩

/-! ### Writing the tokens -/

@[simp] theorem allWritable_enclose {needed : Bool} {ts : List Token} :
    AllWritable (enclose needed ts) ↔ AllWritable ts := by
  cases needed <;> simp [enclose]

theorem isName_castName (t : CastType) : IsName t.name := by
  cases t <;> decide

theorem writable_ofValue {s : Span} {v : Value} (h : (literal s v).OwnWritable) :
    (Token.ofValue v).Writable := by
  cases v with
  | bool b => cases b <;> trivial
  | int i => exact h
  | float x => exact absurd h id
  | _ => trivial

theorem writable_args {es : List Expr} (h : ∀ e ∈ es, AllWritable e.tokens) :
    AllWritable (tokensOfArgs es) := by
  induction es with
  | nil => exact allWritable_nil
  | cons e es ih =>
      obtain ⟨he, hes⟩ := List.forall_mem_cons.mp h
      cases es with
      | nil => exact he
      | cons d es =>
          show AllWritable (e.tokens ++ .symbol .comma :: tokensOfArgs (d :: es))
          simp [he, ih hes]

theorem writable_members {ms : List (String × Expr)} (hnames : ∀ m ∈ ms, IsName m.1)
    (h : ∀ e ∈ ms.map (·.2), AllWritable e.tokens) : AllWritable (tokensOfMembers ms) := by
  induction ms with
  | nil => exact allWritable_nil
  | cons m ms ih =>
      obtain ⟨n, e⟩ := m
      obtain ⟨hn, hns⟩ := List.forall_mem_cons.mp hnames
      obtain ⟨he, hes⟩ := List.forall_mem_cons.mp h
      cases ms with
      | nil =>
          show AllWritable (.name n :: .symbol .assign :: e.tokens)
          simp [hn, he]
      | cons m ms =>
          show AllWritable (.name n :: .symbol .assign ::
            (e.tokens ++ .symbol .comma :: tokensOfMembers (m :: ms)))
          simp [hn, he, ih hns hes]

/-- An expression that can be printed is printed with tokens that can be written. -/
theorem Writable.tokens {e : Expr} : e.Writable → AllWritable e.tokens := by
  induction e using children_induction with
  | h e ih =>
      intro hw
      have hchildren : ∀ c ∈ e.children, AllWritable c.tokens :=
        fun c hc => ih c hc (hw.child hc)
      have hown := hw.own
      have hMath : IsName "Math" := by decide
      cases e with
      | literal s v => simp [Expr.tokens, writable_ofValue hown]
      | name s n =>
          have hn : IsName n := hown
          simp [Expr.tokens, hn]
      | member s target n =>
          have htarget := hchildren target List.mem_cons_self
          have hn : IsName n := hown
          simp [Expr.tokens, htarget, hn]
      | method s target n args =>
          obtain ⟨htarget, hargs⟩ := List.forall_mem_cons.mp hchildren
          have hn : IsName n := hown
          simp [Expr.tokens, htarget, hn, writable_args hargs]
      | math s f args =>
          have hf : IsName f := hown
          have hargs : AllWritable (tokensOfArgs args) := writable_args hchildren
          simp [Expr.tokens, hMath, hf, hargs]
      | cast s t c => simp [Expr.tokens, isName_castName, hchildren c List.mem_cons_self]
      | unary s op c => simp [Expr.tokens, hchildren c List.mem_cons_self]
      | binary s op l r =>
          have hl := hchildren l (by simp [children])
          have hr := hchildren r (by simp [children])
          simp [Expr.tokens, hl, hr]
      | conditional s test yes no =>
          have htest := hchildren test (by simp [children])
          have hyes := hchildren yes (by simp [children])
          have hno := hchildren no (by simp [children])
          simp [Expr.tokens, htest, hyes, hno]
      | record s members =>
          have hmembers : AllWritable (tokensOfMembers members) := writable_members hown hchildren
          simp [Expr.tokens, hmembers]

/-! ### What printing costs -/

/-- A level for the parentheses that an expression needs somewhere. -/
def parenCost (e : Expr) : Nat := if e.needsParens .access then 1 else 0

theorem needsParens_access {p : Phrase} {e : Expr} (hp : p.strength ≤ 10)
    (h : e.needsParens p = true) : e.needsParens .access = true := by
  rw [needsParens, Bool.or_eq_true] at h ⊢
  rcases h with h | h
  · exact Or.inl (decide_eq_true (Nat.lt_of_lt_of_le (of_decide_eq_true h) hp))
  · exact Or.inr (by rw [(Bool.and_eq_true_iff.mp h).2]; rfl)

theorem tokenCost_enclose {p : Phrase} {e : Expr} (hp : p.strength ≤ 10) :
    tokenCost (enclose (e.needsParens p) e.tokens) ≤ tokenCost e.tokens + e.parenCost := by
  cases hneeds : e.needsParens p with
  | false => exact Nat.le_add_right _ _
  | true =>
      rw [parenCost, if_pos (needsParens_access hp hneeds)]
      simp only [enclose, if_true, tokenCost_cons, tokenCost_append, tokenCost_nil, Token.cost]
      omega

theorem parenCost_le (e : Expr) : e.parenCost ≤ 1 := by
  unfold parenCost
  split
  · exact Nat.le_refl 1
  · exact Nat.zero_le 1

/-- Each node costs at most two levels. -/
def Cheap (e : Expr) : Prop := tokenCost e.tokens + e.parenCost ≤ 2 * e.parts.length

theorem Cheap.enclose {e : Expr} {p : Phrase} (h : e.Cheap) (hp : p.strength ≤ 10) :
    tokenCost (enclose (e.needsParens p) e.tokens) ≤ 2 * e.parts.length :=
  Nat.le_trans (tokenCost_enclose hp) h

theorem Cheap.plain {e : Expr} (h : e.Cheap) : tokenCost e.tokens ≤ 2 * e.parts.length :=
  Nat.le_trans (Nat.le_add_right _ _) h

theorem cheap_args {es : List Expr} (h : ∀ e ∈ es, e.Cheap) :
    tokenCost (tokensOfArgs es) ≤ 2 * (es.flatMap parts).length := by
  induction es with
  | nil => exact Nat.zero_le _
  | cons e es ih =>
      obtain ⟨he, hes⟩ := List.forall_mem_cons.mp h
      have hplain := he.plain
      have hrest := ih hes
      rw [List.flatMap_cons, List.length_append]
      cases es with
      | nil =>
          show tokenCost e.tokens ≤ _
          omega
      | cons d es =>
          show tokenCost (e.tokens ++ .symbol .comma :: tokensOfArgs (d :: es)) ≤ _
          simp only [tokenCost_append, tokenCost_cons, Token.cost]
          omega

theorem cheap_members {ms : List (String × Expr)} (h : ∀ e ∈ ms.map (·.2), e.Cheap) :
    tokenCost (tokensOfMembers ms) ≤ 2 * ((ms.map (·.2)).flatMap parts).length := by
  induction ms with
  | nil => exact Nat.zero_le _
  | cons m ms ih =>
      obtain ⟨n, e⟩ := m
      obtain ⟨he, hms⟩ := List.forall_mem_cons.mp h
      have hplain : tokenCost e.tokens ≤ 2 * e.parts.length := he.plain
      have hrest := ih hms
      rw [List.map_cons, List.flatMap_cons, List.length_append]
      cases ms with
      | nil =>
          show tokenCost (.name n :: .symbol .assign :: e.tokens) ≤ _
          simp only [tokenCost_cons, Token.cost]
          omega
      | cons m ms =>
          show tokenCost (.name n :: .symbol .assign ::
            (e.tokens ++ .symbol .comma :: tokensOfMembers (m :: ms))) ≤ _
          simp only [tokenCost_append, tokenCost_cons, Token.cost]
          omega

theorem ofValue_cost (v : Value) : (Token.ofValue v).cost = 0 := by
  cases v with
  | bool b => cases b <;> rfl
  | _ => rfl

theorem cheap (e : Expr) : e.Cheap := by
  induction e using children_induction with
  | h e ih =>
      have hparen := e.parenCost_le
      unfold Cheap
      rw [parts_eq, List.length_cons]
      cases e with
      | literal s v =>
          simp only [Expr.tokens, tokenCost_cons, tokenCost_nil, ofValue_cost]
          omega
      | name s n =>
          simp only [Expr.tokens, tokenCost_cons, tokenCost_nil, Token.cost]
          omega
      | member s target n =>
          have hown : (member s target n).parenCost = 0 := rfl
          have htarget := (ih target List.mem_cons_self).enclose (p := .access) (by decide)
          simp only [Expr.tokens, tokenCost_append, tokenCost_cons, tokenCost_nil, Token.cost,
            children, List.flatMap_cons, List.flatMap_nil, List.append_nil]
          omega
      | method s target n args =>
          have hown : (method s target n args).parenCost = 0 := rfl
          obtain ⟨htarget, hargs⟩ := List.forall_mem_cons.mp ih
          have htarget := htarget.enclose (p := .access) (by decide)
          have hargs := cheap_args hargs
          simp only [Expr.tokens, tokenCost_append, tokenCost_cons, tokenCost_nil, Token.cost,
            children, List.flatMap_cons, List.length_append]
          omega
      | math s f args =>
          have hown : (math s f args).parenCost = 0 := rfl
          have hargs : tokenCost (tokensOfArgs args) ≤ 2 * (args.flatMap parts).length :=
            cheap_args ih
          simp only [Expr.tokens, tokenCost_append, tokenCost_cons, tokenCost_nil, Token.cost,
            children]
          omega
      | cast s t c =>
          have hc := (ih c List.mem_cons_self).enclose (p := .unary) (by decide)
          simp only [Expr.tokens, tokenCost_cons, Token.cost, children, List.flatMap_cons,
            List.flatMap_nil, List.append_nil]
          omega
      | unary s op c =>
          have hc := (ih c List.mem_cons_self).enclose (p := .unary) (by decide)
          simp only [Expr.tokens, tokenCost_cons, UnaryOp.cost_symbol, children,
            List.flatMap_cons, List.flatMap_nil, List.append_nil]
          omega
      | binary s op l r =>
          have hleft : op.left.strength ≤ 10 := by cases op <;> decide
          have hright : op.right.strength ≤ 10 := by cases op <;> decide
          have hl := (ih l (by simp [children])).enclose hleft
          have hr := (ih r (by simp [children])).enclose hright
          simp only [Expr.tokens, tokenCost_append, tokenCost_cons, BinaryOp.cost_symbol,
            children, List.flatMap_cons, List.flatMap_nil, List.append_nil, List.length_append]
          omega
      | conditional s test yes no =>
          have htest := (ih test (by simp [children])).enclose (p := .coalesce) (by decide)
          have hyes := (ih yes (by simp [children])).plain
          have hno := (ih no (by simp [children])).plain
          simp only [Expr.tokens, tokenCost_append, tokenCost_cons, Token.cost, children,
            List.flatMap_cons, List.flatMap_nil, List.append_nil, List.length_append]
          omega
      | record s members =>
          have hown : (record s members).parenCost = 0 := rfl
          have hmembers : tokenCost (tokensOfMembers members)
              ≤ 2 * ((members.map (·.2)).flatMap parts).length := cheap_members ih
          simp only [Expr.tokens, tokenCost_append, tokenCost_cons, tokenCost_nil, Token.cost,
            children]
          omega

/-! ### Reading back -/

/-- A lambda of the parameter `x` as text. -/
def lambdaText (e : Expr) : List Char := "x => ".toList ++ spell e.tokens

theorem tokens_ne_nil {e : Expr} (h : e.Prints) : e.tokens ≠ [] := by
  intro hnil
  obtain ⟨d, hd, -⟩ := h [] hnil.symm
  cases hd.opens

theorem lambdaText_eq {e : Expr} (h : e.Prints) :
    e.lambdaText = spell (.name "x" :: .symbol .arrow :: e.tokens) := by
  rw [lambdaText]
  cases htokens : e.tokens with
  | nil => exact absurd htokens (tokens_ne_nil h)
  | cons t ts => rfl

/-- **Reading undoes printing.**  The text of a lambda that can be printed is read back as the
same expression, spans apart, unless it is too deep; and no expression of up to thirty
nodes is too deep. -/
theorem parse_lambdaText {e : Expr} (h : e.Writable) :
    (∃ body, parseLambda e.lambdaText = .ok ⟨"x", body⟩ ∧ body.bare = e.bare) ∨
      (30 < e.parts.length ∧ ∃ offset,
        parseLambda e.lambdaText = .error [⟨offset, .tooDeep⟩]) := by
  have hx : IsName "x" := by decide
  have hwritable : AllWritable (.name "x" :: .symbol .arrow :: e.tokens) := by
    simp [hx, h.tokens]
  obtain ⟨ls, hls, htokens⟩ := tokenize_spell hwritable
  obtain ⟨q, us, rfl, hus⟩ := lexemes_cons htokens
  obtain ⟨a, ts, rfl, hts⟩ := lexemes_cons hus
  obtain ⟨body, hbody, hbare⟩ := h.prints.expr hts
  rw [lambdaText_eq h.prints]
  have hparam : DerivesParam [⟨.name "x", q⟩] "x" := .bare
  rcases (Sentence.lambda (a := a) hparam hbody).upToDepth with hread | ⟨offset, hread⟩
  · exact Or.inl ⟨body, parseLambda_eq_ok.mpr ⟨_, hls, hread⟩, hbare⟩
  · refine Or.inr ⟨Nat.lt_of_not_le fun hsmall => ?_, offset, ?_⟩
    · -- thirty nodes cost at most sixty levels
      have hcost : cost ts < maxDepth := by
        have hcheap := e.cheap.plain
        have hlimit : maxDepth = 64 := rfl
        rw [cost, hts]
        omega
      rw [Sentence.complete hparam hbody hcost] at hread
      cases hread
    · unfold parseLambda
      rw [hls]
      dsimp only
      rw [List.singleton_append] at hread
      rw [hread]

/-- A conditional under a cast, `Math` in front of a point, and a quotation mark in a string. -/
def awkward : Expr :=
  .cast ⟨0, 0⟩ .int (.conditional ⟨0, 0⟩ (.member ⟨0, 0⟩ (.name ⟨0, 0⟩ "Math") "A")
    (.literal ⟨0, 0⟩ (.str "a\"b")) (.literal ⟨0, 0⟩ (.int 7)))

theorem awkward_read_back : awkward.Writable ∧
    awkward.lambdaText = "x => ( int ) ( ( Math ) . A ? \"a\\\"b\" : 7 )".toList ∧
      ∃ body, parseLambda awkward.lambdaText = .ok ⟨"x", body⟩ ∧ body.bare = awkward := by
  have hmath : IsName "Math" := by decide
  have hmember : IsName "A" := by decide
  have hwritable : awkward.Writable := by
    simp [Writable, awkward, parts, OwnWritable, hmath, hmember]
  rcases parse_lambdaText hwritable with hread | ⟨hlarge, -⟩
  · exact ⟨hwritable, rfl, hread⟩
  · exact absurd hlarge (by decide)

end Expr

end LambdaShell
