/-
What the readers accept is in the grammar.

The readers build trees from left to right and stop where they see fit.  Soundness is that
the tokens they have used up, from the first to the last, are a phrase of the grammar with
the tree that they answer; the tokens they leave are untouched.

The two readers that go on with a chain are handed the tree of what stands in front of
them, so what they read is a phrase only together with those tokens: `Extends` says this
with the tokens in front as a parameter, and an ordinary reader is one with nothing in
front.
-/
import LambdaShell.Proofs.Expr.Grammar
import LambdaShell.Proofs.Expr.Readers

namespace LambdaShell

variable {stop : Nat}

/-! ### Operators -/

theorem Tier.opOf?_eq_some {t : Tier} {s : Symbol} {op : BinaryOp} (h : t.opOf? s = some op) :
    op.tier? = some t ∧ op.symbol = s := by
  cases t <;> cases s <;> cases h <;> exact ⟨rfl, rfl⟩

theorem UnaryOp.ofSymbol?_eq_some {s : Symbol} {op : UnaryOp} (h : ofSymbol? s = some op) :
    op.symbol = s := by
  cases s <;> cases h <;> rfl

/-! ### Readers of phrases -/

/-- What the reader uses up makes a phrase with the tokens in front of it. -/
def Extends (p : Phrase) (front : List Lexeme) (r : Reader) : Prop :=
  ∀ ⦃ts : List Lexeme⦄ ⦃e : Expr⦄ ⦃rest : List Lexeme⦄, r ts = .ok (e, rest) →
    ∃ used, ts = used ++ rest ∧ Derives p (front ++ used) e

/-- What the reader uses up is a phrase. -/
def Reads (p : Phrase) (r : Reader) : Prop := Extends p [] r

/-- The tokens are `Math` and nothing else. -/
def IsMath (ts : List Lexeme) : Prop := ∃ s, ts = [⟨.name "Math", s⟩]

theorem not_isMath_of_dot {ts us : List Lexeme} {d : Span} :
    ¬ IsMath (ts ++ ⟨.symbol .dot, d⟩ :: us) := by
  rintro ⟨s, hs⟩
  have hlast : (⟨.symbol .dot, d⟩ : Lexeme) ∈ [(⟨.name "Math", s⟩ : Lexeme)] := by
    rw [← hs]
    simp
  cases List.mem_singleton.mp hlast

namespace Rules

/-- Each rule reads the phrase it is for. -/
structure Sound (R : Rules) : Prop where
  expr : Reads .expr R.expr
  coalesce : Reads .coalesce R.coalesce
  level : ∀ t : Tier, Reads t.operand (R.level t.tighter)
  chain : ∀ (t : Tier) {front : List Lexeme} {lhs : Expr}, Derives (.tier t) front lhs →
    Extends (.tier t) front (R.chain t t.tighter lhs)
  unary : Reads .unary R.unary
  member : ∀ {front : List Lexeme} {target : Expr} (d : Span), Derives .access front target →
    ¬ IsMath front → Extends .access (front ++ [⟨.symbol .dot, d⟩]) (R.member target)

theorem sound_exhausted : (exhausted stop).Sound where
  expr := nofun
  coalesce := nofun
  level := nofun
  chain := nofun
  unary := nofun
  member := nofun

/-! ### Lists -/

theorem args_sound {expr : Reader} (hexpr : Reads .expr expr) :
    ∀ {n : Nat} {ts : List Lexeme} {es : List Expr} {close : Nat} {rest : List Lexeme},
      readArgsUpTo stop expr n ts = .ok (es, close, rest) →
        ∃ used q, ts = used ++ ⟨.symbol .closeParen, q⟩ :: rest ∧ q.stop = close ∧
          (∃ e ds, es = e :: ds) ∧ DerivesArgs used es := by
  intro n
  induction n with
  | zero => intro ts es close rest h; cases h
  | succ n ih =>
      intro ts es close rest h
      obtain ⟨e, us, he, hrest⟩ := readArgsUpTo_eq_ok.mp h
      obtain ⟨used, rfl, hd⟩ := hexpr he
      rcases hrest with ⟨c, vs, ds, rfl, hds, rfl⟩ | ⟨q, rfl, hq, rfl⟩
      · obtain ⟨more, q, rfl, hq, ⟨d, ds, rfl⟩, hargs⟩ := ih hds
        exact ⟨used ++ ⟨.symbol .comma, c⟩ :: more, q, by simp, hq, ⟨e, _, rfl⟩,
          .more hd hargs⟩
      · exact ⟨used, q, rfl, hq, ⟨e, _, rfl⟩, .one hd⟩

theorem readArgs_sound {expr : Reader} (hexpr : Reads .expr expr) {ts rest : List Lexeme}
    {es : List Expr} {close : Nat} (h : readArgs stop expr ts = .ok (es, close, rest)) :
    ∃ used q, ts = used ++ ⟨.symbol .closeParen, q⟩ :: rest ∧ q.stop = close ∧
      DerivesArgs used es := by
  rcases readArgs_eq_ok.mp h with ⟨q, rfl, hq, rfl⟩ | ⟨-, h⟩
  · exact ⟨[], q, rfl, hq, .none⟩
  · obtain ⟨used, q, hts, hq, -, hargs⟩ := args_sound hexpr h
    exact ⟨used, q, hts, hq, hargs⟩

theorem readMember_sound {expr : Reader} (hexpr : Reads .expr expr) {ts rest : List Lexeme}
    {m : String × Expr} (h : readMember stop expr ts = .ok (m, rest)) :
    ∃ used, ts = used ++ rest ∧ DerivesMember used m := by
  rcases readMember_eq_ok.mp h with ⟨p, q, us, rfl, he⟩ | ⟨-, he, hn⟩
  · obtain ⟨used, rfl, hd⟩ := hexpr he
    exact ⟨⟨.name m.1, p⟩ :: ⟨.symbol .assign, q⟩ :: used, rfl, .named hd⟩
  · obtain ⟨used, hts, hd⟩ := hexpr he
    exact ⟨used, hts, .suggested hd hn⟩

theorem readMembersUpTo_sound {expr : Reader} (hexpr : Reads .expr expr) :
    ∀ {n : Nat} {ts : List Lexeme} {ms : List (String × Expr)} {close : Nat}
      {rest : List Lexeme}, readMembersUpTo stop expr n ts = .ok (ms, close, rest) →
        ∃ used q, ts = used ++ ⟨.symbol .closeBrace, q⟩ :: rest ∧ q.stop = close ∧
          DerivesMembers used ms := by
  intro n
  induction n with
  | zero => intro ts ms close rest h; cases h
  | succ n ih =>
      intro ts ms close rest h
      rcases readMembersUpTo_eq_ok.mp h with ⟨q, rfl, hq, rfl⟩ | ⟨-, m, us, hm, hrest⟩
      · exact ⟨[], q, rfl, hq, .none⟩
      · obtain ⟨used, rfl, hd⟩ := readMember_sound hexpr hm
        rcases hrest with ⟨c, vs, ks, rfl, hks, rfl⟩ | ⟨q, rfl, hq, rfl⟩
        · obtain ⟨more, q, rfl, hq, hms⟩ := ih hks
          exact ⟨used ++ ⟨.symbol .comma, c⟩ :: more, q, by simp, hq, .more hd hms⟩
        · exact ⟨used, q, rfl, hq, .last hd⟩

/-! ### One level of the budget -/

variable {below : Rules}

/-- A primary expression in front of which no operator and no cast was read. -/
theorem primaryAt_sound (hbelow : below.Sound) {ts rest : List Lexeme} {e : Expr}
    (hlead : Lead.next? ts = none) (h : primaryAt stop below ts = .ok (e, rest)) :
    ∃ used, ts = used ++ rest ∧ Derives .primary used e ∧
      (IsMath used → ∀ d us, rest ≠ ⟨.symbol .dot, d⟩ :: us) := by
  cases primaryAt_eq_ok.mp h with
  | @literal t q v _ hv =>
      refine ⟨[⟨t, q⟩], rfl, .literal hv, ?_⟩
      rintro ⟨s, hs⟩
      cases hs
      cases hv
  | @name n q _ hn =>
      refine ⟨[⟨.name n, q⟩], rfl, .name, ?_⟩
      rintro ⟨s, hs⟩
      cases hs
      exact hn rfl
  | @math q d f p function us _ args close hargs =>
      obtain ⟨used, r, rfl, rfl, hd⟩ := readArgs_sound hbelow.expr hargs
      refine ⟨_, ?_, .math (d := d) (q := f) (p := p) hd, ?_⟩
      · simp
      · rintro ⟨s, hs⟩
        cases hs
  | @paren p q us _ d hinner =>
      obtain ⟨used, rfl, hd⟩ := hbelow.expr hinner
      refine ⟨_, ?_, .paren hd ?_, ?_⟩
      · simp
      · -- a type in parentheses would have been read as a cast
        rintro n s rfl
        cases ht : CastType.ofName? n with
        | none => rfl
        | some t =>
            have hcast : Lead.next? (⟨.symbol .openParen, p⟩ ::
                ([⟨.name n, s⟩] ++ ⟨.symbol .closeParen, q⟩ :: rest)) = some (.cast t, rest) :=
              Lead.next?_eq_some.mpr (Or.inr ⟨p, n, s, q, t, rfl, ht, rfl⟩)
            rw [hcast] at hlead
            cases hlead
      · rintro ⟨s, hs⟩
        cases hs
  | @record q p us _ members close hms =>
      obtain ⟨used, r, rfl, rfl, hd⟩ := readMembersUpTo_sound hbelow.expr hms
      refine ⟨_, ?_, .record (p := p) hd, ?_⟩
      · simp
      · rintro ⟨s, hs⟩
        cases hs

theorem membersAt_sound (hbelow : below.Sound) {front ts rest : List Lexeme}
    {target e : Expr} (htarget : Derives .access front target)
    (hmath : IsMath front → ∀ d us, ts ≠ ⟨.symbol .dot, d⟩ :: us)
    (h : membersAt below target ts = .ok (e, rest)) :
    ∃ used, ts = used ++ rest ∧ Derives .access (front ++ used) e := by
  rcases membersAt_eq_ok.mp h with ⟨d, us, rfl, hmember⟩ | ⟨-, rfl, rfl⟩
  · have hne : ¬ IsMath front := fun hm => hmath hm d us rfl
    obtain ⟨used, rfl, hd⟩ := hbelow.member d htarget hne hmember
    exact ⟨⟨.symbol .dot, d⟩ :: used, rfl, by simpa using hd⟩
  · exact ⟨[], rfl, by simpa using htarget⟩

theorem memberAt_sound (hbelow : below.Sound) {front : List Lexeme} {target : Expr} (d : Span)
    (htarget : Derives .access front target) (hmath : ¬ IsMath front) :
    Extends .access (front ++ [⟨.symbol .dot, d⟩]) (memberAt stop below target) := by
  have hne : ∀ s, front ≠ [⟨.name "Math", s⟩] := fun s hs => hmath ⟨s, hs⟩
  intro ts e rest h
  obtain ⟨n, q, us, rfl, hnext⟩ := memberAt_eq_ok.mp h
  rcases hnext with ⟨p, vs, args, close, ws, rfl, hcall, hmore⟩ | ⟨-, hmore⟩
  · obtain ⟨used, r, rfl, rfl, hargs⟩ := readArgs_sound hbelow.expr hcall
    have hmethod := Derives.method (n := n) (d := d) (q := q) (p := p) (r := r) htarget hne hargs
    obtain ⟨more, rfl, hd⟩ := membersAt_sound hbelow hmethod (absurd · not_isMath_of_dot) hmore
    refine ⟨⟨.name n, q⟩ :: ⟨.symbol .openParen, p⟩ ::
      (used ++ ⟨.symbol .closeParen, r⟩ :: more), by simp, by simpa using hd⟩
  · have hmember := Derives.member (n := n) (d := d) (q := q) htarget hne
    obtain ⟨more, rfl, hd⟩ := membersAt_sound hbelow hmember (absurd · not_isMath_of_dot) hmore
    exact ⟨⟨.name n, q⟩ :: more, by simp, by simpa using hd⟩

theorem unaryAt_sound (hbelow : below.Sound) : Reads .unary (unaryAt stop below) := by
  intro ts e rest h
  rcases unaryAt_eq_ok.mp h with ⟨lead, us, d, hlead, hread, rfl⟩ | ⟨hlead, d, us, hread, hmore⟩
  · obtain ⟨used, rfl, hd⟩ := hbelow.unary hread
    rcases Lead.next?_eq_some.mp hlead with
      ⟨s, p, op, rfl, hop, rfl⟩ | ⟨p, n, q, r, t, rfl, ht, rfl⟩
    · obtain rfl := UnaryOp.ofSymbol?_eq_some hop
      exact ⟨_, rfl, .prefixed hd⟩
    · exact ⟨_, rfl, .cast ht hd⟩
  · obtain ⟨used, rfl, hd, hmath⟩ := primaryAt_sound hbelow hlead hread
    obtain ⟨more, rfl, hd⟩ := membersAt_sound hbelow (.access hd) hmath hmore
    exact ⟨used ++ more, by simp, .unary hd⟩

theorem chainAt_sound (hbelow : below.Sound) (t : Tier) {front : List Lexeme} {lhs : Expr}
    (hlhs : Derives (.tier t) front lhs) :
    Extends (.tier t) front (chainAt below t t.tighter lhs) := by
  intro ts e rest h
  rcases chainAt_eq_ok.mp h with ⟨op, us, rhs, vs, hnext, hread, hmore⟩ | ⟨-, rfl, rfl⟩
  · obtain ⟨s, q, rfl, hop⟩ := Tier.next?_eq_some.mp hnext
    obtain ⟨htier, rfl⟩ := Tier.opOf?_eq_some hop
    obtain ⟨used, rfl, hrhs⟩ := hbelow.level t hread
    obtain ⟨more, rfl, hd⟩ := hbelow.chain t (.infixed (q := q) htier hlhs hrhs) hmore
    exact ⟨⟨.symbol op.symbol, q⟩ :: (used ++ more), by simp, by simpa using hd⟩
  · exact ⟨[], rfl, by simpa using hlhs⟩

theorem tierAt_sound (hbelow : below.Sound) {t : Tier}
    (hoperand : Reads t.operand (levelAt stop below t.tighter)) :
    Reads (.tier t) (levelAt stop below (t :: t.tighter)) := by
  intro ts e rest h
  obtain ⟨lhs, us, hread, hmore⟩ := levelAt_cons_eq_ok.mp h
  obtain ⟨used, rfl, hlhs⟩ := hoperand hread
  obtain ⟨more, rfl, hd⟩ := chainAt_sound hbelow t (.operand hlhs) hmore
  exact ⟨used ++ more, by simp, hd⟩

theorem operandAt_sound (hbelow : below.Sound) :
    ∀ t : Tier, Reads t.operand (levelAt stop below t.tighter) :=
  Tier.operand_induction (P := fun p tiers => Reads p (levelAt stop below tiers))
    (unaryAt_sound hbelow) (fun _ => tierAt_sound hbelow)

theorem coalesceAt_sound (hbelow : below.Sound) :
    Reads .coalesce (coalesceAt stop below) := by
  intro ts e rest h
  obtain ⟨lhs, us, hread, hmore⟩ := coalesceAt_eq_ok.mp h
  obtain ⟨used, rfl, hlhs⟩ := tierAt_sound hbelow (operandAt_sound hbelow .or) hread
  rcases hmore with ⟨q, vs, rhs, rfl, hread, rfl⟩ | ⟨-, rfl, rfl⟩
  · obtain ⟨more, rfl, hrhs⟩ := hbelow.coalesce hread
    exact ⟨used ++ ⟨.symbol .coalesce, q⟩ :: more, by simp, .orElse hlhs hrhs⟩
  · exact ⟨used, rfl, .coalesce hlhs⟩

theorem exprAt_sound (hbelow : below.Sound) : Reads .expr (exprAt stop below) := by
  intro ts e rest h
  obtain ⟨test, us, hread, hmore⟩ := exprAt_eq_ok.mp h
  obtain ⟨used, rfl, htest⟩ := coalesceAt_sound hbelow hread
  rcases hmore with ⟨p, vs, yes, q, ws, no, rfl, hthen, helse, rfl⟩ | ⟨-, rfl, rfl⟩
  · obtain ⟨mid, rfl, hyes⟩ := hbelow.expr hthen
    obtain ⟨last, rfl, hno⟩ := hbelow.expr helse
    exact ⟨used ++ ⟨.symbol .question, p⟩ :: (mid ++ ⟨.symbol .colon, q⟩ :: last), by simp,
      .conditional htest hyes hno⟩
  · exact ⟨used, rfl, .expr htest⟩

theorem sound_deepen (hbelow : below.Sound) : (deepen stop below).Sound where
  expr := exprAt_sound hbelow
  coalesce := coalesceAt_sound hbelow
  level := operandAt_sound hbelow
  chain := chainAt_sound hbelow
  unary := unaryAt_sound hbelow
  member := memberAt_sound hbelow

/-- Whatever the budget, each rule reads the phrase it is for. -/
theorem sound_ofBudget (n : Nat) : (ofBudget stop n).Sound := by
  induction n with
  | zero => exact sound_exhausted
  | succ n ih => exact sound_deepen ih

end Rules

/-! ### Lambdas -/

theorem readParam_sound {ts rest : List Lexeme} {param : String}
    (h : readParam stop ts = .ok (param, rest)) :
    ∃ used, ts = used ++ rest ∧ DerivesParam used param := by
  rcases readParam_eq_ok.mp h with ⟨p, q, r, rfl⟩ | ⟨q, rfl⟩
  · exact ⟨_, rfl, .paren (p := p) (q := q) (r := r)⟩
  · exact ⟨_, rfl, .bare (q := q)⟩

theorem readLambda_sound {ts : List Lexeme} {lambda : LambdaExpr}
    (h : readLambda stop ts = .ok lambda) : Sentence ts lambda := by
  obtain ⟨a, us, hparam, hread⟩ := readLambda_eq_ok.mp h
  obtain ⟨used, rfl, hd⟩ := readParam_sound hparam
  obtain ⟨more, hmore, hbody⟩ := (Rules.sound_ofBudget maxDepth).expr hread
  rw [List.append_nil] at hmore
  subst hmore
  exact .lambda hd hbody

end LambdaShell
