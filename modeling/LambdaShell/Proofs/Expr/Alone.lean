/-
Expressions cut out of their context.

Every node of a tree is read alone: some tokens in a row, read as a whole expression with the
full budget, give back that very node.  Cut off behind it, an operand is read to its end; and a
reader for operands of any strength, come to the end of its tokens, is as good as the one for
whole expressions, since all the looser levels find nothing to go on with.

An operator or a member that is not the last of its chain is a node that no reader answers.  It
is what the chain has come to when its tokens are cut off there, so it is read by the chain that
reads the whole.
-/
import LambdaShell.Proofs.Expr.Cuts
import LambdaShell.Proofs.Expr.Parts
import LambdaShell.Proofs.Expr.Sentences

namespace LambdaShell

variable {stop n m : Nat} {ts us rest : List Lexeme} {e : Expr}

theorem Expr.children_withSpan (s : Span) (e : Expr) : (e.withSpan s).children = e.children := by
  cases e <;> rfl

namespace Rules

/-! ### Tokens that are read alone -/

/-- Some of the tokens, in a row, are read as the expression with a budget of `n`. -/
def Alone (stop n : Nat) (ts : List Lexeme) (e : Expr) : Prop :=
  ∃ used, used <:+: ts ∧ (ofBudget stop n).expr used = .ok (e, [])

theorem Alone.within (h : Alone stop n us e) (hus : us <:+: ts) : Alone stop n ts e := by
  obtain ⟨used, hused, hread⟩ := h
  exact ⟨used, hused.trans hus, hread⟩

/-- A greater budget reads the same. -/
theorem Alone.mono (h : Alone stop n ts e) (hnm : n ≤ m) : Alone stop m ts e := by
  obtain ⟨used, hused, hread⟩ := h
  refine ⟨used, hused, ?_⟩
  rcases (ofBudget_within hnm).expr used with heq | ⟨offset, herr⟩
  · rw [← heq, hread]
  · rw [hread] at herr
    cases herr

/-! ### Looser readers at the end of the tokens -/

theorem exprAt_of_coalesceAt {below : Rules} (h : coalesceAt stop below ts = .ok (e, [])) :
    exprAt stop below ts = .ok (e, []) :=
  exprAt_eq_ok.mpr ⟨e, [], h, Or.inr ⟨nofun, rfl, rfl⟩⟩

theorem exprAt_of_levelAt {below : Rules} {tiers : List Tier} (htiers : tiers <:+ Tier.all)
    (h : levelAt stop below tiers ts = .ok (e, [])) : exprAt stop below ts = .ok (e, []) := by
  have hall : ∀ looser : List Tier, levelAt stop below (looser ++ tiers) ts = .ok (e, []) := by
    intro looser
    induction looser with
    | nil => exact h
    | cons t looser ih =>
        exact levelAt_cons_eq_ok.mpr ⟨e, [], ih, chainAt_eq_ok.mpr (Or.inr ⟨rfl, rfl, rfl⟩)⟩
  obtain ⟨looser, hlooser⟩ := htiers
  have hread := hall looser
  rw [hlooser] at hread
  exact exprAt_of_coalesceAt (coalesceAt_eq_ok.mpr ⟨e, [], hread, Or.inr ⟨nofun, rfl, rfl⟩⟩)

theorem alone_of_expr (h : (ofBudget stop n).expr ts = .ok (e, rest)) : Alone stop n ts e := by
  obtain ⟨used, rfl, hread⟩ := (cut_ofBudget n).expr.alone h
  exact ⟨used, (List.prefix_append _ _).isInfix, hread⟩

theorem alone_of_coalesceAt (h : coalesceAt stop (ofBudget stop n) ts = .ok (e, rest)) :
    Alone stop (n + 1) ts e := by
  obtain ⟨used, rfl, hread⟩ := (coalesceAt_cuts (cut_ofBudget n)).alone h
  exact ⟨used, (List.prefix_append _ _).isInfix, exprAt_of_coalesceAt hread⟩

theorem alone_of_levelAt {tiers : List Tier} (htiers : tiers <:+ Tier.all)
    (h : levelAt stop (ofBudget stop n) tiers ts = .ok (e, rest)) : Alone stop (n + 1) ts e := by
  obtain ⟨used, rfl, hread⟩ := (levelAt_cuts (cut_ofBudget n) tiers).alone h
  exact ⟨used, (List.prefix_append _ _).isInfix, exprAt_of_levelAt htiers hread⟩

theorem alone_of_coalesce (h : (ofBudget stop n).coalesce ts = .ok (e, rest)) :
    Alone stop n ts e := by
  cases n with
  | zero => cases h
  | succ n => exact alone_of_coalesceAt h

theorem alone_of_level {tiers : List Tier} (htiers : tiers <:+ Tier.all)
    (h : (ofBudget stop n).level tiers ts = .ok (e, rest)) : Alone stop n ts e := by
  cases n with
  | zero => cases h
  | succ n => exact alone_of_levelAt htiers h

theorem alone_of_unary (h : (ofBudget stop n).unary ts = .ok (e, rest)) : Alone stop n ts e := by
  cases n with
  | zero => cases h
  | succ n => exact alone_of_levelAt List.nil_suffix h

/-! ### Lists -/

section Lists

variable {close : Nat}

theorem alone_of_readArgsUpTo {k : Nat} {es : List Expr}
    (h : readArgsUpTo stop (ofBudget stop n).expr k ts = .ok (es, close, rest)) :
    ∀ c ∈ es, Alone stop n ts c := by
  induction k generalizing ts es with
  | zero => cases h
  | succ k ih =>
      obtain ⟨d, us, hd, hrest⟩ := readArgsUpTo_eq_ok.mp h
      have hfirst : Alone stop n ts d := alone_of_expr hd
      obtain ⟨used, rfl, -⟩ := (cut_ofBudget n).expr hd
      rcases hrest with ⟨q, vs, ds, rfl, hds, rfl⟩ | ⟨q, rfl, -, rfl⟩
      · refine List.forall_mem_cons.mpr ⟨hfirst, fun c hc => (ih hds c hc).within ?_⟩
        exact ⟨used ++ [⟨.symbol .comma, q⟩], [], by simp⟩
      · exact List.forall_mem_singleton.mpr hfirst

theorem alone_of_readArgs {es : List Expr}
    (h : readArgs stop (ofBudget stop n).expr ts = .ok (es, close, rest)) :
    ∀ c ∈ es, Alone stop n ts c := by
  rcases readArgs_eq_ok.mp h with ⟨q, rfl, -, rfl⟩ | ⟨-, h⟩
  · exact List.forall_mem_nil _
  · exact alone_of_readArgsUpTo h

theorem alone_of_readMember {k : String × Expr}
    (h : readMember stop (ofBudget stop n).expr ts = .ok (k, rest)) : Alone stop n ts k.2 := by
  rcases readMember_eq_ok.mp h with ⟨p, q, us, rfl, he⟩ | ⟨-, he, -⟩
  · exact (alone_of_expr he).within ⟨[⟨.name k.1, p⟩, ⟨.symbol .assign, q⟩], [], by simp⟩
  · exact alone_of_expr he

theorem alone_of_readMembersUpTo {k : Nat} {ms : List (String × Expr)}
    (h : readMembersUpTo stop (ofBudget stop n).expr k ts = .ok (ms, close, rest)) :
    ∀ c ∈ ms.map (·.2), Alone stop n ts c := by
  induction k generalizing ts ms with
  | zero => cases h
  | succ k ih =>
      rcases readMembersUpTo_eq_ok.mp h with ⟨q, rfl, -, rfl⟩ | ⟨-, d, us, hd, hrest⟩
      · exact List.forall_mem_nil _
      · have hfirst : Alone stop n ts d.2 := alone_of_readMember hd
        obtain ⟨used, rfl, -⟩ := readMember_cuts (cut_ofBudget n).expr hd
        rcases hrest with ⟨q, vs, ds, rfl, hds, rfl⟩ | ⟨q, rfl, -, rfl⟩
        · refine List.forall_mem_cons.mpr ⟨hfirst, fun c hc => (ih hds c hc).within ?_⟩
          exact ⟨used ++ [⟨.symbol .comma, q⟩], [], by simp⟩
        · exact List.forall_mem_singleton.mpr hfirst

end Lists

/-! ### The last link of a chain -/

/-- A chain of operators has come to its first operand, or its last operator stands between what
it has come to in front of it and an operand. -/
theorem chain_last {t : Tier} {tiers : List Tier} (htiers : tiers <:+ Tier.all) {lhs : Expr}
    (h : chainAt (ofBudget stop n) t tiers lhs ts = .ok (e, [])) :
    (e = lhs ∧ ts = []) ∨ ∃ front behind before, ts = front ++ behind ∧
      chainAt (ofBudget stop n) t tiers lhs front = .ok (before, []) ∧
      ∀ c ∈ e.children, c = before ∨ Alone stop n behind c := by
  induction n generalizing lhs ts with
  | zero =>
      rcases chainAt_eq_ok.mp h with ⟨op, us, rhs, vs, -, hread, -⟩ | ⟨-, rfl, rfl⟩
      · cases hread
      · exact Or.inl ⟨rfl, rfl⟩
  | succ n ih =>
      rcases chainAt_eq_ok.mp h with ⟨op, us, rhs, vs, hnext, hread, hmore⟩ | ⟨-, rfl, rfl⟩
      · refine Or.inr ?_
        obtain ⟨s, q, rfl, hop⟩ := Tier.next?_eq_some.mp hnext
        rcases ih hmore with ⟨rfl, rfl⟩ | ⟨front, behind, before, rfl, hfront, hchildren⟩
        · refine ⟨[], _, lhs, rfl, chainAt_eq_ok.mpr (Or.inr ⟨rfl, rfl, rfl⟩), ?_⟩
          have hrhs : Alone stop (n + 1) (⟨.symbol s, q⟩ :: us) rhs :=
            (alone_of_level htiers hread).within (List.suffix_cons _ _).isInfix
          exact List.forall_mem_cons.mpr ⟨Or.inl rfl, List.forall_mem_singleton.mpr (Or.inr hrhs)⟩
        · obtain ⟨used, rfl, hcut⟩ := (cut_ofBudget (n + 1)).level tiers hread
          refine ⟨⟨.symbol s, q⟩ :: (used ++ front), behind, before, by simp, ?_,
            fun c hc => (hchildren c hc).imp_right fun hc => hc.mono (Nat.le_succ n)⟩
          exact chainAt_eq_ok.mpr (Or.inl ⟨op, used ++ front, rhs, front,
            Tier.next?_eq_some.mpr ⟨s, q, rfl, hop⟩, hcut front (List.prefix_append _ _), hfront⟩)
      · exact Or.inl ⟨rfl, rfl⟩

/-- So with members: the last one is that of what the others have come to. -/
theorem members_last {target : Expr}
    (h : membersAt (ofBudget stop n) target ts = .ok (e, [])) :
    (e = target ∧ ts = []) ∨ ∃ front behind before, ts = front ++ behind ∧
      membersAt (ofBudget stop n) target front = .ok (before, []) ∧
      ∀ c ∈ e.children, c = before ∨ Alone stop n behind c := by
  induction n generalizing target ts with
  | zero =>
      rcases membersAt_eq_ok.mp h with ⟨d, us, rfl, hmember⟩ | ⟨-, rfl, rfl⟩
      · cases hmember
      · exact Or.inl ⟨rfl, rfl⟩
  | succ n ih =>
      rcases membersAt_eq_ok.mp h with ⟨d, us, rfl, hmember⟩ | ⟨-, rfl, rfl⟩
      · refine Or.inr ?_
        have hnone : membersAt (ofBudget stop (n + 1)) target [] = .ok (target, []) := rfl
        obtain ⟨k, q, vs, rfl, hnext⟩ := memberAt_eq_ok.mp hmember
        rcases hnext with ⟨p, us, args, close, ws, rfl, hargs, hmore⟩ | ⟨hne, hmore⟩
        · rcases ih hmore with ⟨rfl, rfl⟩ | ⟨front, behind, before, rfl, hfront, hchildren⟩
          · refine ⟨[], _, target, rfl, hnone, List.forall_mem_cons.mpr ⟨Or.inl rfl, ?_⟩⟩
            intro c hc
            refine Or.inr (((alone_of_readArgs hargs c hc).mono (Nat.le_succ n)).within ?_)
            exact ⟨[⟨.symbol .dot, d⟩, ⟨.name k, q⟩, ⟨.symbol .openParen, p⟩], [], by simp⟩
          · obtain ⟨used, rfl, hcut⟩ := readArgs_cuts (cut_ofBudget n).expr hargs
            refine ⟨⟨.symbol .dot, d⟩ :: ⟨.name k, q⟩ :: ⟨.symbol .openParen, p⟩ :: (used ++ front),
              behind, before, by simp, ?_,
              fun c hc => (hchildren c hc).imp_right fun hc => hc.mono (Nat.le_succ n)⟩
            have hcall := hcut front (List.prefix_append _ _)
            exact membersAt_eq_ok.mpr (Or.inl ⟨d, _, rfl, memberAt_eq_ok.mpr ⟨k, q, _, rfl,
              Or.inl ⟨p, _, args, close, front, rfl, hcall, hfront⟩⟩⟩)
        · rcases ih hmore with ⟨rfl, rfl⟩ | ⟨front, behind, before, rfl, hfront, hchildren⟩
          · exact ⟨[], _, target, rfl, hnone, List.forall_mem_singleton.mpr (Or.inl rfl)⟩
          · refine ⟨⟨.symbol .dot, d⟩ :: ⟨.name k, q⟩ :: front, behind, before, by simp, ?_,
              fun c hc => (hchildren c hc).imp_right fun hc => hc.mono (Nat.le_succ n)⟩
            have hno := ne_cons_of_front (List.prefix_append front behind) hne
            exact membersAt_eq_ok.mpr (Or.inl ⟨d, _, rfl, memberAt_eq_ok.mpr ⟨k, q, _, rfl,
              Or.inr ⟨hno, hfront⟩⟩⟩)
      · exact Or.inl ⟨rfl, rfl⟩

/-! ### Children -/

/-- The children of whatever is read as a whole expression with a budget of `n` are read alone. -/
def ChildrenAlone (stop n : Nat) : Prop :=
  ∀ ⦃ts : List Lexeme⦄ ⦃e : Expr⦄, (ofBudget stop n).expr ts = .ok (e, []) →
    ∀ c ∈ e.children, Alone stop n ts c

theorem primary_children (hbelow : ChildrenAlone stop n)
    (h : primaryAt stop (ofBudget stop n) ts = .ok (e, rest)) :
    ∀ c ∈ e.children, Alone stop n ts c := by
  cases primaryAt_eq_ok.mp h with
  | literal hv => exact List.forall_mem_nil _
  | name hn => exact List.forall_mem_nil _
  | @math q d f p function us _ args close hargs =>
      exact fun c hc => (alone_of_readArgs hargs c hc).within
        ⟨[⟨.name "Math", q⟩, ⟨.symbol .dot, d⟩, ⟨.name function, f⟩, ⟨.symbol .openParen, p⟩], [],
          by simp⟩
  | @paren p q us _ d hinner =>
      -- the parentheses are no node, so the children are those of what is between them
      obtain ⟨used, rfl, hread⟩ := (cut_ofBudget n).expr.alone hinner
      rw [Expr.children_withSpan]
      exact fun c hc => (hbelow hread c hc).within
        ⟨[⟨.symbol .openParen, p⟩], ⟨.symbol .closeParen, q⟩ :: rest, by simp⟩
  | @record q p us _ members close hms =>
      exact fun c hc => (alone_of_readMembersUpTo hms c hc).within
        ⟨[⟨.keyword .new, q⟩, ⟨.symbol .openBrace, p⟩], [], by simp⟩

theorem unaryAt_children (hbelow : ChildrenAlone stop n)
    (h : unaryAt stop (ofBudget stop n) ts = .ok (e, [])) :
    ∀ c ∈ e.children, Alone stop (n + 1) ts c := by
  rcases unaryAt_eq_ok.mp h with ⟨lead, us, d, hlead, hread, rfl⟩ | ⟨hlead, d, us, hread, hmore⟩
  · have hsuffix : us <:+ ts := by
      rcases Lead.next?_eq_some.mp hlead with
        ⟨s, p, op, rfl, -, -⟩ | ⟨p, k, q, r, t, rfl, -, -⟩
      · exact ⟨[⟨.symbol s, p⟩], rfl⟩
      · exact ⟨[⟨.symbol .openParen, p⟩, ⟨.name k, q⟩, ⟨.symbol .closeParen, r⟩], rfl⟩
    have hoperand := ((alone_of_unary hread).mono (Nat.le_succ n)).within hsuffix.isInfix
    cases lead <;> exact List.forall_mem_singleton.mpr hoperand
  · rcases members_last hmore with ⟨rfl, rfl⟩ | ⟨front, behind, before, rfl, hfront, hchildren⟩
    · exact fun c hc => (primary_children hbelow hread c hc).mono (Nat.le_succ n)
    · obtain ⟨used, rfl, hcut⟩ := primaryAt_cuts (cut_ofBudget n) hread
      have hcutoff : front <+: front ++ behind := List.prefix_append _ _
      have hnone : Lead.next? (used ++ front) = none :=
        Lead.next?_none_of_front (by simp) hlead
      have hbefore : unaryAt stop (ofBudget stop n) (used ++ front) = .ok (before, []) :=
        unaryAt_eq_ok.mpr (Or.inr ⟨hnone, d, front, hcut front hcutoff, hfront⟩)
      intro c hc
      rcases hchildren c hc with rfl | hc
      · exact (alone_of_levelAt List.nil_suffix hbefore).within ⟨[], behind, by simp⟩
      · exact (hc.mono (Nat.le_succ n)).within ⟨used ++ front, [], by simp⟩

theorem levelAt_children (hbelow : ChildrenAlone stop n) {tiers : List Tier}
    (htiers : tiers <:+ Tier.all)
    (h : levelAt stop (ofBudget stop n) tiers ts = .ok (e, [])) :
    ∀ c ∈ e.children, Alone stop (n + 1) ts c := by
  induction tiers generalizing ts e with
  | nil => exact unaryAt_children hbelow h
  | cons t tiers ih =>
      have htighter : tiers <:+ Tier.all := (List.suffix_cons t tiers).trans htiers
      obtain ⟨lhs, us, hread, hmore⟩ := levelAt_cons_eq_ok.mp h
      rcases chain_last htighter hmore with
        ⟨rfl, rfl⟩ | ⟨front, behind, before, rfl, hfront, hchildren⟩
      · exact ih htighter hread
      · obtain ⟨used, rfl, hcut⟩ := levelAt_cuts (cut_ofBudget n) tiers hread
        have hbefore : levelAt stop (ofBudget stop n) (t :: tiers) (used ++ front)
            = .ok (before, []) :=
          levelAt_cons_eq_ok.mpr ⟨lhs, front, hcut front (List.prefix_append _ _), hfront⟩
        intro c hc
        rcases hchildren c hc with rfl | hc
        · exact (alone_of_levelAt htiers hbefore).within ⟨[], behind, by simp⟩
        · exact (hc.mono (Nat.le_succ n)).within ⟨used ++ front, [], by simp⟩

theorem coalesceAt_children (hbelow : ChildrenAlone stop n)
    (h : coalesceAt stop (ofBudget stop n) ts = .ok (e, [])) :
    ∀ c ∈ e.children, Alone stop (n + 1) ts c := by
  obtain ⟨lhs, us, hread, hmore⟩ := coalesceAt_eq_ok.mp h
  rcases hmore with ⟨q, vs, rhs, rfl, hrhs, rfl⟩ | ⟨-, rfl, rfl⟩
  · have hleft : Alone stop (n + 1) ts lhs := alone_of_levelAt (List.suffix_refl _) hread
    have hright : Alone stop (n + 1) vs rhs := (alone_of_coalesce hrhs).mono (Nat.le_succ n)
    obtain ⟨used, rfl, -⟩ := levelAt_cuts (cut_ofBudget n) Tier.all hread
    refine List.forall_mem_cons.mpr ⟨hleft, List.forall_mem_singleton.mpr (hright.within ?_)⟩
    exact ⟨used ++ [⟨.symbol .coalesce, q⟩], [], by simp⟩
  · exact levelAt_children hbelow (List.suffix_refl _) hread

theorem exprAt_children (hbelow : ChildrenAlone stop n)
    (h : exprAt stop (ofBudget stop n) ts = .ok (e, [])) :
    ∀ c ∈ e.children, Alone stop (n + 1) ts c := by
  obtain ⟨test, us, hread, hmore⟩ := exprAt_eq_ok.mp h
  rcases hmore with ⟨p, vs, yes, q, ws, no, rfl, hthen, helse, rfl⟩ | ⟨-, rfl, rfl⟩
  · have htest : Alone stop (n + 1) ts test := alone_of_coalesceAt hread
    have hyes : Alone stop (n + 1) vs yes := (alone_of_expr hthen).mono (Nat.le_succ n)
    have hno : Alone stop (n + 1) ws no := (alone_of_expr helse).mono (Nat.le_succ n)
    obtain ⟨used, rfl, -⟩ := coalesceAt_cuts (cut_ofBudget n) hread
    obtain ⟨mid, rfl, -⟩ := (cut_ofBudget n).expr hthen
    refine List.forall_mem_cons.mpr ⟨htest, List.forall_mem_cons.mpr
      ⟨hyes.within ?_, List.forall_mem_singleton.mpr (hno.within ?_)⟩⟩
    · exact ⟨used ++ [⟨.symbol .question, p⟩], [], by simp⟩
    · exact ⟨used ++ ⟨.symbol .question, p⟩ :: (mid ++ [⟨.symbol .colon, q⟩]), [], by simp⟩
  · exact coalesceAt_children hbelow hread

theorem childrenAlone (n : Nat) : ChildrenAlone stop n := by
  induction n with
  | zero => exact fun _ _ h => nomatch h
  | succ n ih => exact fun _ _ h => exprAt_children ih h

/-- **Every node is read alone**: some of the tokens of a whole expression, in a row, are read as
the node with the same budget. -/
theorem part_alone (h : (ofBudget stop n).expr ts = .ok (e, [])) :
    ∀ d ∈ e.parts, Alone stop n ts d := by
  refine Expr.parts_closed (P := Alone stop n ts) ?_ e ⟨ts, List.infix_refl _, h⟩
  rintro d ⟨used, hused, hread⟩ c hc
  exact (childrenAlone n hread c hc).within hused

end Rules

end LambdaShell
