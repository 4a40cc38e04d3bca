/-
Which texts are lambdas.

A text is accepted when its tokens are a sentence of the grammar and no more levels are
needed than there are.  Soundness and completeness give both directions for the body; what
is left to say is that the budget decides nothing else.  Two budgets never build different
trees and never complain about different things: all that a smaller budget can do is to
give up.
-/
import Mathlib
import LambdaShell.Proofs.Expr.Completeness

namespace LambdaShell

variable {stop : Nat}

/-! ### Running out of levels -/

/-- The outcomes are the same, unless the first one is that the levels ran out. -/
def UpToDepth {α : Type} (x y : Except Issue α) : Prop :=
  x = y ∨ ∃ offset, x = .error ⟨offset, .tooDeep⟩

namespace UpToDepth

variable {α β : Type} {x y : Except Issue α} {f g : α → Except Issue β}

theorem refl (x : Except Issue α) : UpToDepth x x := Or.inl rfl

theorem bind (hxy : UpToDepth x y) (hfg : ∀ a, UpToDepth (f a) (g a)) :
    UpToDepth (x >>= f) (y >>= g) := by
  rcases hxy with rfl | ⟨offset, rfl⟩
  · cases x with
    | error issue => exact refl _
    | ok a => exact hfg a
  · exact Or.inr ⟨offset, rfl⟩

end UpToDepth

/-- The readers answer the same, unless the levels of the first one ran out. -/
def Reader.Within (r s : Reader) : Prop := ∀ ts, UpToDepth (r ts) (s ts)

section Lists

variable {r s : Reader}

theorem readArgsUpTo_within (h : Reader.Within r s) (n : Nat) (ts : List Lexeme) :
    UpToDepth (readArgsUpTo stop r n ts) (readArgsUpTo stop s n ts) := by
  induction n generalizing ts with
  | zero => exact .refl _
  | succ n ih =>
      refine (h ts).bind fun ⟨e, us⟩ => ?_
      dsimp only
      split
      · exact (ih _).bind fun _ => .refl _
      · exact .refl _

theorem readArgs_within (h : Reader.Within r s) (ts : List Lexeme) :
    UpToDepth (readArgs stop r ts) (readArgs stop s ts) := by
  unfold readArgs
  split
  · exact .refl _
  · exact readArgsUpTo_within h _ ts

theorem readMember_within (h : Reader.Within r s) (ts : List Lexeme) :
    UpToDepth (readMember stop r ts) (readMember stop s ts) := by
  unfold readMember
  split
  · exact (h _).bind fun _ => .refl _
  · exact (h _).bind fun _ => .refl _

theorem readMembersUpTo_within (h : Reader.Within r s) (n : Nat) (ts : List Lexeme) :
    UpToDepth (readMembersUpTo stop r n ts) (readMembersUpTo stop s n ts) := by
  induction n generalizing ts with
  | zero => exact .refl _
  | succ n ih =>
      rw [readMembersUpTo, readMembersUpTo]
      split
      · exact .refl _
      · refine (readMember_within h ts).bind fun read => ?_
        obtain ⟨m, us⟩ := read
        dsimp only
        split
        · exact (ih _).bind fun _ => .refl _
        · exact .refl _

end Lists

namespace Rules

/-- The first rules read what the second read, unless their levels run out. -/
structure Within (R S : Rules) : Prop where
  expr : R.expr.Within S.expr
  coalesce : R.coalesce.Within S.coalesce
  level : ∀ tiers, (R.level tiers).Within (S.level tiers)
  chain : ∀ t tiers e, (R.chain t tiers e).Within (S.chain t tiers e)
  unary : R.unary.Within S.unary
  member : ∀ e, (R.member e).Within (S.member e)

theorem exhausted_within (S : Rules) : (exhausted stop).Within S where
  expr _ := Or.inr ⟨_, rfl⟩
  coalesce _ := Or.inr ⟨_, rfl⟩
  level _ _ := Or.inr ⟨_, rfl⟩
  chain _ _ _ _ := Or.inr ⟨_, rfl⟩
  unary _ := Or.inr ⟨_, rfl⟩
  member _ _ := Or.inr ⟨_, rfl⟩

variable {R S : Rules} (h : R.Within S)
include h

theorem primaryAt_within : Reader.Within (primaryAt stop R) (primaryAt stop S) := by
  intro ts
  unfold primaryAt
  split
  · exact .refl _
  split
  · exact .refl _
  split
  · split
    · refine (UpToDepth.refl _).bind fun _ => (UpToDepth.refl _).bind fun _ => ?_
      exact (readArgs_within h.expr _).bind fun _ => .refl _
    · exact .refl _
  · exact (h.expr _).bind fun _ => .refl _
  · refine (UpToDepth.refl _).bind fun _ => ?_
    exact (readMembersUpTo_within h.expr _ _).bind fun _ => .refl _
  · exact .refl _

theorem membersAt_within (e : Expr) : Reader.Within (membersAt R e) (membersAt S e) := by
  intro ts
  unfold membersAt
  split
  · exact h.member e _
  · exact .refl _

theorem memberAt_within (e : Expr) : Reader.Within (memberAt stop R e) (memberAt stop S e) := by
  intro ts
  refine (UpToDepth.refl _).bind fun ⟨n, close, us⟩ => ?_
  dsimp only
  split
  · exact (readArgs_within h.expr _).bind fun _ => membersAt_within h _ _
  · exact membersAt_within h _ _

theorem unaryAt_within : Reader.Within (unaryAt stop R) (unaryAt stop S) := by
  intro ts
  unfold unaryAt
  split
  · exact (h.unary _).bind fun _ => .refl _
  · exact (primaryAt_within h ts).bind fun _ => membersAt_within h _ _

theorem chainAt_within (t : Tier) (tiers : List Tier) (e : Expr) :
    Reader.Within (chainAt R t tiers e) (chainAt S t tiers e) := by
  intro ts
  unfold chainAt
  split
  · exact (h.level tiers _).bind fun _ => h.chain t tiers _ _
  · exact .refl _

theorem levelAt_within (tiers : List Tier) :
    Reader.Within (levelAt stop R tiers) (levelAt stop S tiers) := by
  induction tiers with
  | nil => exact unaryAt_within h
  | cons t tiers ih => exact fun ts => (ih ts).bind fun _ => chainAt_within h t tiers _ _

theorem coalesceAt_within : Reader.Within (coalesceAt stop R) (coalesceAt stop S) := by
  intro ts
  refine (levelAt_within h Tier.all ts).bind fun ⟨e, us⟩ => ?_
  dsimp only
  split
  · exact (h.coalesce _).bind fun _ => .refl _
  · exact .refl _

theorem exprAt_within : Reader.Within (exprAt stop R) (exprAt stop S) := by
  intro ts
  refine (coalesceAt_within h ts).bind fun ⟨e, us⟩ => ?_
  dsimp only
  split
  · refine (h.expr _).bind fun _ => (UpToDepth.refl _).bind fun _ => ?_
    exact (h.expr _).bind fun _ => .refl _
  · exact .refl _

theorem deepen_within : (deepen stop R).Within (deepen stop S) where
  expr := exprAt_within h
  coalesce := coalesceAt_within h
  level := levelAt_within h
  chain := chainAt_within h
  unary := unaryAt_within h
  member := memberAt_within h

omit h in
/-- A smaller budget reads what a greater one reads, or gives up. -/
theorem ofBudget_within {n m : Nat} (hnm : n ≤ m) :
    (ofBudget stop n).Within (ofBudget stop m) := by
  induction n generalizing m with
  | zero => exact exhausted_within _
  | succ n ih =>
      obtain ⟨k, rfl⟩ := Nat.exists_eq_add_of_lt hnm
      exact deepen_within (ih (Nat.le_add_right n k))

end Rules

/-- A phrase of the grammar is read to its end with any budget that does not run out. -/
theorem Derives.expr_upToDepth {ts : List Lexeme} {e : Expr} (h : Derives .expr ts e) (n : Nat) :
    UpToDepth ((Rules.ofBudget stop n).expr ts) (.ok (e, [])) := by
  have hwithin : UpToDepth ((Rules.ofBudget stop n).expr ts)
      ((Rules.ofBudget stop (max n (cost ts + 1))).expr ts) :=
    (Rules.ofBudget_within (Nat.le_max_left _ _)).expr ts
  rwa [h.expr_eq (Nat.lt_of_lt_of_le (Nat.lt_succ_self _) (Nat.le_max_right _ _))] at hwithin

/-! ### Lambdas -/

theorem DerivesParam.complete {ps rest : List Lexeme} {param : String}
    (h : DerivesParam ps param) : readParam stop (ps ++ rest) = .ok (param, rest) := by
  cases h with
  | bare => exact readParam_eq_ok.mpr (Or.inr ⟨_, rfl⟩)
  | paren => exact readParam_eq_ok.mpr (Or.inl ⟨_, _, _, rfl⟩)

/-- A sentence whose body costs less than the limit is accepted. -/
theorem Sentence.complete {ps ts : List Lexeme} {param : String} {body : Expr} {a : Span}
    (hparam : DerivesParam ps param) (hbody : Derives .expr ts body) (hcost : cost ts < maxDepth) :
    readLambda stop (ps ++ ⟨.symbol .arrow, a⟩ :: ts) = .ok ⟨param, body⟩ :=
  readLambda_eq_ok.mpr ⟨a, ts, hparam.complete, hbody.expr_eq hcost⟩

/-- A sentence is accepted, or it needs more levels than there are. -/
theorem Sentence.upToDepth {ts : List Lexeme} {lambda : LambdaExpr} (h : Sentence ts lambda) :
    UpToDepth (readLambda stop ts) (.ok lambda) := by
  cases h with
  | lambda hparam hbody =>
      show UpToDepth (readParam stop _ >>= _) _
      rw [hparam.complete]
      exact (hbody.expr_upToDepth maxDepth).bind fun _ => .refl _

theorem Sentence.unique {ts : List Lexeme} {a b : LambdaExpr} (ha : Sentence ts a)
    (hb : Sentence ts b) : a = b := by
  cases ha with
  | @lambda ps us param body q hparam hbody =>
      generalize hts : ps ++ ⟨.symbol .arrow, q⟩ :: us = ts at hb
      cases hb with
      | @lambda ps' us' param' body' q' hparam' hbody' =>
          have hread : readParam 0 (ps ++ ⟨.symbol .arrow, q⟩ :: us)
              = .ok (param, ⟨.symbol .arrow, q⟩ :: us) := hparam.complete
          rw [hts, hparam'.complete] at hread
          cases hread
          rw [hbody.unique hbody']

/-- **What is accepted is a sentence**: the tokens of an accepted text, all of them and in
their order, are a sentence of the grammar, and the tree that was built is the one tree
that the grammar has for it. -/
theorem parseLambda_sentence {source : List Char} {lambda : LambdaExpr}
    (h : parseLambda source = .ok lambda) :
    ∃ ts, tokenize source = .ok ts ∧ Sentence ts lambda ∧
      ∀ other, Sentence ts other → other = lambda := by
  obtain ⟨ts, hts, hread⟩ := parseLambda_eq_ok.mp h
  have hsound := readLambda_sound hread
  exact ⟨ts, hts, hsound, fun _ hother => hother.unique hsound⟩

/-- The operators of `x ?? 7 - 2 - 1` group to the right at `??` and to the left at `-`. -/
theorem fallbackOfDifference_sentence :
    ∃ ts, tokenize "x => x ?? 7 - 2 - 1".toList = .ok ts ∧
      Sentence ts ⟨"x", .binary ⟨5, 19⟩ .coalesce (.name ⟨5, 6⟩ "x")
        (.binary ⟨10, 19⟩ .sub
          (.binary ⟨10, 15⟩ .sub (.literal ⟨10, 11⟩ (.int 7)) (.literal ⟨14, 15⟩ (.int 2)))
          (.literal ⟨18, 19⟩ (.int 1)))⟩ ∧ ∀ other, Sentence ts other → other =
      ⟨"x", .binary ⟨5, 19⟩ .coalesce (.name ⟨5, 6⟩ "x")
        (.binary ⟨10, 19⟩ .sub
          (.binary ⟨10, 15⟩ .sub (.literal ⟨10, 11⟩ (.int 7)) (.literal ⟨14, 15⟩ (.int 2)))
          (.literal ⟨18, 19⟩ (.int 1)))⟩ :=
  parseLambda_sentence (by cbv)

end LambdaShell
