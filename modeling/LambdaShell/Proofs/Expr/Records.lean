/-
Lambdas make no record with a repeated name.

There are three ways for a record to come out of an evaluation.  It may have been in the
item already, it may be a literal, or it is made by a record expression.  No literal is a
record, since none of the tokens that stand for values does; and a record expression that
passes the checks names its members apart.  Everything else that is computed holds no other
values, as the tables of kinds say.
-/
import LambdaShell.Proofs.Expr.Nodes
import LambdaShell.Proofs.Expr.Soundness
import LambdaShell.Proofs.Lambda
import LambdaShell.Proofs.Value.Records

namespace LambdaShell

open Eval

/-! ### What operations answer

The results of an operation are of a kind that its table gives, and no table gives the kind of
records or lists. -/

/-- The kind, if there is one, is that of values that hold no others. -/
def Kind.IsScalar? (k? : Option Kind) : Prop := ∀ k ∈ k?, k.isScalar = true

section Tables

variable {k l : Kind} {x y : Option Kind}

theorem Kind.isScalar?_none : IsScalar? none := nofun

theorem Kind.isScalar?_some (h : k.isScalar = true) : IsScalar? (some k) := by
  rintro _ ⟨⟩
  exact h

theorem Kind.isScalar?_ite {p : Prop} [Decidable p] (hx : p → IsScalar? x) (hy : IsScalar? y) :
    IsScalar? (if p then x else y) := by
  split
  · exact hx ‹p›
  · exact hy

open Kind

theorem Kind.isScalar_of_isNumber (h : k.isNumber = true) : k.isScalar = true := by
  cases k <;> first | rfl | cases h

theorem UnaryOp.kind?_isScalar? (op : UnaryOp) (k : Kind) : IsScalar? (op.kind? k) := by
  cases op with
  | not => exact isScalar?_ite (fun _ => isScalar?_some rfl) isScalar?_none
  | neg | plus =>
      exact isScalar?_ite (fun hk => isScalar?_some (isScalar_of_isNumber hk)) isScalar?_none

theorem Kind.arithmetic?_isScalar? (k l : Kind) : IsScalar? (k.arithmetic? l) :=
  isScalar?_ite (fun _ => isScalar?_some rfl)
    (isScalar?_ite (fun _ => isScalar?_some rfl) isScalar?_none)

theorem BinaryOp.kind?_isScalar? (op : BinaryOp) (k l : Kind) : IsScalar? (op.kind? k l) := by
  cases op with
  | add => exact isScalar?_ite (fun _ => isScalar?_some rfl) (k.arithmetic?_isScalar? l)
  | sub | mul | div | rem => exact k.arithmetic?_isScalar? l
  | eq | notEq => exact isScalar?_some rfl
  | lt | atMost | gt | atLeast =>
      exact isScalar?_ite (fun _ => isScalar?_some rfl) isScalar?_none
  | and | or | coalesce => exact isScalar?_none

theorem CastType.kind?_isScalar? {target : CastType} (h : target ≠ .object) (k : Kind) :
    IsScalar? (target.kind? k) := by
  cases target with
  | object => exact absurd rfl h
  | str => exact isScalar?_ite (fun _ => isScalar?_some rfl) (isScalar?_some rfl)
  | int | float | bool => exact isScalar?_ite (fun _ => isScalar?_some rfl) isScalar?_none

theorem methodKind?_isScalar? (n : String) (k : Kind) (ks : List Kind) :
    IsScalar? (methodKind? n k ks) := by
  have htext : IsScalar? (textMethodKind? n ks) := by
    unfold textMethodKind?
    split
    case h_7 => exact isScalar?_none
    case h_1 | h_2 | h_3 => exact isScalar?_some rfl
    all_goals exact isScalar?_ite (fun _ => isScalar?_some rfl) isScalar?_none
  refine isScalar?_ite (fun _ => isScalar?_none) ?_
  refine isScalar?_ite (fun _ => isScalar?_some rfl) ?_
  exact isScalar?_ite (fun _ => htext) isScalar?_none

theorem mathKind?_isScalar? (f : String) (ks : List Kind) : IsScalar? (mathKind? f ks) := by
  have hone : IsScalar? (oneNumber? ks) := by
    unfold oneNumber?
    split
    · exact isScalar?_ite (fun _ => isScalar?_some rfl) isScalar?_none
    · exact isScalar?_none
  have htwo : IsScalar? (twoNumbers? ks) := by
    unfold twoNumbers?
    split
    · exact isScalar?_ite (fun _ => isScalar?_some rfl) isScalar?_none
    · exact isScalar?_none
  have hfloat : IsScalar? (floatMathKind? f ks) := by
    unfold floatMathKind?
    split
    case h_1 | h_2 | h_3 | h_4 => exact hone
    case h_5 | h_6 | h_7 => exact htwo
    case h_8 =>
      split
      · exact hone
      · exact hone
      · exact isScalar?_none
    case h_9 => exact isScalar?_none
  exact isScalar?_ite (fun _ => isScalar?_some rfl) hfloat

end Tables

/-- What comes of an operation holds no other values. -/
theorem Value.wellNamed_of_foretold {k? : Option Kind} {r : Outcome? Value} {v : Value}
    (hk : Kind.IsScalar? k?) (h : Foretold k? r) (hv : r = .ok v) : v.WellNamed :=
  wellNamed_of_isScalar (hk _ (kind_of_foretold h hv))

/-- A member of a value is in the value, or it is a length. -/
theorem Value.WellNamed.member {v w : Value} {n : String} (h : v.WellNamed)
    (hw : Eval.member v n = .ok w) : w.WellNamed := by
  cases v with
  | record fields =>
      simp only [Eval.member] at hw
      split at hw
      · rename_i hget
        cases hw
        exact h.get? hget
      · cases hw
  | str s =>
      simp only [Eval.member] at hw
      split at hw
      · cases hw
        exact wellNamed_of_isScalar rfl
      · cases hw
  | list items =>
      simp only [Eval.member] at hw
      split at hw
      · cases hw
        exact wellNamed_of_isScalar rfl
      · cases hw
  | _ => cases hw

/-! ### Literals -/

namespace Expr

/-- If the node is a literal, its value holds no others. -/
def OwnScalar : Expr → Prop
  | literal _ v => v.kind.isScalar = true
  | _ => True

/-- No literal in the expression holds other values. -/
def ScalarLiterals (e : Expr) : Prop := ∀ d ∈ e.parts, d.OwnScalar

variable {e c : Expr}

theorem scalarLiterals_iff :
    e.ScalarLiterals ↔ e.OwnScalar ∧ ∀ c ∈ e.children, c.ScalarLiterals := by
  constructor
  · intro h
    exact ⟨h e (self_mem_parts e), fun c hc d hd => h d (mem_parts.mpr (Or.inr ⟨c, hc, hd⟩))⟩
  · rintro ⟨hown, hchildren⟩ d hd
    rcases mem_parts.mp hd with rfl | ⟨c, hc, hd⟩
    · exact hown
    · exact hchildren c hc d hd

theorem scalarLiterals_withSpan (s : Span) (h : e.ScalarLiterals) :
    (e.withSpan s).ScalarLiterals := by
  obtain ⟨hown, hchildren⟩ := scalarLiterals_iff.mp h
  exact scalarLiterals_iff.mpr (by cases e <;> exact ⟨hown, hchildren⟩)

/-- A node that is no literal has the literals of its children. -/
theorem ScalarLiterals.node (hown : e.OwnScalar) (h : ∀ c ∈ e.children, c.ScalarLiterals) :
    e.ScalarLiterals :=
  scalarLiterals_iff.mpr ⟨hown, h⟩

end Expr

theorem Token.isScalar_of_literal? {t : Token} {v : Value} (h : t.literal? = some v) :
    v.kind.isScalar = true := by
  unfold literal? at h
  split at h <;> cases h <;> rfl

mutual

/-- Parsed expressions have the values of tokens for literals. -/
theorem Derives.scalarLiterals {p : Phrase} {ts : List Lexeme} {e : Expr} :
    Derives p ts e → e.ScalarLiterals
  | .conditional htest hyes hno => .node trivial (by
      simp [Expr.children, htest.scalarLiterals, hyes.scalarLiterals, hno.scalarLiterals])
  | .expr h | .coalesce h | .operand h | .unary h | .access h => h.scalarLiterals
  | .orElse hlhs hrhs | .infixed _ hlhs hrhs => .node trivial (by
      simp [Expr.children, Rules.binary, hlhs.scalarLiterals, hrhs.scalarLiterals])
  | .prefixed h | .cast _ h | .member h _ =>
      .node trivial (List.forall_mem_singleton.mpr h.scalarLiterals)
  | .method h _ hargs =>
      .node trivial (List.forall_mem_cons.mpr ⟨h.scalarLiterals, hargs.scalarLiterals⟩)
  | .literal hv => .node (Token.isScalar_of_literal? hv) (List.forall_mem_nil _)
  | .name => .node trivial (List.forall_mem_nil _)
  | .paren h _ => Expr.scalarLiterals_withSpan _ h.scalarLiterals
  | .record h => .node trivial h.scalarLiterals
  | .math h => .node trivial h.scalarLiterals

theorem DerivesArgs.scalarLiterals {ts : List Lexeme} {es : List Expr} :
    DerivesArgs ts es → ∀ e ∈ es, e.ScalarLiterals
  | .none => List.forall_mem_nil _
  | .one h => List.forall_mem_singleton.mpr h.scalarLiterals
  | .more h hmore => List.forall_mem_cons.mpr ⟨h.scalarLiterals, hmore.scalarLiterals⟩

theorem DerivesMember.scalarLiterals {ts : List Lexeme} {m : String × Expr} :
    DerivesMember ts m → m.2.ScalarLiterals
  | .named h => h.scalarLiterals
  | .suggested h _ => h.scalarLiterals

theorem DerivesMembers.scalarLiterals {ts : List Lexeme} {ms : List (String × Expr)} :
    DerivesMembers ts ms → ∀ e ∈ ms.map (·.2), e.ScalarLiterals
  | .none => List.forall_mem_nil _
  | .last h => List.forall_mem_singleton.mpr h.scalarLiterals
  | .more h hmore => List.forall_mem_cons.mpr ⟨h.scalarLiterals, hmore.scalarLiterals⟩

end

theorem scalarLiterals_of_parseLambda {source : List Char} {lambda : LambdaExpr}
    (h : parseLambda source = .ok lambda) : lambda.body.ScalarLiterals := by
  obtain ⟨ts, -, hread⟩ := parseLambda_eq_ok.mp h
  cases readLambda_sound hread with
  | lambda hparam hbody => exact hbody.scalarLiterals

/-! ### Evaluation -/

namespace Expr

/-- The values of a list of members, one by one. -/
theorem names_of_members {arg : Value} {ms : List (String × Expr)} {fields : Fields}
    (h : List.Forall₂ (fun m p => p.1 = m.1 ∧ m.2.eval arg = .ok p.2) ms fields) :
    Fields.names fields = ms.map (·.1) ∧
      ∀ p ∈ fields, ∃ e ∈ ms.map (·.2), e.eval arg = .ok p.2 := by
  induction h with
  | nil => exact ⟨rfl, List.forall_mem_nil _⟩
  | @cons m p ms fields hp _ ih =>
      refine ⟨congrArg₂ List.cons hp.1 ih.1, List.forall_mem_cons.mpr ⟨?_, fun q hq => ?_⟩⟩
      · exact ⟨m.2, List.mem_cons_self, hp.2⟩
      · obtain ⟨e, he, heval⟩ := ih.2 q hq
        exact ⟨e, List.mem_cons_of_mem _ he, heval⟩

/-- **Evaluation repeats no name.** -/
theorem wellNamed_eval {e : Expr} {param : String} {arg v : Value}
    (hclean : e.issues param = []) (hlit : e.ScalarLiterals) (harg : arg.WellNamed)
    (hv : e.eval arg = .ok v) : v.WellNamed := by
  induction e using children_induction generalizing v with
  | h e ih =>
      obtain ⟨hown, hchildren⟩ := scalarLiterals_iff.mp hlit
      have ihc : ∀ c ∈ e.children, ∀ x, c.eval arg = .ok x → x.WellNamed :=
        fun c hc x hx => ih c hc (issues_child hclean hc) (hchildren c hc) hx
      cases e with
      | literal s w =>
          cases hv
          exact Value.wellNamed_of_isScalar hown
      | name s n =>
          cases hv
          exact harg
      | member s target n =>
          obtain ⟨x, hx, hxv⟩ := eval_member_ok hv
          exact (ihc target (by simp [children]) x hx).member hxv
      | method s target n args =>
          obtain ⟨x, xs, -, -, hxv⟩ := eval_method_ok hv
          exact Value.wellNamed_of_foretold (methodKind?_isScalar? _ _ _) (method_foretold x n xs) hxv
      | math s f args =>
          obtain ⟨xs, -, hxv⟩ := eval_math_ok hv
          exact Value.wellNamed_of_foretold (mathKind?_isScalar? _ _) (math_foretold f xs) hxv
      | cast s target operand =>
          obtain ⟨x, hx, hxv⟩ := eval_cast_ok hv
          by_cases htarget : target = .object
          · subst htarget
            cases hxv
            exact ihc operand (by simp [children]) _ hx
          · exact Value.wellNamed_of_foretold (CastType.kind?_isScalar? htarget _)
              (cast_foretold target x) hxv
      | unary s op operand =>
          obtain ⟨x, -, hxv⟩ := eval_unary_ok hv
          exact Value.wellNamed_of_foretold (op.kind?_isScalar? _) (unary_foretold op x) hxv
      | binary s op l r =>
          rcases op.strict_or_skips with hop | hop | rfl
          · obtain ⟨x, y, -, -, hxy⟩ := eval_strict_ok hop hv
            exact Value.wellNamed_of_foretold (op.kind?_isScalar? _ _) (strict_foretold hop x y) hxy
          · refine Value.wellNamed_of_isScalar ?_
            rw [(eval_logical_ok hop hv).1]
            rfl
          · obtain ⟨c, hc, hcv⟩ := eval_coalesce_ok hv
            exact ihc c hc v hcv
      | conditional s test yes no =>
          obtain ⟨-, c, hc, hcv⟩ := eval_conditional_ok hv
          exact ihc c (List.mem_cons_of_mem test hc) v hcv
      | record s ms =>
          obtain ⟨fields, rfl, hfields⟩ := eval_record_fields hv
          obtain ⟨hnames, hvalues⟩ := names_of_members hfields
          refine Value.wellNamed_record.mpr ⟨?_, fun p hp => ?_⟩
          · rw [hnames]
            exact (nodup_of_recordIssues hclean).1
          · obtain ⟨c, hc, hcv⟩ := hvalues p hp
            exact ihc c hc p.2 hcv

end Expr

/-- **A lambda repeats no name**: what it makes of a well-named item is well named. -/
theorem Lambda.wellNamed_call {source : List Char} {goal : Goal} {lambda : Lambda}
    {arg v : Value} (h : compile source goal = .ok lambda) (harg : arg.WellNamed)
    (hv : lambda.call arg = .ok v) : v.WellNamed := by
  have hlambda := comesFrom_of_compile h
  have hclean : lambda.expr.body.issues lambda.expr.param = [] :=
    (List.append_eq_nil_iff.mp hlambda.checked).1
  exact Expr.wellNamed_eval hclean (scalarLiterals_of_parseLambda hlambda.parsed) harg hv

end LambdaShell
