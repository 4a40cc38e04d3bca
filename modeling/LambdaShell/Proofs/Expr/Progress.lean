/-
Lambdas that can only fail because of their data.

The checker lets a lambda pass as long as something could come of it: what is unknown
may turn out well, and null belongs to every type.  If nothing is unknown and nothing
can be null, passing the checks means more.  Every operation then meets operands of
kinds it is defined for, and what can still go wrong is in the numbers and texts
themselves.

There is one exception.  `Math.Round` takes any number as its number of places when it
is checked and only an integer when it is evaluated.  `RoundsToDouble` singles out the
calls that fall into the gap, and they are the only ones that can make a fully typed
lambda fail in any other way.
-/
import LambdaShell.Proofs.Expr.Preservation
import Mathlib.Data.List.Basic

namespace LambdaShell

/-! ### Fully typed lambdas -/

/-- A cast that tells the kind of what comes out of it, and has no room for null. -/
def CastType.isGuard : CastType → Bool
  | int | float | bool => true
  | str | object => false

/-- The node is an occurrence of the parameter. -/
def Expr.isParam (param : String) : Expr → Bool
  | name _ n => n == param
  | _ => false

/-- The parameter only occurs behind casts, and of everything else it is known what it is
and that it can be something other than null. -/
structure LambdaExpr.FullyTyped (lambda : LambdaExpr) : Prop where
  notBare : lambda.body.isParam lambda.param = false
  guarded : ∀ e ∈ lambda.body.parts, ∀ c ∈ e.children, c.isParam lambda.param = true →
    ∃ s target, e = .cast s target c ∧ target.isGuard = true
  typed : ∀ e ∈ lambda.body.parts, e.isParam lambda.param = false →
    e.type ≠ .dynamic ∧ e.type ≠ .null

/-! ### Operands that are certain -/

/-- The kind is one of the type, which is known, and it is not null. -/
structure Ty.Certain (t : Ty) (k : Kind) : Prop where
  known : t ≠ .dynamic
  mem : k ∈ t.kinds
  notNull : k ≠ .null

theorem Kind.arithmetic?_defined {k l : Kind} (hk : k.isNumber = true) (hl : l.isNumber = true) :
    ∃ m, k.arithmetic? l = some m := by
  unfold arithmetic?
  split
  · exact ⟨_, rfl⟩
  · rw [if_pos ⟨hk, hl⟩]
    exact ⟨_, rfl⟩

/-- Whatever is computed is computed from what can be numbers. -/
theorem BinaryOp.admitsNumber_of_arithmeticType? {t u r : Ty}
    (h : BinaryOp.arithmeticType? t u = some r) :
    t.admitsNumber = true ∧ u.admitsNumber = true := by
  unfold BinaryOp.arithmeticType? at h
  split at h
  · rename_i hint
    rw [hint.1, hint.2]
    exact ⟨rfl, rfl⟩
  · split at h
    · rename_i hnum
      simp [Ty.admitsNumber, hnum.1, hnum.2]
    · split at h
      · rename_i hadmits
        exact hadmits
      · cases h

namespace Ty.Certain

variable {t u r : Ty} {k l : Kind}

theorem eq_bool (h : t.Certain k) (ha : t.admits .bool = true) : k = .bool := by
  have ht : t = .bool := by simpa [admits, h.known] using ha
  have hk := h.mem
  rw [ht] at hk
  simpa [kinds, h.notNull] using hk

theorem eq_string (h : t.Certain k) (ha : t.admits .str = true) : k = .string := by
  have ht : t = .str := by simpa [admits, h.known] using ha
  have hk := h.mem
  rw [ht] at hk
  simpa [kinds, h.notNull] using hk

theorem isNumber (h : t.Certain k) (ha : t.admitsNumber = true) : k.isNumber = true := by
  have ht : t.isNumeric = true := by simpa [admitsNumber, h.known] using ha
  have hk := isNumeric_subset_float ht h.mem
  simp only [kinds, List.mem_cons, h.notNull, List.not_mem_nil, or_false] at hk
  rcases hk with rfl | rfl <;> rfl

theorem unary {op : UnaryOp} (h : t.Certain k) (ht : op.resultType? t = some r) :
    ∃ m, op.kind? k = some m := by
  cases op with
  | not =>
      rw [UnaryOp.resultType?, Option.ite_none_right_eq_some] at ht
      exact ⟨.bool, if_pos (h.eq_bool ht.1)⟩
  | neg =>
      rw [UnaryOp.resultType?, Option.ite_none_right_eq_some] at ht
      exact ⟨k, if_pos (h.isNumber ht.1)⟩
  | plus =>
      rw [UnaryOp.resultType?, Option.ite_none_right_eq_some] at ht
      exact ⟨k, if_pos (h.isNumber ht.1)⟩

theorem arithmetic (hk : t.Certain k) (hl : u.Certain l)
    (h : BinaryOp.arithmeticType? t u = some r) : ∃ m, k.arithmetic? l = some m := by
  obtain ⟨ht, hu⟩ := BinaryOp.admitsNumber_of_arithmeticType? h
  exact Kind.arithmetic?_defined (hk.isNumber ht) (hl.isNumber hu)

/-- Operands that may be compared are both numbers or both texts. -/
theorem comparable (hk : t.Certain k) (hl : u.Certain l)
    (h : BinaryOp.areComparable t u = true) :
    (k.isNumber = true ∧ l.isNumber = true) ∨ (k = .string ∧ l = .string) := by
  simp only [BinaryOp.areComparable, Bool.and_eq_true, Bool.or_eq_true, beq_iff_eq,
    Bool.not_eq_true', Bool.or_eq_false_iff, Bool.and_eq_false_iff] at h
  obtain ⟨⟨ht | ht, hu | hu⟩, hmixed⟩ := h
  · exact Or.inl ⟨hk.isNumber ht, hl.isNumber hu⟩
  · have hnum : t.isNumeric = true := by simpa [admitsNumber, hk.known] using ht
    simp [hnum, hu] at hmixed
  · have hnum : u.isNumeric = true := by simpa [admitsNumber, hl.known] using hu
    simp [hnum, ht] at hmixed
  · subst ht hu
    exact Or.inr ⟨hk.eq_string rfl, hl.eq_string rfl⟩

theorem binary {op : BinaryOp} (hop : op.isStrict = true) (hk : t.Certain k) (hl : u.Certain l)
    (h : op.resultType? t u = some r) : ∃ m, op.kind? k l = some m := by
  cases op with
  | add =>
      unfold BinaryOp.kind?
      dsimp only
      split
      · exact ⟨_, rfl⟩
      · rename_i hnotext
        unfold BinaryOp.resultType? at h
        dsimp only at h
        split at h
        · rename_i htext
          rcases htext with rfl | rfl
          · exact absurd (Or.inl (hk.eq_string rfl)) hnotext
          · exact absurd (Or.inr (hl.eq_string rfl)) hnotext
        · exact hk.arithmetic hl h
  | sub => exact hk.arithmetic hl h
  | mul => exact hk.arithmetic hl h
  | div => exact hk.arithmetic hl h
  | rem => exact hk.arithmetic hl h
  | eq => exact ⟨_, rfl⟩
  | notEq => exact ⟨_, rfl⟩
  | and => cases hop
  | or => cases hop
  | coalesce => cases hop
  | _ =>
      simp only [BinaryOp.resultType?, Option.ite_none_right_eq_some] at h
      exact ⟨.bool, if_pos (hk.comparable hl h.1)⟩

end Ty.Certain

/-! ### Calls that are defined -/

theorem textMethodKind?_defined {n : String} {ks : List Kind} {answer : Ty}
    (hn : methodSignature? n = some (ks.length, answer)) (hshow : n ≠ "ToString")
    (hargs : ∀ k ∈ ks, k = .string) : ∃ m, textMethodKind? n ks = some m := by
  -- Methods with an argument read the first of their one.
  have hhead : ks.length = 1 → ks.head? = some .string := by
    intro hlen
    obtain ⟨k, rfl⟩ := List.length_eq_one_iff.mp hlen
    rw [hargs k (by simp)]
    rfl
  unfold methodSignature? at hn
  split at hn
  · exact absurd rfl hshow
  · exact ⟨_, rfl⟩
  · exact ⟨_, rfl⟩
  · exact ⟨_, rfl⟩
  · simp only [Option.some.injEq, Prod.mk.injEq] at hn
    exact ⟨.bool, if_pos (hhead hn.1.symm)⟩
  · simp only [Option.some.injEq, Prod.mk.injEq] at hn
    exact ⟨.bool, if_pos (hhead hn.1.symm)⟩
  · simp only [Option.some.injEq, Prod.mk.injEq] at hn
    exact ⟨.bool, if_pos (hhead hn.1.symm)⟩
  · cases hn

theorem methodKind?_defined {n : String} {k : Kind} {ks : List Kind} {answer : Ty}
    (hn : methodSignature? n = some (ks.length, answer)) (hnull : k ≠ .null)
    (hk : n = "ToString" ∨ k = .string) (hargs : ∀ l ∈ ks, n = "ToString" ∨ l = .string) :
    ∃ m, methodKind? n k ks = some m := by
  unfold methodKind?
  rw [if_neg hnull]
  by_cases hshow : n = "ToString"
  · rw [if_pos hshow]
    exact ⟨_, rfl⟩
  · rw [if_neg hshow, if_pos (hk.resolve_left hshow)]
    exact textMethodKind?_defined hn hshow fun l hl => (hargs l hl).resolve_left hshow

/-- Given as many numbers as it takes, a function of `Math` has an answer, unless it is to
round to a number of places that is a double. -/
theorem mathKind?_defined {f : String} {ks : List Kind} {arities : List Nat}
    (hf : mathArities? f = some arities) (hcount : ks.length ∈ arities)
    (hnum : ∀ k ∈ ks, k.isNumber = true) :
    (∃ m, mathKind? f ks = some m) ∨ (f = "Round" ∧ ∃ k, ks = [k, .double]) := by
  unfold mathKind?
  split
  · exact Or.inl ⟨_, rfl⟩
  have hone : ks.length = 1 → ∃ m, oneNumber? ks = some m := by
    intro hlen
    obtain ⟨k, rfl⟩ := List.length_eq_one_iff.mp hlen
    exact ⟨.double, if_pos (hnum k (by simp))⟩
  have htwo : ks.length = 2 → ∃ m, twoNumbers? ks = some m := by
    intro hlen
    obtain ⟨k, l, rfl⟩ := List.length_eq_two.mp hlen
    exact ⟨.double, if_pos ⟨hnum k (by simp), hnum l (by simp)⟩⟩
  unfold mathArities? at hf
  split at hf
  · cases hf; exact Or.inl (hone (by simpa using hcount))
  · cases hf; exact Or.inl (hone (by simpa using hcount))
  · cases hf; exact Or.inl (hone (by simpa using hcount))
  · cases hf; exact Or.inl (hone (by simpa using hcount))
  · cases hf; exact Or.inl (htwo (by simpa using hcount))
  · cases hf; exact Or.inl (htwo (by simpa using hcount))
  · cases hf; exact Or.inl (htwo (by simpa using hcount))
  · cases hf
    simp only [List.mem_cons, List.not_mem_nil, or_false] at hcount
    rcases hcount with hlen | hlen
    · obtain ⟨k, rfl⟩ := List.length_eq_one_iff.mp hlen
      exact Or.inl (hone rfl)
    · obtain ⟨k, l, rfl⟩ := List.length_eq_two.mp hlen
      have hl : l = .int ∨ l = .double := by
        have hl := hnum l (by simp)
        cases l <;> first | exact Or.inl rfl | exact Or.inr rfl | cases hl
      rcases hl with rfl | rfl
      · exact Or.inl ⟨.double, if_pos (hnum k (by simp))⟩
      · exact Or.inr ⟨rfl, k, rfl⟩
  · cases hf

/-! ### Answers that are never null -/

theorem UnaryOp.kind?_ne_null {op : UnaryOp} {k m : Kind} (h : op.kind? k = some m) :
    m ≠ .null := by
  cases op <;> cases k <;> simp [kind?, Kind.isNumber] at h <;> subst h <;> decide

theorem Kind.arithmetic?_ne_null {k l m : Kind} (h : k.arithmetic? l = some m) : m ≠ .null := by
  rw [(Kind.arithmetic?_eq_some h).2.2]
  split <;> decide

theorem BinaryOp.kind?_ne_null {op : BinaryOp} {k l m : Kind} (h : op.kind? k l = some m) :
    m ≠ .null := by
  cases op with
  | add =>
      unfold kind? at h
      dsimp only at h
      split at h
      · cases h
        decide
      · exact Kind.arithmetic?_ne_null h
  | sub => exact Kind.arithmetic?_ne_null h
  | mul => exact Kind.arithmetic?_ne_null h
  | div => exact Kind.arithmetic?_ne_null h
  | rem => exact Kind.arithmetic?_ne_null h
  | eq => cases h; decide
  | notEq => cases h; decide
  | and => cases h
  | or => cases h
  | coalesce => cases h
  | _ =>
      simp only [kind?, Option.ite_none_right_eq_some, Option.some.injEq] at h
      rw [← h.2]
      decide

theorem textMethodKind?_eq_some {n : String} {ks : List Kind} {m : Kind}
    (h : textMethodKind? n ks = some m) : m = .string ∨ m = .bool := by
  unfold textMethodKind? at h
  split at h
  all_goals
    first
    | cases h; exact Or.inl rfl
    | cases h
    | exact Or.inr (Option.some.inj (Option.ite_none_right_eq_some.mp h).2).symm

theorem methodKind?_ne_null {n : String} {k m : Kind} {ks : List Kind}
    (h : methodKind? n k ks = some m) : m ≠ .null := by
  rcases (methodKind?_eq_some h).2 with ⟨-, rfl⟩ | ⟨-, htext⟩
  · decide
  · rcases textMethodKind?_eq_some htext with rfl | rfl <;> decide

theorem CastType.kind?_ne_null {target : CastType} {k m : Kind} (h : target.kind? k = some m)
    (hk : target.isGuard = true ∨ k ≠ .null) : m ≠ .null := by
  cases target with
  | object =>
      cases h
      exact hk.resolve_left (by decide)
  | str =>
      rw [kind?, if_neg (hk.resolve_left (by decide))] at h
      cases h
      decide
  | _ =>
      simp only [kind?, Option.ite_none_right_eq_some, Option.some.injEq] at h
      rw [← h.2]
      decide

/-! ### Evaluating a fully typed lambda -/

namespace Expr

/-- The node rounds to a number of places that turns out to be a double. -/
def RoundsToDouble (arg : Value) (e : Expr) : Prop :=
  ∃ s x places v y, e = .math s "Round" [x, places] ∧
    x.eval arg = .ok v ∧ places.eval arg = .ok (.float y)

theorem RoundsToDouble.eval_eq {arg : Value} {e : Expr} (h : e.RoundsToDouble arg) :
    e.eval arg = .error (.noMember "Math" "Round") := by
  obtain ⟨s, x, places, v, y, rfl, hx, hy⟩ := h
  have hargs : evalArgs arg [x, places] = .ok [v, .float y] :=
    evalArgs_eq_ok.mpr (.cons hx (.cons hy .nil))
  rw [eval, hargs]
  exact Eval.math_round_double v y

end Expr

namespace LambdaExpr.FullyTyped

open LambdaShell.Expr LambdaShell.Eval

variable {lambda : LambdaExpr} {arg v : Value} {e c : Expr}

/-- Only casts that guard it have the parameter for an operand. -/
theorem child_not_param (hfull : lambda.FullyTyped) (he : e ∈ lambda.body.parts)
    (hc : c ∈ e.children) (hcast : ∀ s target, e = .cast s target c → target.isGuard = false) :
    c.isParam lambda.param = false := by
  rw [Bool.eq_false_iff]
  intro hparam
  obtain ⟨s, target, heq, hguard⟩ := hfull.guarded e he c hc hparam
  rw [hcast s target heq] at hguard
  cases hguard

theorem kind_ne_null (hfull : lambda.FullyTyped)
    (hclean : lambda.body.issues lambda.param = []) (he : e ∈ lambda.body.parts)
    (hparam : e.isParam lambda.param = false) (hv : e.eval arg = .ok v) : v.kind ≠ .null := by
  induction e using children_induction generalizing v with
  | h e ih =>
      obtain ⟨hknown, hnotnull⟩ := hfull.typed e he hparam
      have hown := issues_part hclean e he
      -- No child is a bare parameter where the node is not a cast.
      have ihc : (∀ s target c, e ≠ .cast s target c) →
          ∀ c ∈ e.children, ∀ x, c.eval arg = .ok x → x.kind ≠ .null := by
        intro hcast c hc x hx
        have hchild := hfull.child_not_param he hc fun s target h => absurd h (hcast s target c)
        exact ih c hc (child_mem_parts he hc) hchild hx
      cases e with
      | literal s w =>
          cases hv
          intro hnull
          cases v <;> first | exact hnotnull rfl | cases hnull
      | name s n => exact absurd rfl hknown
      | member s target n =>
          obtain ⟨x, hx, hxv⟩ := eval_member_ok hv
          by_cases hlen : target.type = .str ∧ n = "Length"
          · have hxk := kind_mem_type (issues_child hown (by simp [children])) hx
            rw [hlen.1] at hxk
            rw [member_kind_int hxk hxv]
            decide
          · rw [type, if_neg hlen] at hknown
            exact absurd rfl hknown
      | method s target n args =>
          obtain ⟨x, xs, -, -, hxv⟩ := eval_method_ok hv
          exact methodKind?_ne_null (kind_of_foretold (method_foretold x n xs) hxv)
      | math s f args =>
          obtain ⟨-, arities, hf, hcount⟩ := issues_math.mp hown
          obtain ⟨xs, hxs, hxv⟩ := eval_math_ok hv
          rw [← (kinds_of_args hxs).1] at hcount
          rw [(mathKind?_eq_some (kind_of_foretold (math_foretold f xs) hxv) hf hcount).2]
          split <;> decide
      | cast s target operand =>
          obtain ⟨x, hx, hxv⟩ := eval_cast_ok hv
          refine CastType.kind?_ne_null (kind_of_foretold (cast_foretold target x) hxv) ?_
          cases hguard : target.isGuard with
          | true => exact Or.inl rfl
          | false =>
              have hc : operand ∈ (Expr.cast s target operand).children := by simp [children]
              refine Or.inr (ih operand hc (child_mem_parts he hc) ?_ hx)
              refine hfull.child_not_param he hc ?_
              intro s' target' heq
              cases heq
              exact hguard
      | unary s op operand =>
          obtain ⟨x, -, hxv⟩ := eval_unary_ok hv
          exact UnaryOp.kind?_ne_null (kind_of_foretold (unary_foretold op x) hxv)
      | binary s op l r =>
          rcases op.strict_or_skips with hop | hop | rfl
          · obtain ⟨x, y, -, -, hxy⟩ := eval_strict_ok hop hv
            exact BinaryOp.kind?_ne_null (kind_of_foretold (strict_foretold hop x y) hxy)
          · rw [(eval_logical_ok hop hv).1]
            decide
          · obtain ⟨c, hc, hcv⟩ := eval_coalesce_ok hv
            exact ihc (by simp) c hc v hcv
      | conditional s test yes no =>
          obtain ⟨-, c, hc, hcv⟩ := eval_conditional_ok hv
          exact ihc (by simp) c (List.mem_cons_of_mem test hc) v hcv
      | record s ms =>
          rw [eval_record_ok hv]
          decide

/-- What comes out of a node is certain. -/
theorem certain (hfull : lambda.FullyTyped) (hclean : lambda.body.issues lambda.param = [])
    (he : e ∈ lambda.body.parts) (hparam : e.isParam lambda.param = false)
    (hv : e.eval arg = .ok v) : e.type.Certain v.kind :=
  ⟨(hfull.typed e he hparam).1, kind_mem_type (issues_part hclean e he) hv,
    hfull.kind_ne_null hclean he hparam hv⟩

/-- On operands that are certain an operator fails because of the data, or an operand has
failed already. -/
theorem binary_error {param : String} {s : Span} {op : BinaryOp} {l r : Expr} {err : EvalError}
    (herr : (Expr.binary s op l r).eval arg = .error err)
    (hown : (Expr.binary s op l r).issues param = [])
    (hcertain : ∀ c ∈ [l, r], ∀ x, c.eval arg = .ok x → c.type.Certain x.kind) :
    (∃ c ∈ [l, r], c.eval arg = .error err) ∨ err.isData = true := by
  obtain ⟨-, t, ht⟩ := issues_binary.mp hown
  rcases op.strict_or_skips with hop | hop | rfl
  · rcases eval_strict_error hop herr with h | ⟨x, y, hx, hy, h⟩
    · exact Or.inl h
    · obtain ⟨m, hm⟩ := (hcertain l (by simp) x hx).binary hop (hcertain r (by simp) y hy) ht
      have hkeeps := strict_foretold hop x y
      rw [hm] at hkeeps
      exact Or.inr (isData_of_foretold hkeeps h)
  · rcases eval_logical_error hop herr with h | ⟨-, c, hc, x, hx, hbool⟩
    · exact Or.inl h
    · obtain ⟨-, hl, hr⟩ := BinaryOp.resultType?_logical hop ht
      have hadmits : c.type.admits .bool = true := by
        simp only [List.mem_cons, List.not_mem_nil, or_false] at hc
        rcases hc with rfl | rfl
        · exact hl
        · exact hr
      exact absurd ((hcertain c hc x hx).eq_bool hadmits) hbool
  · exact Or.inl (eval_coalesce_error herr)

/-- The ways in which a fully typed lambda can fail: the data, or a number of places. -/
def MayFail (lambda : LambdaExpr) (arg : Value) (err : EvalError) : Prop :=
  err.isData = true ∨ (err = .noMember "Math" "Round" ∧
    ∃ e ∈ lambda.body.parts, e.RoundsToDouble arg)

theorem mayFail_of_defined {r : Outcome? Value} {k : Option Kind} {err : EvalError}
    (h : Foretold k r) (hdefined : ∃ m, k = some m) (herr : r = .error err) :
    MayFail lambda arg err := by
  obtain ⟨m, rfl⟩ := hdefined
  exact Or.inl (isData_of_foretold h herr)

theorem mayFail_of_math {s : Span} {f : String} {args : List Expr} {xs : List Value}
    {err : EvalError} (he : Expr.math s f args ∈ lambda.body.parts)
    {arities : List Nat} (hf : mathArities? f = some arities) (hcount : args.length ∈ arities)
    (hxs : List.Forall₂ (fun a x => a.eval arg = .ok x) args xs)
    (hnum : ∀ k ∈ xs.map Value.kind, k.isNumber = true) (herr : Eval.math f xs = .error err) :
    MayFail lambda arg err := by
  rw [← (kinds_of_args hxs).1] at hcount
  rcases mathKind?_defined hf hcount hnum with hdefined | ⟨rfl, k, hks⟩
  · exact mayFail_of_defined (math_foretold f xs) hdefined herr
  · obtain ⟨x, rest, rfl, -, hrest⟩ := List.map_eq_cons_iff.mp hks
    obtain ⟨w, rfl, hw⟩ := List.map_eq_singleton_iff.mp hrest
    cases w with
    | float y =>
        cases hxs with
        | @cons a _ as _ hx hys =>
            cases hys with
            | @cons b _ bs _ hy hnil =>
                cases hnil
                rw [math_round_double] at herr
                cases herr
                exact Or.inr ⟨rfl, _, he, s, a, b, x, y, rfl, hx, hy⟩
    | _ => cases hw

theorem mayFail_of_eval_error (hfull : lambda.FullyTyped)
    (hclean : lambda.body.issues lambda.param = []) {err : EvalError}
    (he : e ∈ lambda.body.parts) (herr : e.eval arg = .error err) : MayFail lambda arg err := by
  induction e using children_induction with
  | h e ih =>
      have hown := issues_part hclean e he
      have hpassed : (∃ c ∈ e.children, c.eval arg = .error err) → MayFail lambda arg err :=
        fun ⟨c, hc, hfail⟩ => ih c hc (child_mem_parts he hc) hfail
      -- The children of a node that is no cast are certain.
      have hcertain : (∀ s target c, e ≠ .cast s target c) →
          ∀ c ∈ e.children, ∀ x, c.eval arg = .ok x → c.type.Certain x.kind := by
        intro hcast c hc x hx
        have hchild := hfull.child_not_param he hc fun s target h => absurd h (hcast s target c)
        exact hfull.certain hclean (child_mem_parts he hc) hchild hx
      cases e with
      | literal s v => cases herr
      | name s n => cases herr
      | member s target n =>
          rcases eval_member_error herr with h | ⟨x, hx, h⟩
          · exact hpassed ⟨target, by simp [children], h⟩
          · have hknown := (hfull.typed _ he rfl).1
            by_cases hlen : target.type = .str ∧ n = "Length"
            · have hxk := hcertain (by simp) target (by simp [children]) x hx
              rw [hlen.1] at hxk
              obtain ⟨i, hi⟩ := member_length (hxk.eq_string rfl)
              rw [hlen.2, hi] at h
              cases h
            · rw [type, if_neg hlen] at hknown
              exact absurd rfl hknown
      | method s target n args =>
          rcases eval_method_error herr with h | ⟨x, xs, hx, hxs, h⟩
          · exact hpassed h
          · obtain ⟨-, hargs, htarget, answer, hn⟩ := issues_method.mp hown
            have hxk := hcertain (by simp) target (by simp [children]) x hx
            obtain ⟨hlen, hkinds⟩ := kinds_of_args hxs
            rw [← hlen] at hn
            refine mayFail_of_defined (method_foretold x n xs)
              (methodKind?_defined hn hxk.notNull (htarget.imp_right hxk.eq_string) ?_) h
            intro k hk
            obtain ⟨a, ha, y, hay, rfl⟩ := hkinds k hk
            have hyk := hcertain (by simp) a (List.mem_cons_of_mem target ha) y hay
            exact (hargs a ha).2.imp_right hyk.eq_string
      | math s f args =>
          rcases eval_math_error herr with h | ⟨xs, hxs, h⟩
          · exact hpassed h
          · obtain ⟨hargs, arities, hf, hcount⟩ := issues_math.mp hown
            refine mayFail_of_math he hf hcount hxs ?_ h
            intro k hk
            obtain ⟨a, ha, x, hax, rfl⟩ := (kinds_of_args hxs).2 k hk
            exact (hcertain (by simp) a ha x hax).isNumber (hargs a ha).2
      | cast s target operand =>
          rcases eval_cast_error herr with h | ⟨x, -, h⟩
          · exact hpassed ⟨operand, by simp [children], h⟩
          · exact Or.inl (cast_error h)
      | unary s op operand =>
          rcases eval_unary_error herr with h | ⟨x, hx, h⟩
          · exact hpassed ⟨operand, by simp [children], h⟩
          · obtain ⟨-, t, ht⟩ := issues_unary.mp hown
            have hxk := hcertain (by simp) operand (by simp [children]) x hx
            exact mayFail_of_defined (unary_foretold op x) (hxk.unary ht) h
      | binary s op l r =>
          rcases binary_error herr hown (hcertain (by simp)) with h | h
          · exact hpassed h
          · exact Or.inl h
      | conditional s test yes no =>
          rcases eval_conditional_error herr with h | ⟨-, x, hx, hbool⟩
          · exact hpassed h
          · obtain ⟨-, htest, -⟩ := issues_conditional.mp hown
            have hxk := hcertain (by simp) test (by simp [children]) x hx
            exact absurd (hxk.eq_bool htest) hbool
      | record s ms => exact hpassed (eval_record_error herr)

end LambdaExpr.FullyTyped

/--
**A fully typed lambda fails because of its data or in a call of `Math.Round`.**

The first part says how a lambda without issues can fail on an item, the second that
each call of `Math.Round` named there does fail when it is reached.  No such call
exists if no number of places is announced as a double.
-/
theorem LambdaExpr.fully_typed_progress (lambda : LambdaExpr) (goal : Goal)
    (hclean : lambda.issues goal = []) (hfull : lambda.FullyTyped) (arg : Value) :
    (∀ err, lambda.body.eval arg = .error err →
      err.isData = true ∨ (err = .noMember "Math" "Round" ∧
        ∃ e ∈ lambda.body.parts, e.RoundsToDouble arg)) ∧
      (∀ e ∈ lambda.body.parts, e.RoundsToDouble arg →
        e.eval arg = .error (.noMember "Math" "Round")) ∧
      ((∀ s x places, Expr.math s "Round" [x, places] ∈ lambda.body.parts →
          places.type ≠ .float) →
        ∀ err, lambda.body.eval arg = .error err → err.isData = true) := by
  have hbody := Lambda.issues_body hclean
  have hmay : ∀ err, lambda.body.eval arg = .error err →
      LambdaExpr.FullyTyped.MayFail lambda arg err :=
    fun err h => hfull.mayFail_of_eval_error hbody (Expr.self_mem_parts _) h
  refine ⟨hmay, fun e _ h => h.eval_eq, ?_⟩
  intro hplaces err herr
  rcases hmay err herr with h | ⟨-, e, he, s, x, places, v, y, rfl, -, hy⟩
  · exact h
  · exfalso
    have hc : places ∈ (Expr.math s "Round" [x, places]).children := by simp [Expr.children]
    have hpart := Expr.child_mem_parts he hc
    have hparam := hfull.child_not_param he hc (by simp)
    have hnum : places.type.admitsNumber = true :=
      ((Expr.issues_math.mp (Expr.issues_part hbody _ he)).1 places hc).2
    have hmem := (hfull.certain hbody hpart hparam hy).mem
    have hknown := (hfull.typed _ hpart hparam).1
    have hint : places.type = .int := by
      cases htype : places.type with
      | int => rfl
      | float => exact absurd htype (hplaces s x places he)
      | dynamic => exact absurd htype hknown
      | _ => rw [htype] at hnum; cases hnum
    rw [hint] at hmem
    exact absurd hmem (by simp [Ty.kinds, Value.kind])

namespace LambdaExpr

/-- Ten divided by the item: `x => 10 / (int)x`. -/
def tenDividedBy : LambdaExpr :=
  ⟨"x", .binary ⟨5, 16⟩ .div (.literal ⟨5, 7⟩ (.int 10))
    (.cast ⟨10, 16⟩ .int (.name ⟨15, 16⟩ "x"))⟩

/-- Nothing but the data can make the division fail. -/
theorem tenDividedBy_progress :
    tenDividedBy.issues .any = [] ∧ tenDividedBy.FullyTyped ∧
      ∀ err, tenDividedBy.body.eval (.int 0) = .error err → err.isData = true :=
  have hclean : tenDividedBy.issues .any = [] := by
    simp [tenDividedBy, LambdaExpr.issues, Expr.issues, Expr.type, Ty.ofValue, Ty.ofCast,
      CastType.isPossible, BinaryOp.resultType?, BinaryOp.arithmeticType?]
  have hfull : tenDividedBy.FullyTyped := {
    notBare := rfl
    guarded := by
      simp [tenDividedBy, Expr.parts, Expr.children, Expr.isParam, CastType.isGuard]
    typed := by
      simp [tenDividedBy, Expr.parts, Expr.isParam, Expr.type, Ty.ofValue, Ty.ofCast,
        BinaryOp.resultType?, BinaryOp.arithmeticType?] }
  ⟨hclean, hfull, (fully_typed_progress tenDividedBy .any hclean hfull (.int 0)).2.2
    (by simp [tenDividedBy, Expr.parts])⟩

/-- The item rounded to one place, where the place is a double:
`x => Math.Round((double)x, 1.0)`. -/
def roundToDouble : LambdaExpr :=
  ⟨"x", .math ⟨5, 31⟩ "Round"
    [.cast ⟨16, 25⟩ .float (.name ⟨24, 25⟩ "x"), .literal ⟨27, 30⟩ (.float 1.0)]⟩

/-- Nothing is wrong with the call for the checker, and it fails as no data can make it. -/
theorem roundToDouble_not_progress :
    roundToDouble.issues .any = [] ∧ roundToDouble.FullyTyped ∧
      roundToDouble.body.eval (.float 2.567) = .error (.noMember "Math" "Round") ∧
        (EvalError.noMember "Math" "Round").isData = false := by
  refine ⟨?_, ⟨rfl, ?_, ?_⟩, rfl, rfl⟩
  · simp [roundToDouble, LambdaExpr.issues, Expr.issues, Expr.argIssues, Expr.numberArgument,
      Expr.mathIssues, mathArities?, Expr.type, Ty.ofValue, Ty.ofCast, Ty.admitsNumber,
      Ty.isNumeric, CastType.isPossible]
  · simp [roundToDouble, Expr.parts, Expr.partsOfArgs, Expr.children, Expr.isParam,
      CastType.isGuard]
  · simp [roundToDouble, Expr.parts, Expr.partsOfArgs, Expr.isParam, Expr.type, Expr.types,
      mathType, mathArities?, mathKeepsInt, Ty.ofValue, Ty.ofCast]

end LambdaExpr

end LambdaShell
