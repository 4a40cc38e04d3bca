/-
What the checker refuses could not have succeeded.

A refusal on account of types is justified if evaluation fails whatever the item is.
The table of `Proofs/Expr/Kinds.lean` is read backwards here: each operation that
succeeds has had operands of kinds it is defined for, a type that holds such a kind
admits it, and so the checker would have had nothing to say.

For one operator that is wrong.  `+` joins texts as soon as one operand is a text, and
an operand of unknown type may be one; but with a null, a truth value or a record on
the other side the checker only thinks of numbers and refuses.  Joining with an unknown
operand is the one alarm that can be false, and the theorem at the end says so exactly.
-/
import LambdaShell.Proofs.Expr.Preservation

namespace LambdaShell

/-- The cause is that something has the wrong type, or lacks a member or a function. -/
def Cause.isTypeAlarm : Cause → Bool
  | unknownName _ | duplicateMember _ | wrongArity _ _ => false
  | _ => true

/-! ### Types admit the kinds they hold -/

namespace Ty

variable {t u : Ty} {k l m : Kind}

theorem admits_bool_of_mem (h : Kind.bool ∈ t.kinds) : t.admits .bool = true := by
  cases t <;> revert h <;> decide

theorem admits_str_of_mem (h : Kind.string ∈ t.kinds) : t.admits .str = true := by
  rcases eq_str_or_dynamic h with rfl | rfl <;> rfl

theorem admitsNumber_of_mem (h : k ∈ t.kinds) (hk : k.isNumber = true) :
    t.admitsNumber = true := by
  cases t <;> cases k <;> revert h hk <;> decide

end Ty

/-! ### Operations that succeed were not refused -/

theorem UnaryOp.resultType?_of_kind? {op : UnaryOp} {t : Ty} {k m : Kind} (hk : k ∈ t.kinds)
    (h : op.kind? k = some m) : ∃ u, op.resultType? t = some u := by
  cases op with
  | not =>
      obtain ⟨rfl, -⟩ := Option.ite_none_right_eq_some.mp h
      exact ⟨.bool, if_pos (Ty.admits_bool_of_mem hk)⟩
  | neg =>
      obtain ⟨hnum, -⟩ := Option.ite_none_right_eq_some.mp h
      exact ⟨t, if_pos (Ty.admitsNumber_of_mem hk hnum)⟩
  | plus =>
      obtain ⟨hnum, -⟩ := Option.ite_none_right_eq_some.mp h
      exact ⟨t, if_pos (Ty.admitsNumber_of_mem hk hnum)⟩

namespace BinaryOp

variable {t u : Ty} {k l m : Kind}

theorem arithmeticType?_of_admitsNumber (ht : t.admitsNumber = true)
    (hu : u.admitsNumber = true) : ∃ r, arithmeticType? t u = some r := by
  unfold arithmeticType?
  split
  · exact ⟨_, rfl⟩
  · split
    · exact ⟨_, rfl⟩
    · rw [if_pos ⟨ht, hu⟩]
      exact ⟨_, rfl⟩

theorem arithmeticType?_of_arithmetic? (hk : k ∈ t.kinds) (hl : l ∈ u.kinds)
    (h : k.arithmetic? l = some m) : ∃ r, arithmeticType? t u = some r := by
  obtain ⟨hkn, hln, -⟩ := Kind.arithmetic?_eq_some h
  exact arithmeticType?_of_admitsNumber (Ty.admitsNumber_of_mem hk hkn)
    (Ty.admitsNumber_of_mem hl hln)

/-- Numbers and texts do not share a type unless it is the one of everything. -/
theorem areComparable_of_mem (hk : k ∈ t.kinds) (hl : l ∈ u.kinds)
    (h : (k.isNumber = true ∧ l.isNumber = true) ∨ (k = .string ∧ l = .string)) :
    areComparable t u = true := by
  rcases h with ⟨hkn, hln⟩ | ⟨rfl, rfl⟩
  · have ht := Ty.admitsNumber_of_mem hk hkn
    have hu := Ty.admitsNumber_of_mem hl hln
    have htext : ∀ {t : Ty}, t.admitsNumber = true → (t == .str) = false := by
      intro t h
      cases t <;> revert h <;> decide
    simp [areComparable, ht, hu, htext ht, htext hu]
  · rcases Ty.eq_str_or_dynamic hk with rfl | rfl <;>
      rcases Ty.eq_str_or_dynamic hl with rfl | rfl <;> rfl

/-- A strict operator that succeeds was not refused, unless it has joined a text that was
not announced. -/
theorem resultType?_of_kind? {op : BinaryOp} (hk : k ∈ t.kinds) (hl : l ∈ u.kinds)
    (h : op.kind? k l = some m) :
    (∃ r, op.resultType? t u = some r) ∨
      (op = .add ∧ (k = .string ∨ l = .string) ∧ (t = .dynamic ∨ u = .dynamic)) := by
  cases op with
  | add =>
      by_cases htext : k = .string ∨ l = .string
      · by_cases hknown : t = .str ∨ u = .str
        · exact Or.inl ⟨.str, if_pos hknown⟩
        · refine Or.inr ⟨rfl, htext, ?_⟩
          rcases htext with rfl | rfl
          · exact Or.inl ((Ty.eq_str_or_dynamic hk).resolve_left fun h => hknown (Or.inl h))
          · exact Or.inr ((Ty.eq_str_or_dynamic hl).resolve_left fun h => hknown (Or.inr h))
      · unfold kind? at h
        dsimp only at h
        rw [if_neg htext] at h
        refine Or.inl ?_
        unfold resultType?
        dsimp only
        split
        · exact ⟨_, rfl⟩
        · exact arithmeticType?_of_arithmetic? hk hl h
  | sub => exact Or.inl (arithmeticType?_of_arithmetic? hk hl h)
  | mul => exact Or.inl (arithmeticType?_of_arithmetic? hk hl h)
  | div => exact Or.inl (arithmeticType?_of_arithmetic? hk hl h)
  | rem => exact Or.inl (arithmeticType?_of_arithmetic? hk hl h)
  | eq => exact Or.inl ⟨_, rfl⟩
  | notEq => exact Or.inl ⟨_, rfl⟩
  | and => cases h
  | or => cases h
  | coalesce => cases h
  | _ =>
      simp only [kind?, Option.ite_none_right_eq_some] at h
      exact Or.inl ⟨.bool, if_pos (areComparable_of_mem hk hl h.1)⟩

end BinaryOp

theorem CastType.isPossible_of_kind? {target : CastType} {t : Ty} {k m : Kind}
    (hk : k ∈ t.kinds) (h : target.kind? k = some m) : target.isPossible t = true := by
  cases target with
  | object => rfl
  | str => rfl
  | bool =>
      obtain ⟨hkind, -⟩ := Option.ite_none_right_eq_some.mp h
      rcases hkind with rfl | rfl <;> cases t <;> revert hk <;> decide
  | _ =>
      obtain ⟨hkind, -⟩ := Option.ite_none_right_eq_some.mp h
      rcases hkind with hnum | rfl
      · have ht := Ty.admitsNumber_of_mem hk hnum
        cases t <;> revert ht <;> decide
      · cases t <;> revert hk <;> decide

/-- A method that succeeds exists. -/
theorem methodSignature?_of_methodKind? {n : String} {k m : Kind} {ks : List Kind}
    (h : methodKind? n k ks = some m) :
    ∃ arity answer, methodSignature? n = some (arity, answer) := by
  rcases (methodKind?_eq_some h).2 with ⟨rfl, -⟩ | ⟨-, htext⟩
  · exact ⟨_, _, rfl⟩
  · unfold textMethodKind? at htext
    split at htext
    all_goals first | exact ⟨_, _, rfl⟩ | cases htext

/-- A method that succeeds has been given texts, if it has been given what it takes. -/
theorem args_of_methodKind? {n : String} {k m : Kind} {ks : List Kind} {answer : Ty}
    (h : methodKind? n k ks = some m) (hn : methodSignature? n = some (ks.length, answer)) :
    ∀ l ∈ ks, n = "ToString" ∨ l = .string := by
  intro l hl
  rcases (methodKind?_eq_some h).2 with ⟨hshow, -⟩ | ⟨-, htext⟩
  · exact Or.inl hshow
  · refine Or.inr ?_
    -- The argument is the only one, and it was read.
    have hread : ks.length = 1 → ks.head? = some .string → l = .string := by
      intro hlen hhead
      obtain ⟨k', rfl⟩ := List.length_eq_one_iff.mp hlen
      rw [List.mem_singleton.mp hl]
      exact Option.some.inj hhead
    have hnone : ks.length = 0 → l = .string := by
      intro hlen
      rw [List.length_eq_zero_iff.mp hlen] at hl
      cases hl
    unfold textMethodKind? at htext
    unfold methodSignature? at hn
    split at htext
    · exact hnone (congrArg Prod.fst (Option.some.inj hn)).symm
    · exact hnone (congrArg Prod.fst (Option.some.inj hn)).symm
    · exact hnone (congrArg Prod.fst (Option.some.inj hn)).symm
    · exact hread (congrArg Prod.fst (Option.some.inj hn)).symm
        (Option.ite_none_right_eq_some.mp htext).1
    · exact hread (congrArg Prod.fst (Option.some.inj hn)).symm
        (Option.ite_none_right_eq_some.mp htext).1
    · exact hread (congrArg Prod.fst (Option.some.inj hn)).symm
        (Option.ite_none_right_eq_some.mp htext).1
    · cases htext

theorem mathArities?_of_mathKind? {f : String} {ks : List Kind} {m : Kind}
    (h : mathKind? f ks = some m) : ∃ arities, mathArities? f = some arities := by
  unfold mathKind? at h
  split at h
  · rename_i hint
    rcases hint with ⟨rfl, -⟩ | ⟨rfl | rfl, -⟩ <;> exact ⟨_, rfl⟩
  · unfold floatMathKind? at h
    split at h
    all_goals first | exact ⟨_, rfl⟩ | cases h

/-- A member that exists belongs to something unknown, to a record, or is the length of a
text. -/
theorem Eval.type_of_member {v w : Value} {n : String} {t : Ty} (hv : v.kind ∈ t.kinds)
    (h : Eval.member v n = .ok w) :
    t = .dynamic ∨ t = .record ∨ (t = .str ∧ n = "Length") := by
  rcases Eval.member_ok h with hk | ⟨hk, hn, -⟩ | hk
  · rw [hk] at hv
    cases t <;> revert hv <;> simp [Ty.kinds]
  · rw [hk] at hv
    rcases Ty.eq_str_or_dynamic hv with rfl | rfl
    · exact Or.inr (Or.inr ⟨rfl, hn⟩)
    · exact Or.inl rfl
  · rw [hk] at hv
    cases t <;> revert hv <;> simp [Ty.kinds]

/-- A text on either side is joined with whatever stands on the other. -/
theorem Eval.add_text {v w : Value} (h : v.kind = .string ∨ w.kind = .string) :
    ∃ x, Eval.strict .add v w = .ok x := by
  rcases h with h | h
  · cases v <;> cases h
    exact ⟨_, rfl⟩
  · cases w <;> cases h
    cases v <;> exact ⟨_, rfl⟩

/-! ### Alarms -/

namespace Expr

open Eval

variable {param : String} {arg v : Value} {e : Expr}

/-- Clean members can only be alarming by their names. -/
theorem recordIssues_cause {ms : List (String × Expr)} :
    ∀ {seen : List String}, (∀ c ∈ ms.map (·.2), c.issues param = []) →
      ∀ i ∈ recordIssues param seen ms, i.cause.isTypeAlarm = false := by
  induction ms with
  | nil =>
      intro seen _ i hi
      cases hi
  | cons m ms ih =>
      obtain ⟨n, d⟩ := m
      intro seen hclean i hi
      rw [recordIssues, hclean d (by simp), List.append_nil, List.mem_append] at hi
      rcases hi with hi | hi
      · split at hi
        · rw [List.mem_singleton.mp hi]
          rfl
        · cases hi
      · exact ih (fun c hc => hclean c (List.mem_cons_of_mem d hc)) i hi

/-- The second operand is skipped, perhaps, and its type says nothing. -/
def MaySkip (e : Expr) : Prop :=
  ∃ s op l r, e = .binary s op l r ∧ (op = .and ∨ op = .or) ∧ l.type.admits .bool = true

/-- The node joins two operands as text, and one of them is of unknown type. -/
def JoinsUnknown (arg : Value) (e : Expr) : Prop :=
  ∃ s l r, e = .binary s .add l r ∧ (l.type = .dynamic ∨ r.type = .dynamic) ∧
    ∃ v w, l.eval arg = .ok v ∧ r.eval arg = .ok w ∧ (v.kind = .string ∨ w.kind = .string)

theorem JoinsUnknown.eval_ok (h : e.JoinsUnknown arg) : ∃ v, e.eval arg = .ok v := by
  obtain ⟨s, l, r, rfl, -, x, y, hx, hy, htext⟩ := h
  obtain ⟨v, hv⟩ := Eval.add_text htext
  refine ⟨v, ?_⟩
  rw [eval_strict rfl, hx]
  show (do Eval.strict .add x (← r.eval arg)) = .ok v
  rw [hy]
  exact hv

theorem issues_method_of_ok {s : Span} {target : Expr} {n : String} {args : List Expr}
    (hclean : ∀ c ∈ target :: args, c.issues param = [])
    (hcause : ∀ i ∈ (method s target n args).issues param, i.cause.isTypeAlarm = true)
    (hv : (method s target n args).eval arg = .ok v) :
    (method s target n args).issues param = [] := by
  obtain ⟨x, xs, hx, hxs, hxv⟩ := eval_method_ok hv
  have hkind := kind_of_foretold (method_foretold x n xs) hxv
  have htarget := hclean target (by simp)
  obtain ⟨arity, answer, hn⟩ := methodSignature?_of_methodKind? hkind
  have hcount : args.length = arity := by
    refine Decidable.byContradiction fun hne => ?_
    have hissue : (⟨s.start, .wrongArity n args.length⟩ : Issue)
        ∈ (method s target n args).issues param := by
      rw [issues, methodIssues, hn]
      simp [issueAt, span, hne]
    exact absurd (hcause _ hissue) (by simp [Cause.isTypeAlarm])
  subst hcount
  refine issues_method.mpr ⟨htarget, ?_, ?_, answer, hn⟩
  · intro a ha
    refine ⟨hclean a (List.mem_cons_of_mem target ha), ?_⟩
    obtain ⟨y, hy, hay⟩ := value_of_arg hxs a ha
    rw [← (kinds_of_args hxs).1] at hn
    refine (args_of_methodKind? hkind hn y.kind (List.mem_map_of_mem hy)).imp_right ?_
    intro htext
    have hmem := kind_mem_type (hclean a (List.mem_cons_of_mem target ha)) hay
    rw [htext] at hmem
    exact Ty.admits_str_of_mem hmem
  · rcases (methodKind?_eq_some hkind).2 with ⟨hshow, -⟩ | ⟨htext, -⟩
    · exact Or.inl hshow
    · have hmem := kind_mem_type htarget hx
      rw [htext] at hmem
      exact Or.inr (Ty.admits_str_of_mem hmem)

theorem issues_math_of_ok {s : Span} {f : String} {args : List Expr}
    (hclean : ∀ c ∈ args, c.issues param = [])
    (hcause : ∀ i ∈ (math s f args).issues param, i.cause.isTypeAlarm = true)
    (hv : (math s f args).eval arg = .ok v) : (math s f args).issues param = [] := by
  obtain ⟨xs, hxs, hxv⟩ := eval_math_ok hv
  have hkind := kind_of_foretold (math_foretold f xs) hxv
  obtain ⟨arities, hf⟩ := mathArities?_of_mathKind? hkind
  have hcount : args.length ∈ arities := by
    refine Decidable.byContradiction fun hne => ?_
    have hissue : (⟨s.start, .wrongArity f args.length⟩ : Issue)
        ∈ (math s f args).issues param := by
      rw [issues, mathIssues, hf]
      simp [issueAt, span, hne]
    exact absurd (hcause _ hissue) (by simp [Cause.isTypeAlarm])
  refine issues_math.mpr ⟨fun a ha => ⟨hclean a ha, ?_⟩, arities, hf, hcount⟩
  rw [← (kinds_of_args hxs).1] at hcount
  obtain ⟨x, hx, hax⟩ := value_of_arg hxs a ha
  have hnum := (mathKind?_eq_some hkind hf hcount).1 x.kind (List.mem_map_of_mem hx)
  exact Ty.admitsNumber_of_mem (kind_mem_type (hclean a ha) hax) hnum

theorem issues_binary_of_ok {s : Span} {op : BinaryOp} {l r : Expr}
    (hclean : ∀ c ∈ [l, r], c.issues param = []) (hskip : ¬ (binary s op l r).MaySkip)
    (hv : (binary s op l r).eval arg = .ok v) :
    (binary s op l r).issues param = [] ∨ (binary s op l r).JoinsUnknown arg := by
  have hl := hclean l (by simp)
  have hr := hclean r (by simp)
  rcases op.strict_or_skips with hop | hop | rfl
  · obtain ⟨x, y, hx, hy, hxy⟩ := eval_strict_ok hop hv
    have hkind := kind_of_foretold (strict_foretold hop x y) hxy
    rcases BinaryOp.resultType?_of_kind? (kind_mem_type hl hx) (kind_mem_type hr hy) hkind with
      htype | ⟨rfl, htext, hdyn⟩
    · exact Or.inl (issues_binary.mpr ⟨⟨hl, hr⟩, htype⟩)
    · exact Or.inr ⟨s, l, r, rfl, hdyn, x, y, hx, hy, htext⟩
  · obtain ⟨-, b, hb⟩ := eval_logical_ok hop hv
    have hadmits := Ty.admits_bool_of_mem (kind_mem_type hl hb)
    exact absurd ⟨s, op, l, r, rfl, hop, hadmits⟩ hskip
  · exact Or.inl (issues_binary.mpr ⟨⟨hl, hr⟩, _, rfl⟩)

/-- A node that succeeds, and might only be alarming for its types, is not alarming at all,
unless it has joined a text that was not announced. -/
theorem issues_of_ok (hclean : ∀ c ∈ e.children, c.issues param = [])
    (hcause : ∀ i ∈ e.issues param, i.cause.isTypeAlarm = true) (hskip : ¬ e.MaySkip)
    (hv : e.eval arg = .ok v) : e.issues param = [] ∨ e.JoinsUnknown arg := by
  cases e with
  | literal s w => exact Or.inl rfl
  | name s n =>
      refine Or.inl ?_
      rw [issues]
      split
      · rfl
      · rename_i hn
        have hissue : (⟨s.start, .unknownName n⟩ : Issue) ∈ (name s n).issues param := by
          rw [issues, if_neg hn]
          exact List.mem_singleton.mpr rfl
        exact absurd (hcause _ hissue) (by simp [Cause.isTypeAlarm])
  | member s target n =>
      have htarget := hclean target (by simp [children])
      obtain ⟨x, hx, hxv⟩ := eval_member_ok hv
      exact Or.inl (issues_member.mpr ⟨htarget, type_of_member (kind_mem_type htarget hx) hxv⟩)
  | method s target n args => exact Or.inl (issues_method_of_ok hclean hcause hv)
  | math s f args => exact Or.inl (issues_math_of_ok hclean hcause hv)
  | cast s target operand =>
      have hoperand := hclean operand (by simp [children])
      obtain ⟨x, hx, hxv⟩ := eval_cast_ok hv
      have hkind := kind_of_foretold (cast_foretold target x) hxv
      exact Or.inl (issues_cast.mpr ⟨hoperand,
        CastType.isPossible_of_kind? (kind_mem_type hoperand hx) hkind⟩)
  | unary s op operand =>
      have hoperand := hclean operand (by simp [children])
      obtain ⟨x, hx, hxv⟩ := eval_unary_ok hv
      have hkind := kind_of_foretold (unary_foretold op x) hxv
      exact Or.inl (issues_unary.mpr ⟨hoperand,
        UnaryOp.resultType?_of_kind? (kind_mem_type hoperand hx) hkind⟩)
  | binary s op l r => exact issues_binary_of_ok hclean hskip hv
  | conditional s test yes no =>
      obtain ⟨⟨b, hb⟩, -⟩ := eval_conditional_ok hv
      have htest := hclean test (by simp [children])
      exact Or.inl (issues_conditional.mpr ⟨htest, Ty.admits_bool_of_mem (kind_mem_type htest hb),
        hclean yes (by simp [children]), hclean no (by simp [children])⟩)
  | record s ms =>
      refine Or.inl (List.eq_nil_iff_forall_not_mem.mpr ?_)
      intro i hi
      have hname := recordIssues_cause hclean i hi
      rw [hcause i hi] at hname
      cases hname

end Expr

namespace Lambda

/-- A body that is not a truth value for the checker is none for the evaluator. -/
theorem test_ne_ok {lambda : Lambda} (hclean : lambda.expr.body.issues lambda.expr.param = [])
    (halarm : lambda.expr.issues .boolean ≠ []) (arg : Value) (b : Bool) :
    lambda.test arg ≠ .ok b := by
  intro htest
  have hmem := Expr.kind_mem_type hclean (test_eq_ok.mp htest)
  exact halarm (issues_boolean.mpr ⟨hclean, Ty.admits_bool_of_mem hmem⟩)

end Lambda

/--
**Alarms about types are true, but for one.**

A node whose children are clean and that is refused for its types alone fails on every
item, unless it is a logical operator that may skip its second operand, or a `+` that
joins an operand of unknown type as text.  In the last case it succeeds.  A predicate
that is only refused for not being a truth value never answers one.
-/
theorem Expr.alarm_iff_fails (arg : Value) :
    (∀ (param : String) (e : Expr), (∀ c ∈ e.children, c.issues param = []) →
      e.issues param ≠ [] → (∀ i ∈ e.issues param, i.cause.isTypeAlarm = true) →
        ¬ e.MaySkip → ((∃ err, e.eval arg = .error err) ↔ ¬ e.JoinsUnknown arg)) ∧
      ∀ lambda : Lambda, lambda.expr.body.issues lambda.expr.param = [] →
        lambda.expr.issues .boolean ≠ [] → ∀ b, lambda.test arg ≠ .ok b := by
  refine ⟨?_, fun lambda hclean halarm => Lambda.test_ne_ok hclean halarm arg⟩
  intro param e hclean halarm hcause hskip
  constructor
  · rintro ⟨err, herr⟩ hjoins
    obtain ⟨v, hv⟩ := hjoins.eval_ok
    rw [herr] at hv
    cases hv
  · intro hjoins
    refine Outcome.exists_error ?_
    intro v hv
    rcases issues_of_ok hclean hcause hskip hv with hnone | h
    · exact halarm hnone
    · exact hjoins h

namespace Expr

/-- A truth value plus one: `(bool)x + 1`. -/
def boolPlusOne : Expr :=
  .binary ⟨5, 16⟩ .add (.cast ⟨5, 12⟩ .bool (.name ⟨11, 12⟩ "x")) (.literal ⟨15, 16⟩ (.int 1))

theorem boolPlusOne_issues :
    boolPlusOne.issues "x" = [⟨5, .binaryOperands .add .bool .int⟩] := by
  simp [boolPlusOne, issues, type, issueAt, span, Ty.ofCast, Ty.ofValue, CastType.isPossible,
    BinaryOp.resultType?, BinaryOp.arithmeticType?, Ty.isNumeric, Ty.admitsNumber]

/-- The sum fails, and so does a predicate that answers an integer. -/
theorem boolPlusOne_fails :
    (∃ err, boolPlusOne.eval (.bool true) = .error err) ∧
      ∀ b, (Lambda.mk "x => 1" .boolean ⟨"x", .literal ⟨5, 6⟩ (.int 1)⟩).test .null ≠ .ok b := by
  have hclean : ∀ c ∈ boolPlusOne.children, c.issues "x" = [] := by
    simp [boolPlusOne, children, issues, type, CastType.isPossible]
  have hcause : ∀ i ∈ boolPlusOne.issues "x", i.cause.isTypeAlarm = true := by
    simp [boolPlusOne_issues, Cause.isTypeAlarm]
  have hskip : ¬ boolPlusOne.MaySkip := by
    rintro ⟨s, op, l, r, heq, hop, -⟩
    cases heq
    simp at hop
  have hjoins : ¬ boolPlusOne.JoinsUnknown (.bool true) := by
    rintro ⟨s, l, r, heq, hdyn, -⟩
    cases heq
    simp [type, Ty.ofCast, Ty.ofValue] at hdyn
  have halarm : LambdaExpr.issues ⟨"x", .literal ⟨5, 6⟩ (.int 1)⟩ .boolean ≠ [] := by
    simp [LambdaExpr.issues, issues, testIssues, type, Ty.ofValue, Ty.admits, issueAt]
  exact ⟨((alarm_iff_fails (.bool true)).1 "x" boolPlusOne hclean (by simp [boolPlusOne_issues])
    hcause hskip).mpr hjoins, (alarm_iff_fails .null).2 _ (by simp [issues]) halarm⟩

/-- The item behind a null: `null + x`. -/
def nullPlusItem : Expr :=
  .binary ⟨5, 13⟩ .add (.literal ⟨5, 9⟩ .null) (.name ⟨12, 13⟩ "x")

/-- Nothing but its types speaks against the sum, and with a text it succeeds. -/
theorem nullPlusItem_false_alarm :
    (∀ c ∈ nullPlusItem.children, c.issues "x" = []) ∧
      nullPlusItem.issues "x" = [⟨5, .binaryOperands .add .null .dynamic⟩] ∧
        (Cause.binaryOperands .add .null .dynamic).isTypeAlarm = true ∧
          ¬ nullPlusItem.MaySkip ∧
            nullPlusItem.eval (.str "a") = .ok (.str "a") := by
  refine ⟨?_, ?_, rfl, ?_, ?_⟩
  · simp [nullPlusItem, children, issues]
  · simp [nullPlusItem, issues, type, issueAt, span, Ty.ofValue, BinaryOp.resultType?,
      BinaryOp.arithmeticType?, Ty.isNumeric, Ty.admitsNumber]
  · rintro ⟨s, op, l, r, heq, hop, -⟩
    cases heq
    simp at hop
  · rfl

end Expr

end LambdaShell
