/-
What the checker infers is true of every value.

A type stands for a set of values, and the sets are larger than the names suggest:
null belongs to all of them, and an integer may stand where a double is expected.
Read that way the checker's types are sound.  If an expression has no issues, then
whatever it evaluates to, on whatever item, lies in the set of its type.

The proof compares two tables, operation by operation: the checker's, which goes from
types to types, and the one of `Proofs/Expr/Kinds.lean`, which goes from kinds to
kinds.  The freedom of a type to hold null rarely matters, since most operations have
no place for it in their tables.
-/
import LambdaShell.Lambda
import LambdaShell.Proofs.Expr.Nodes

namespace LambdaShell

/-! ### Types as sets of values -/

namespace Ty

/-- The kinds of value that a type stands for. -/
def kinds : Ty → List Kind
  | null => [.null]
  | bool => [.bool, .null]
  | int => [.int, .null]
  | float => [.int, .double, .null]
  | str => [.string, .null]
  | record => [.record, .null]
  | dynamic => [.null, .bool, .int, .double, .string, .record, .list]

/-- The values that a type stands for. -/
def values (t : Ty) : Set Value := {v | v.kind ∈ t.kinds}

theorem null_mem_kinds (t : Ty) : Kind.null ∈ t.kinds := by
  cases t <;> decide

theorem mem_kinds_dynamic (k : Kind) : k ∈ dynamic.kinds := by
  cases k <;> decide

theorem mem_ofValue (v : Value) : v.kind ∈ (ofValue v).kinds := by
  cases v <;> simp [Value.kind, ofValue, kinds]

/-- A double can hold what an integer can. -/
theorem int_subset_float {k : Kind} (h : k ∈ int.kinds) : k ∈ float.kinds := by
  cases k <;> revert h <;> decide

theorem isNumeric_subset_float {t : Ty} {k : Kind} (ht : t.isNumeric = true)
    (h : k ∈ t.kinds) : k ∈ float.kinds := by
  cases t with
  | int => exact int_subset_float h
  | float => exact h
  | _ => cases ht

/-! ### Joining two branches -/

theorem mem_join_left {a b : Ty} {k : Kind} (h : k ∈ a.kinds) : k ∈ (a.join b).kinds := by
  unfold join
  split
  · exact h
  · split
    · rename_i ha
      subst ha
      rw [List.mem_singleton.mp h]
      exact null_mem_kinds b
    · split
      · exact h
      · split
        · rename_i hnum
          exact isNumeric_subset_float hnum.1 h
        · exact mem_kinds_dynamic k

theorem mem_join_right {a b : Ty} {k : Kind} (h : k ∈ b.kinds) : k ∈ (a.join b).kinds := by
  unfold join
  split
  · rename_i hab
    rw [hab]
    exact h
  · split
    · exact h
    · split
      · rename_i hb
        subst hb
        rw [List.mem_singleton.mp h]
        exact null_mem_kinds a
      · split
        · rename_i hnum
          exact isNumeric_subset_float hnum.2 h
        · exact mem_kinds_dynamic k

end Ty

/-! ### The checker's tables and the kinds -/

theorem UnaryOp.resultType?_sound {op : UnaryOp} {t u : Ty} {k m : Kind}
    (ht : op.resultType? t = some u) (hk : k ∈ t.kinds) (hm : op.kind? k = some m) :
    m ∈ u.kinds := by
  cases op with
  | not =>
      simp only [resultType?, kind?, Option.ite_none_right_eq_some, Option.some.injEq] at ht hm
      rw [← ht.2, ← hm.2]
      decide
  | neg =>
      simp only [resultType?, kind?, Option.ite_none_right_eq_some, Option.some.injEq] at ht hm
      rw [← ht.2, ← hm.2]
      exact hk
  | plus =>
      simp only [resultType?, kind?, Option.ite_none_right_eq_some, Option.some.injEq] at ht hm
      rw [← ht.2, ← hm.2]
      exact hk

/-- Integers are the only numbers in the type of integers. -/
theorem Ty.eq_int {k : Kind} (h : k ∈ Ty.int.kinds) (hn : k.isNumber = true) : k = .int := by
  cases k <;> revert h hn <;> decide

theorem Ty.not_isNumber_of_str {k : Kind} (h : k ∈ Ty.str.kinds) : k.isNumber = false := by
  cases k <;> revert h <;> decide

/-- A text belongs to the texts, or to anything at all. -/
theorem Ty.eq_str_or_dynamic {t : Ty} (h : Kind.string ∈ t.kinds) : t = .str ∨ t = .dynamic := by
  cases t <;> revert h <;> decide

theorem Kind.arithmetic?_eq_some {k l m : Kind} (h : k.arithmetic? l = some m) :
    k.isNumber = true ∧ l.isNumber = true ∧
      m = if k = .int ∧ l = .int then .int else .double := by
  unfold arithmetic? at h
  split at h
  · rename_i hint
    cases h
    rw [if_pos hint, hint.1, hint.2]
    exact ⟨rfl, rfl, rfl⟩
  · rename_i hint
    split at h
    · rename_i hnum
      cases h
      rw [if_neg hint]
      exact ⟨hnum.1, hnum.2, rfl⟩
    · cases h

namespace BinaryOp

theorem arithmeticType?_sound {t u r : Ty} {k l m : Kind} (ht : arithmeticType? t u = some r)
    (hk : k ∈ t.kinds) (hl : l ∈ u.kinds) (hm : k.arithmetic? l = some m) : m ∈ r.kinds := by
  obtain ⟨hkn, hln, rfl⟩ := Kind.arithmetic?_eq_some hm
  unfold arithmeticType? at ht
  split at ht
  · rename_i hint
    cases ht
    rw [hint.1] at hk
    rw [hint.2] at hl
    rw [if_pos ⟨Ty.eq_int hk hkn, Ty.eq_int hl hln⟩]
    decide
  · split at ht
    · cases ht
      split <;> decide
    · split at ht
      · cases ht
        exact Ty.mem_kinds_dynamic _
      · cases ht

/-- Nothing is known of what is computed from something unknown. -/
theorem arithmeticType?_dynamic {t u r : Ty} (ht : arithmeticType? t u = some r)
    (hdyn : t = .dynamic ∨ u = .dynamic) : r = .dynamic := by
  rcases hdyn with rfl | rfl
  · cases u <;> simp_all [arithmeticType?, Ty.isNumeric]
  · cases t <;> simp_all [arithmeticType?, Ty.isNumeric]

theorem addType?_sound {t u r : Ty} {k l m : Kind} (ht : resultType? .add t u = some r)
    (hk : k ∈ t.kinds) (hl : l ∈ u.kinds) (hm : kind? .add k l = some m) : m ∈ r.kinds := by
  unfold resultType? at ht
  unfold kind? at hm
  dsimp only at ht hm
  split at hm
  · rename_i htext
    cases hm
    split at ht
    · cases ht
      decide
    · rename_i hnotext
      -- A text where none is announced comes from an operand of unknown type.
      have hdyn : t = .dynamic ∨ u = .dynamic := by
        rcases htext with rfl | rfl
        · exact Or.inl ((Ty.eq_str_or_dynamic hk).resolve_left fun h => hnotext (Or.inl h))
        · exact Or.inr ((Ty.eq_str_or_dynamic hl).resolve_left fun h => hnotext (Or.inr h))
      rw [arithmeticType?_dynamic ht hdyn]
      decide
  · split at ht
    · rename_i htext
      obtain ⟨hkn, hln, -⟩ := Kind.arithmetic?_eq_some hm
      rcases htext with rfl | rfl
      · rw [Ty.not_isNumber_of_str hk] at hkn
        cases hkn
      · rw [Ty.not_isNumber_of_str hl] at hln
        cases hln
    · exact arithmeticType?_sound ht hk hl hm

theorem resultType?_sound {op : BinaryOp} {t u r : Ty} {k l m : Kind}
    (ht : op.resultType? t u = some r) (hk : k ∈ t.kinds) (hl : l ∈ u.kinds)
    (hm : op.kind? k l = some m) : m ∈ r.kinds := by
  cases op with
  | add => exact addType?_sound ht hk hl hm
  | sub => exact arithmeticType?_sound ht hk hl hm
  | mul => exact arithmeticType?_sound ht hk hl hm
  | div => exact arithmeticType?_sound ht hk hl hm
  | rem => exact arithmeticType?_sound ht hk hl hm
  | eq => cases ht; cases hm; decide
  | notEq => cases ht; cases hm; decide
  | and => cases hm
  | or => cases hm
  | coalesce => cases hm
  | _ =>
      simp only [resultType?, kind?, Option.ite_none_right_eq_some, Option.some.injEq] at ht hm
      rw [← ht.2, ← hm.2]
      decide

/-- The logical operators answer a truth value, and want what may be one. -/
theorem resultType?_logical {op : BinaryOp} (hop : op = .and ∨ op = .or) {t u r : Ty}
    (h : op.resultType? t u = some r) :
    r = .bool ∧ t.admits .bool = true ∧ u.admits .bool = true := by
  rcases hop with rfl | rfl
  · obtain ⟨hadmits, hr⟩ := Option.ite_none_right_eq_some.mp h
    exact ⟨(Option.some.inj hr).symm, hadmits⟩
  · obtain ⟨hadmits, hr⟩ := Option.ite_none_right_eq_some.mp h
    exact ⟨(Option.some.inj hr).symm, hadmits⟩

end BinaryOp

theorem CastType.ofCast_sound {target : CastType} {k m : Kind} (hm : target.kind? k = some m) :
    m ∈ (Ty.ofCast target).kinds := by
  cases target with
  | object => exact Ty.mem_kinds_dynamic m
  | str =>
      simp only [kind?] at hm
      split at hm <;> cases hm <;> decide
  | _ =>
      simp only [kind?, Option.ite_none_right_eq_some, Option.some.injEq] at hm
      rw [← hm.2]
      decide

/-- Null has no method, all else can be shown, and the other methods belong to texts. -/
theorem methodKind?_eq_some {n : String} {k m : Kind} {ks : List Kind}
    (h : methodKind? n k ks = some m) :
    k ≠ .null ∧
      ((n = "ToString" ∧ m = .string) ∨ (k = .string ∧ textMethodKind? n ks = some m)) := by
  unfold methodKind? at h
  by_cases hnull : k = .null
  · rw [if_pos hnull] at h
    cases h
  · rw [if_neg hnull] at h
    refine ⟨hnull, ?_⟩
    by_cases hn : n = "ToString"
    · rw [if_pos hn] at h
      cases h
      exact Or.inl ⟨hn, rfl⟩
    · rw [if_neg hn, Option.ite_none_right_eq_some] at h
      exact Or.inr h

theorem textMethodKind?_sound {n : String} {m : Kind} {ks : List Kind}
    (h : textMethodKind? n ks = some m) :
    m ∈ (((methodSignature? n).map Prod.snd).getD Ty.dynamic).kinds := by
  unfold textMethodKind? at h
  split at h
  · cases h; decide
  · cases h; decide
  · cases h; decide
  · rw [Option.ite_none_right_eq_some, Option.some.injEq] at h
    rw [← h.2]
    decide
  · rw [Option.ite_none_right_eq_some, Option.some.injEq] at h
    rw [← h.2]
    decide
  · rw [Option.ite_none_right_eq_some, Option.some.injEq] at h
    rw [← h.2]
    decide
  · cases h

theorem methodKind?_sound {n : String} {k m : Kind} {ks : List Kind}
    (h : methodKind? n k ks = some m) :
    m ∈ (((methodSignature? n).map Prod.snd).getD Ty.dynamic).kinds := by
  rcases (methodKind?_eq_some h).2 with ⟨rfl, rfl⟩ | ⟨-, htext⟩
  · decide
  · exact textMethodKind?_sound htext

theorem oneNumber?_eq_some {ks : List Kind} {m : Kind} (h : oneNumber? ks = some m) :
    m = .double ∧ ∃ k rest, ks = k :: rest ∧ k.isNumber = true := by
  cases ks with
  | nil => cases h
  | cons k rest =>
      rw [oneNumber?, Option.ite_none_right_eq_some, Option.some.injEq] at h
      exact ⟨h.2.symm, k, rest, rfl, h.1⟩

theorem twoNumbers?_eq_some {ks : List Kind} {m : Kind} (h : twoNumbers? ks = some m) :
    m = .double ∧ ∃ k l rest, ks = k :: l :: rest ∧ k.isNumber = true ∧ l.isNumber = true := by
  match ks, h with
  | k :: l :: rest, h =>
      rw [twoNumbers?, Option.ite_none_right_eq_some, Option.some.injEq] at h
      exact ⟨h.2.symm, k, l, rest, rfl, h.1⟩

/-- On doubles the functions of `Math` want numbers, as many as they take. -/
theorem floatMathKind?_eq_some {f : String} {ks : List Kind} {m : Kind} {arities : List Nat}
    (h : floatMathKind? f ks = some m) (hf : mathArities? f = some arities)
    (hcount : ks.length ∈ arities) : m = .double ∧ ∀ k ∈ ks, k.isNumber = true := by
  have hone : ks.length = 1 → oneNumber? ks = some m →
      m = .double ∧ ∀ k ∈ ks, k.isNumber = true := by
    intro hlen hks
    obtain ⟨hm, k, rest, rfl, hk⟩ := oneNumber?_eq_some hks
    obtain rfl : rest = [] := List.length_eq_zero_iff.mp (Nat.succ.inj hlen)
    exact ⟨hm, by simpa using hk⟩
  have htwo : ks.length = 2 → twoNumbers? ks = some m →
      m = .double ∧ ∀ k ∈ ks, k.isNumber = true := by
    intro hlen hks
    obtain ⟨hm, k, l, rest, rfl, hk, hl⟩ := twoNumbers?_eq_some hks
    obtain rfl : rest = [] := List.length_eq_zero_iff.mp (Nat.succ.inj (Nat.succ.inj hlen))
    exact ⟨hm, by simpa using ⟨hk, hl⟩⟩
  unfold floatMathKind? at h
  unfold mathArities? at hf
  split at h
  · cases hf; exact hone (by simpa using hcount) h
  · cases hf; exact hone (by simpa using hcount) h
  · cases hf; exact hone (by simpa using hcount) h
  · cases hf; exact hone (by simpa using hcount) h
  · cases hf; exact htwo (by simpa using hcount) h
  · cases hf; exact htwo (by simpa using hcount) h
  · cases hf; exact htwo (by simpa using hcount) h
  · split at h
    · exact hone rfl h
    · obtain ⟨hm, k, rest, hks, hk⟩ := oneNumber?_eq_some h
      cases hks
      exact ⟨hm, by simpa [Kind.isNumber] using hk⟩
    · cases h
  · cases h

/-- Functions of `Math` want numbers and answer a number. -/
theorem mathKind?_eq_some {f : String} {ks : List Kind} {m : Kind} {arities : List Nat}
    (h : mathKind? f ks = some m) (hf : mathArities? f = some arities)
    (hcount : ks.length ∈ arities) :
    (∀ k ∈ ks, k.isNumber = true) ∧
      m = if mathKeepsInt f = true ∧ ∀ k ∈ ks, k = .int then .int else .double := by
  unfold mathKind? at h
  split at h
  · rename_i hint
    cases h
    rcases hint with ⟨rfl, rfl⟩ | ⟨rfl | rfl, rfl⟩ <;> simp [mathKeepsInt, Kind.isNumber]
  · rename_i hint
    obtain ⟨rfl, hnum⟩ := floatMathKind?_eq_some h hf hcount
    refine ⟨hnum, (if_neg ?_).symm⟩
    rintro ⟨hkeeps, hall⟩
    have hks : ks = List.replicate ks.length .int := List.eq_replicate_of_mem hall
    simp only [mathKeepsInt, Bool.or_eq_true, beq_iff_eq] at hkeeps
    rcases hkeeps with (rfl | rfl) | rfl
    · cases hf
      rw [List.mem_singleton.mp hcount] at hks
      exact hint (Or.inl ⟨rfl, hks⟩)
    · cases hf
      rw [List.mem_singleton.mp hcount] at hks
      exact hint (Or.inr ⟨Or.inl rfl, hks⟩)
    · cases hf
      rw [List.mem_singleton.mp hcount] at hks
      exact hint (Or.inr ⟨Or.inr rfl, hks⟩)

theorem mathKind?_sound {f : String} {m : Kind} {ts : List Ty} {ks : List Kind}
    {arities : List Nat} (h : mathKind? f ks = some m) (hf : mathArities? f = some arities)
    (hcount : ks.length ∈ arities)
    (hint : (∀ t ∈ ts, t = .int) → ∀ k ∈ ks, k ∈ Ty.int.kinds) : m ∈ (mathType f ts).kinds := by
  obtain ⟨hnum, rfl⟩ := mathKind?_eq_some h hf hcount
  unfold mathType
  rw [hf, if_neg (by simp)]
  split
  · rename_i hkeeps
    simp only [Bool.and_eq_true, List.all_eq_true, beq_iff_eq] at hkeeps
    rw [if_pos ⟨hkeeps.1, fun k hk => Ty.eq_int (hint hkeeps.2 k hk) (hnum k hk)⟩]
    decide
  · split
    · exact Ty.mem_kinds_dynamic _
    · split <;> decide

/-! ### Evaluation -/

namespace Expr

open Eval

variable {param : String}

/-- The length of a text is an integer, and null has none. -/
theorem member_kind_int {v w : Value} {n : String} (hv : v.kind ∈ Ty.str.kinds)
    (h : Eval.member v n = .ok w) : w.kind = .int := by
  rcases member_ok h with hk | ⟨-, -, hk⟩ | hk
  · rw [hk] at hv
    exact absurd hv (by decide)
  · exact hk
  · rw [hk] at hv
    exact absurd hv (by decide)

theorem kind_mem_type_binary {s : Span} {op : BinaryOp} {l r : Expr} {arg v : Value}
    (hclean : (binary s op l r).issues param = [])
    (hl : ∀ x, l.eval arg = .ok x → x.kind ∈ l.type.kinds)
    (hr : ∀ x, r.eval arg = .ok x → x.kind ∈ r.type.kinds)
    (hv : (binary s op l r).eval arg = .ok v) : v.kind ∈ (binary s op l r).type.kinds := by
  obtain ⟨-, t, ht⟩ := issues_binary.mp hclean
  rw [type, ht, Option.getD_some]
  rcases op.strict_or_skips with hop | hop | rfl
  · obtain ⟨x, y, hx, hy, hxy⟩ := eval_strict_ok hop hv
    have hkind := kind_of_foretold (strict_foretold hop x y) hxy
    exact BinaryOp.resultType?_sound ht (hl x hx) (hr y hy) hkind
  · rw [(eval_logical_ok hop hv).1, (BinaryOp.resultType?_logical hop ht).1]
    decide
  · rw [BinaryOp.resultType?, Option.some.injEq] at ht
    subst ht
    obtain ⟨c, hc, hcv⟩ := eval_coalesce_ok hv
    split
    · rename_i heq
      simp only [List.mem_cons, List.not_mem_nil, or_false] at hc
      rcases hc with rfl | rfl
      · exact hl v hcv
      · rw [heq]
        exact hr v hcv
    · exact Ty.mem_kinds_dynamic _

/-- The types of the checker are true of the values of the evaluator. -/
theorem kind_mem_type {e : Expr} (hclean : e.issues param = []) {arg v : Value}
    (hv : e.eval arg = .ok v) : v.kind ∈ e.type.kinds := by
  induction e using children_induction generalizing v with
  | h e ih =>
      have ihc : ∀ c ∈ e.children, ∀ x, c.eval arg = .ok x → x.kind ∈ c.type.kinds :=
        fun c hc x hx => ih c hc (issues_child hclean hc) hx
      cases e with
      | literal s w =>
          cases hv
          exact Ty.mem_ofValue _
      | name s n => exact Ty.mem_kinds_dynamic _
      | member s target n =>
          rw [type]
          obtain ⟨x, hx, hxv⟩ := eval_member_ok hv
          have hxk := ihc target (by simp [children]) x hx
          split
          · rename_i hlen
            rw [hlen.1] at hxk
            rw [member_kind_int hxk hxv]
            decide
          · exact Ty.mem_kinds_dynamic _
      | method s target n args =>
          obtain ⟨x, xs, -, -, hxv⟩ := eval_method_ok hv
          exact methodKind?_sound (kind_of_foretold (method_foretold x n xs) hxv)
      | math s f args =>
          obtain ⟨hargs, arities, hf, hcount⟩ := issues_math.mp hclean
          obtain ⟨xs, hxs, hxv⟩ := eval_math_ok hv
          obtain ⟨hlen, hkinds⟩ := kinds_of_args hxs
          rw [← hlen] at hcount
          rw [type, types_eq_map]
          refine mathKind?_sound (kind_of_foretold (math_foretold f xs) hxv) hf hcount ?_
          intro hint k hk
          obtain ⟨a, ha, x, hax, rfl⟩ := hkinds k hk
          rw [← hint a.type (List.mem_map_of_mem ha)]
          exact ihc a ha x hax
      | cast s target operand =>
          obtain ⟨x, -, hxv⟩ := eval_cast_ok hv
          exact CastType.ofCast_sound (kind_of_foretold (cast_foretold target x) hxv)
      | unary s op operand =>
          obtain ⟨-, t, ht⟩ := issues_unary.mp hclean
          obtain ⟨x, hx, hxv⟩ := eval_unary_ok hv
          rw [type, ht, Option.getD_some]
          have hxk := ihc operand (by simp [children]) x hx
          exact UnaryOp.resultType?_sound ht hxk (kind_of_foretold (unary_foretold op x) hxv)
      | binary s op l r =>
          exact kind_mem_type_binary hclean (ihc l (by simp [children]))
            (ihc r (by simp [children])) hv
      | conditional s test yes no =>
          obtain ⟨-, c, hc, hcv⟩ := eval_conditional_ok hv
          simp only [List.mem_cons, List.not_mem_nil, or_false] at hc
          rw [type]
          rcases hc with rfl | rfl
          · exact Ty.mem_join_left (ihc _ (by simp [children]) v hcv)
          · exact Ty.mem_join_right (ihc _ (by simp [children]) v hcv)
      | record s ms =>
          rw [eval_record_ok hv]
          exact List.mem_cons_self

/-- Evaluation never fails the way a predicate does. -/
theorem eval_error_not_verdict {e : Expr} {arg : Value} {err : EvalError}
    (h : e.eval arg = .error err) : err.isVerdict = false := by
  induction e using children_induction with
  | h e ih =>
      -- A failure is passed up from a child or is one of the operation itself.
      have hpassed : (∃ c ∈ e.children, c.eval arg = .error err) → err.isVerdict = false :=
        fun ⟨c, hc, hfail⟩ => ih c hc hfail
      cases e with
      | literal s v => cases h
      | name s n => cases h
      | member s target n =>
          rcases eval_member_error h with h | ⟨x, -, h⟩
          · exact hpassed ⟨target, by simp [children], h⟩
          · exact member_error h
      | method s target n args =>
          rcases eval_method_error h with h | ⟨x, xs, -, -, h⟩
          · exact hpassed h
          · exact isVerdict_of_foretold (method_foretold x n xs) h
      | math s f args =>
          rcases eval_math_error h with h | ⟨xs, -, h⟩
          · exact hpassed h
          · exact isVerdict_of_foretold (math_foretold f xs) h
      | cast s target operand =>
          rcases eval_cast_error h with h | ⟨x, -, h⟩
          · exact hpassed ⟨operand, by simp [children], h⟩
          · exact isVerdict_of_foretold (cast_foretold target x) h
      | unary s op operand =>
          rcases eval_unary_error h with h | ⟨x, -, h⟩
          · exact hpassed ⟨operand, by simp [children], h⟩
          · exact isVerdict_of_foretold (unary_foretold op x) h
      | binary s op l r =>
          rcases op.strict_or_skips with hop | hop | rfl
          · rcases eval_strict_error hop h with h | ⟨x, y, -, -, h⟩
            · exact hpassed h
            · exact isVerdict_of_foretold (strict_foretold hop x y) h
          · rcases eval_logical_error hop h with h | ⟨h, -⟩
            · exact hpassed h
            · exact h
          · exact hpassed (eval_coalesce_error h)
      | conditional s test yes no =>
          rcases eval_conditional_error h with h | ⟨h, -⟩
          · exact hpassed h
          · exact h
      | record s ms => exact hpassed (eval_record_error h)

end Expr

/-! ### Lambdas -/

namespace Lambda

theorem issues_body {lambda : LambdaExpr} {goal : Goal} (h : lambda.issues goal = []) :
    lambda.body.issues lambda.param = [] :=
  (List.append_eq_nil_iff.mp h).1

/-- A predicate passes the checks if its body has no issues and may be a truth value. -/
theorem issues_boolean {lambda : LambdaExpr} : lambda.issues .boolean = [] ↔
    lambda.body.issues lambda.param = [] ∧ lambda.body.type.admits .bool = true := by
  show lambda.body.issues lambda.param ++ lambda.body.testIssues = [] ↔ _
  rw [List.append_eq_nil_iff, Expr.testIssues_eq_nil]

theorem verdict_eq_ok {v : Value} {b : Bool} : verdict v = .ok b ↔ v = .bool b := by
  cases v <;> simp [verdict]

theorem test_eq_ok {lambda : Lambda} {arg : Value} {b : Bool} :
    lambda.test arg = .ok b ↔ lambda.call arg = .ok (.bool b) := by
  refine Outcome.bind_eq_ok.trans ⟨?_, fun h => ⟨.bool b, h, rfl⟩⟩
  rintro ⟨v, hv, hverdict⟩
  rw [hv, verdict_eq_ok.mp hverdict]

/-- A predicate fails for want of a truth value only if its body answers something else. -/
theorem test_notBool {lambda : Lambda} {arg : Value} {k : Kind}
    (h : lambda.test arg = .error (.notBool k)) :
    ∃ v, lambda.expr.body.eval arg = .ok v ∧ v.kind = k ∧ k ≠ .bool := by
  rcases Outcome.bind_eq_error.mp h with h | ⟨v, hv, h⟩
  · have hverdict := Expr.eval_error_not_verdict h
    cases hverdict
  · refine ⟨v, hv, ?_⟩
    cases v with
    | bool b => cases h
    | _ =>
        cases h
        exact ⟨rfl, by simp [Value.kind]⟩

/--
**The types of the checker hold.**

Whatever part of an accepted lambda is evaluated, on whatever item, its value belongs to
the type that the checker has found for it.  So a predicate whose body is known to be a
truth value can disappoint in one way only: by being null.
-/
theorem checked_types_hold (lambda : Lambda) (h : lambda.expr.issues lambda.goal = []) :
    (∀ e ∈ lambda.expr.body.parts, ∀ arg v, e.eval arg = .ok v → v ∈ e.type.values) ∧
      (lambda.goal = .boolean → lambda.expr.body.type = .bool →
        ∀ arg k, lambda.test arg = .error (.notBool k) → k = .null) := by
  have hclean := issues_body h
  constructor
  · intro e he arg v hv
    exact Expr.kind_mem_type (Expr.issues_part hclean e he) hv
  · intro _ htype arg k htest
    obtain ⟨v, hv, rfl, hbool⟩ := test_notBool htest
    have hkind := Expr.kind_mem_type hclean hv
    rw [htype] at hkind
    simpa [Ty.kinds, hbool] using hkind

/-- A predicate with a branch that is null. -/
def nullBranch : Lambda where
  source := "x => true ? null : false"
  goal := .boolean
  expr := ⟨"x", .conditional ⟨5, 24⟩ (.literal ⟨5, 9⟩ (.bool true)) (.literal ⟨12, 16⟩ .null)
    (.literal ⟨19, 24⟩ (.bool false))⟩

/-- Nothing is wrong with it, and it disappoints on every item. -/
theorem nullBranch_disappoints :
    nullBranch.expr.issues nullBranch.goal = [] ∧ nullBranch.expr.body.type = .bool ∧
      nullBranch.test (.int 1) = .error (.notBool .null) ∧
        ∀ arg k, nullBranch.test arg = .error (.notBool k) → k = .null :=
  have hclean : nullBranch.expr.issues nullBranch.goal = [] := by
    simp [nullBranch, LambdaExpr.issues, Expr.issues, Expr.testIssues, Expr.type, Ty.ofValue,
      Ty.join, Ty.admits]
  ⟨hclean, rfl, rfl, (checked_types_hold nullBranch hclean).2 rfl rfl⟩

end Lambda

end LambdaShell
