/-
What the outcome of a node says of its children.

Evaluation goes down to the children and comes back with a value or with the first
failure.  Most nodes evaluate all their children and apply one operation to what
comes back; the logical operators, `??` and `?:` leave some of them out.  Either way
a node that succeeds, or fails, has done so for a reason that can be read off its
children, and this file is the only place where the evaluator is unfolded to find it.
-/
import LambdaShell.Proofs.Expr.Kinds
import LambdaShell.Proofs.Expr.Parts
import Mathlib.Data.List.Defs

namespace LambdaShell.Expr

/-! ### Lists of children -/

theorem evalArgs_eq_ok {arg : Value} {es : List Expr} {vs : List Value} :
    evalArgs arg es = .ok vs ↔ List.Forall₂ (fun e v => e.eval arg = .ok v) es vs := by
  induction es generalizing vs with
  | nil =>
      constructor
      · intro h
        cases h
        exact .nil
      · intro h
        cases h
        rfl
  | cons e es ih =>
      constructor
      · intro h
        obtain ⟨v, hv, h⟩ := Outcome.bind_eq_ok.mp h
        obtain ⟨ws, hws, h⟩ := Outcome.bind_eq_ok.mp h
        cases h
        exact .cons hv (ih.mp hws)
      · intro h
        cases h with
        | @cons _ v _ ws hv hws =>
            refine Outcome.bind_eq_ok.mpr ⟨v, hv, ?_⟩
            exact Outcome.bind_eq_ok.mpr ⟨ws, ih.mpr hws, rfl⟩

/-- There are as many kinds as arguments, and each is the kind of the value of one. -/
theorem kinds_of_args {arg : Value} {es : List Expr} {vs : List Value}
    (h : List.Forall₂ (fun e v => e.eval arg = .ok v) es vs) :
    (vs.map Value.kind).length = es.length ∧
      ∀ k ∈ vs.map Value.kind, ∃ e ∈ es, ∃ v, e.eval arg = .ok v ∧ v.kind = k := by
  induction h with
  | nil => simp
  | @cons e v es vs he _ ih =>
      refine ⟨congrArg (· + 1) ih.1, ?_⟩
      intro k hk
      rcases List.mem_cons.mp hk with rfl | hk
      · exact ⟨e, by simp, v, he, rfl⟩
      · obtain ⟨d, hd, w, hdw, hw⟩ := ih.2 k hk
        exact ⟨d, by simp [hd], w, hdw, hw⟩

/-- Each argument has contributed a value. -/
theorem value_of_arg {arg : Value} {es : List Expr} {vs : List Value}
    (h : List.Forall₂ (fun e v => e.eval arg = .ok v) es vs) :
    ∀ e ∈ es, ∃ v ∈ vs, e.eval arg = .ok v := by
  induction h with
  | nil => simp
  | @cons e v es vs he _ ih =>
      intro d hd
      rcases List.mem_cons.mp hd with rfl | hd
      · exact ⟨v, by simp, he⟩
      · obtain ⟨w, hw, hdw⟩ := ih d hd
        exact ⟨w, by simp [hw], hdw⟩

theorem evalMembers_eq_ok {arg : Value} {ms : List (String × Expr)} {fields : Fields} :
    evalMembers arg ms = .ok fields ↔
      List.Forall₂ (fun m p => p.1 = m.1 ∧ m.2.eval arg = .ok p.2) ms fields := by
  induction ms generalizing fields with
  | nil =>
      constructor
      · intro h
        cases h
        exact .nil
      · intro h
        cases h
        rfl
  | cons m ms ih =>
      obtain ⟨n, e⟩ := m
      constructor
      · intro h
        obtain ⟨v, hv, h⟩ := Outcome.bind_eq_ok.mp h
        obtain ⟨rest, hrest, h⟩ := Outcome.bind_eq_ok.mp h
        cases h
        exact .cons ⟨rfl, hv⟩ (ih.mp hrest)
      · intro h
        cases h with
        | @cons _ p _ rest hp hrest =>
            obtain ⟨n', v⟩ := p
            obtain ⟨rfl, hv⟩ := hp
            refine Outcome.bind_eq_ok.mpr ⟨v, hv, ?_⟩
            exact Outcome.bind_eq_ok.mpr ⟨rest, ih.mpr hrest, rfl⟩

theorem evalArgs_error {arg : Value} {es : List Expr} {err : EvalError}
    (h : evalArgs arg es = .error err) : ∃ e ∈ es, e.eval arg = .error err := by
  induction es with
  | nil => cases h
  | cons e es ih =>
      rcases Outcome.bind_eq_error.mp h with h | ⟨v, -, h⟩
      · exact ⟨e, by simp, h⟩
      · rcases Outcome.bind_eq_error.mp h with h | ⟨ws, -, h⟩
        · obtain ⟨d, hd, hfail⟩ := ih h
          exact ⟨d, by simp [hd], hfail⟩
        · cases h

theorem evalMembers_error {arg : Value} {ms : List (String × Expr)} {err : EvalError}
    (h : evalMembers arg ms = .error err) : ∃ e ∈ ms.map (·.2), e.eval arg = .error err := by
  induction ms with
  | nil => cases h
  | cons m ms ih =>
      obtain ⟨n, e⟩ := m
      rcases Outcome.bind_eq_error.mp h with h | ⟨v, -, h⟩
      · exact ⟨e, by simp, h⟩
      · rcases Outcome.bind_eq_error.mp h with h | ⟨ws, -, h⟩
        · obtain ⟨d, hd, hfail⟩ := ih h
          exact ⟨d, by simp only [List.map_cons, List.mem_cons, hd, or_true], hfail⟩
        · cases h

variable {s : Span} {arg v : Value} {e l r test yes no : Expr} {es : List Expr} {n : String}
  {err : EvalError}

/-! ### Nodes that apply an operation to the values of their children -/

theorem eval_member_ok (h : (member s e n).eval arg = .ok v) :
    ∃ x, e.eval arg = .ok x ∧ Eval.member x n = .ok v := by
  exact Outcome.bind_eq_ok.mp h

theorem eval_member_error (h : (member s e n).eval arg = .error err) :
    e.eval arg = .error err ∨ ∃ x, e.eval arg = .ok x ∧ Eval.member x n = .error err := by
  exact Outcome.bind_eq_error.mp h

theorem eval_cast_ok {target : CastType} (h : (cast s target e).eval arg = .ok v) :
    ∃ x, e.eval arg = .ok x ∧ Eval.cast target x = .ok v := by
  exact Outcome.bind_eq_ok.mp h

theorem eval_cast_error {target : CastType} (h : (cast s target e).eval arg = .error err) :
    e.eval arg = .error err ∨ ∃ x, e.eval arg = .ok x ∧ Eval.cast target x = .error err := by
  exact Outcome.bind_eq_error.mp h

theorem eval_unary_ok {op : UnaryOp} (h : (unary s op e).eval arg = .ok v) :
    ∃ x, e.eval arg = .ok x ∧ Eval.unary op x = .ok v := by
  exact Outcome.bind_eq_ok.mp h

theorem eval_unary_error {op : UnaryOp} (h : (unary s op e).eval arg = .error err) :
    e.eval arg = .error err ∨ ∃ x, e.eval arg = .ok x ∧ Eval.unary op x = .error err := by
  exact Outcome.bind_eq_error.mp h

theorem eval_method_ok (h : (method s e n es).eval arg = .ok v) :
    ∃ x xs, e.eval arg = .ok x ∧ List.Forall₂ (fun e v => e.eval arg = .ok v) es xs ∧
      Eval.method x n xs = .ok v := by
  obtain ⟨x, hx, h⟩ := Outcome.bind_eq_ok.mp h
  obtain ⟨xs, hxs, h⟩ := Outcome.bind_eq_ok.mp h
  exact ⟨x, xs, hx, evalArgs_eq_ok.mp hxs, h⟩

theorem eval_method_error (h : (method s e n es).eval arg = .error err) :
    (∃ c ∈ e :: es, c.eval arg = .error err) ∨
      ∃ x xs, e.eval arg = .ok x ∧ List.Forall₂ (fun e v => e.eval arg = .ok v) es xs ∧
        Eval.method x n xs = .error err := by
  rcases Outcome.bind_eq_error.mp h with h | ⟨x, hx, h⟩
  · exact Or.inl ⟨e, by simp, h⟩
  · rcases Outcome.bind_eq_error.mp h with h | ⟨xs, hxs, h⟩
    · obtain ⟨c, hc, hfail⟩ := evalArgs_error h
      exact Or.inl ⟨c, by simp [hc], hfail⟩
    · exact Or.inr ⟨x, xs, hx, evalArgs_eq_ok.mp hxs, h⟩

theorem eval_math_ok (h : (math s n es).eval arg = .ok v) :
    ∃ xs, List.Forall₂ (fun e v => e.eval arg = .ok v) es xs ∧ Eval.math n xs = .ok v := by
  obtain ⟨xs, hxs, h⟩ := Outcome.bind_eq_ok.mp h
  exact ⟨xs, evalArgs_eq_ok.mp hxs, h⟩

theorem eval_math_error (h : (math s n es).eval arg = .error err) :
    (∃ c ∈ es, c.eval arg = .error err) ∨
      ∃ xs, List.Forall₂ (fun e v => e.eval arg = .ok v) es xs ∧
        Eval.math n xs = .error err := by
  rcases Outcome.bind_eq_error.mp h with h | ⟨xs, hxs, h⟩
  · exact Or.inl (evalArgs_error h)
  · exact Or.inr ⟨xs, evalArgs_eq_ok.mp hxs, h⟩

/-- A record has a field for each member, in order. -/
theorem eval_record_fields {ms : List (String × Expr)} (h : (record s ms).eval arg = .ok v) :
    ∃ fields, v = .record fields ∧
      List.Forall₂ (fun m p => p.1 = m.1 ∧ m.2.eval arg = .ok p.2) ms fields := by
  obtain ⟨fields, hfields, h⟩ := Outcome.bind_eq_ok.mp h
  cases h
  exact ⟨fields, rfl, evalMembers_eq_ok.mp hfields⟩

theorem eval_record_ok {ms : List (String × Expr)} (h : (record s ms).eval arg = .ok v) :
    v.kind = .record := by
  obtain ⟨fields, rfl, -⟩ := eval_record_fields h
  rfl

theorem eval_record_error {ms : List (String × Expr)}
    (h : (record s ms).eval arg = .error err) : ∃ c ∈ ms.map (·.2), c.eval arg = .error err := by
  rcases Outcome.bind_eq_error.mp h with h | ⟨fields, -, h⟩
  · exact evalMembers_error h
  · cases h

/-! ### Strict operators -/

theorem eval_strict {op : BinaryOp} (hop : op.isStrict = true) :
    (binary s op l r).eval arg = (do
      let v ← l.eval arg
      Eval.strict op v (← r.eval arg)) := by
  cases op <;> first | rfl | cases hop

theorem eval_strict_ok {op : BinaryOp} (hop : op.isStrict = true)
    (h : (binary s op l r).eval arg = .ok v) :
    ∃ x y, l.eval arg = .ok x ∧ r.eval arg = .ok y ∧ Eval.strict op x y = .ok v := by
  rw [eval_strict hop] at h
  obtain ⟨x, hx, h⟩ := Outcome.bind_eq_ok.mp h
  obtain ⟨y, hy, h⟩ := Outcome.bind_eq_ok.mp h
  exact ⟨x, y, hx, hy, h⟩

theorem eval_strict_error {op : BinaryOp} (hop : op.isStrict = true)
    (h : (binary s op l r).eval arg = .error err) :
    (∃ c ∈ [l, r], c.eval arg = .error err) ∨
      ∃ x y, l.eval arg = .ok x ∧ r.eval arg = .ok y ∧ Eval.strict op x y = .error err := by
  rw [eval_strict hop] at h
  rcases Outcome.bind_eq_error.mp h with h | ⟨x, hx, h⟩
  · exact Or.inl ⟨l, by simp, h⟩
  · rcases Outcome.bind_eq_error.mp h with h | ⟨y, hy, h⟩
    · exact Or.inl ⟨r, by simp, h⟩
    · exact Or.inr ⟨x, y, hx, hy, h⟩

/-! ### Operators that may skip their second operand -/

theorem truth_eq_ok {op : String} {b : Bool} : Eval.truth op v = .ok b ↔ v = .bool b := by
  cases v <;> simp [Eval.truth]

theorem truth_error {op : String} (h : Eval.truth op v = .error err) :
    v.kind ≠ .bool ∧ err.isVerdict = false := by
  cases v with
  | bool b => cases h
  | _ =>
      cases h
      exact ⟨by simp [Value.kind], rfl⟩

/-- The first operand of `&&` and `||` settles the result unless it is the neutral one. -/
theorem eval_logical {op : BinaryOp} (hop : op = .and ∨ op = .or) :
    (binary s op l r).eval arg = (do
      let b ← Eval.truth op.text (← l.eval arg)
      if b = (op == .and) then (do return .bool (← Eval.truth op.text (← r.eval arg)))
      else return .bool b) := by
  rcases hop with rfl | rfl
  all_goals
    rw [eval]
    congr 1
    funext x
    congr 1
    funext b
    cases b <;> rfl

theorem eval_logical_ok {op : BinaryOp} (hop : op = .and ∨ op = .or)
    (h : (binary s op l r).eval arg = .ok v) :
    v.kind = .bool ∧ ∃ b, l.eval arg = .ok (.bool b) := by
  rw [eval_logical hop] at h
  obtain ⟨x, hx, h⟩ := Outcome.bind_eq_ok.mp h
  obtain ⟨b, hb, h⟩ := Outcome.bind_eq_ok.mp h
  rw [truth_eq_ok.mp hb] at hx
  refine ⟨?_, b, hx⟩
  split at h
  · obtain ⟨y, -, h⟩ := Outcome.bind_eq_ok.mp h
    obtain ⟨d, -, h⟩ := Outcome.bind_eq_ok.mp h
    cases h
    rfl
  · cases h
    rfl

theorem eval_logical_error {op : BinaryOp} (hop : op = .and ∨ op = .or)
    (h : (binary s op l r).eval arg = .error err) :
    (∃ c ∈ [l, r], c.eval arg = .error err) ∨
      (err.isVerdict = false ∧ ∃ c ∈ [l, r], ∃ x, c.eval arg = .ok x ∧ x.kind ≠ .bool) := by
  rw [eval_logical hop] at h
  rcases Outcome.bind_eq_error.mp h with h | ⟨x, hx, h⟩
  · exact Or.inl ⟨l, by simp, h⟩
  · rcases Outcome.bind_eq_error.mp h with h | ⟨b, -, h⟩
    · exact Or.inr ⟨(truth_error h).2, l, by simp, x, hx, (truth_error h).1⟩
    · split at h
      · rcases Outcome.bind_eq_error.mp h with h | ⟨y, hy, h⟩
        · exact Or.inl ⟨r, by simp, h⟩
        · rcases Outcome.bind_eq_error.mp h with h | ⟨d, -, h⟩
          · exact Or.inr ⟨(truth_error h).2, r, by simp, y, hy, (truth_error h).1⟩
          · cases h
      · cases h

theorem eval_coalesce_ok (h : (binary s .coalesce l r).eval arg = .ok v) :
    ∃ c ∈ [l, r], c.eval arg = .ok v := by
  obtain ⟨x, hx, h⟩ := Outcome.bind_eq_ok.mp h
  split at h
  · exact ⟨r, by simp, h⟩
  · cases h
    exact ⟨l, by simp, hx⟩

theorem eval_coalesce_error (h : (binary s .coalesce l r).eval arg = .error err) :
    ∃ c ∈ [l, r], c.eval arg = .error err := by
  rcases Outcome.bind_eq_error.mp h with h | ⟨x, -, h⟩
  · exact ⟨l, by simp, h⟩
  · split at h
    · exact ⟨r, by simp, h⟩
    · cases h

theorem eval_conditional_ok (h : (conditional s test yes no).eval arg = .ok v) :
    (∃ b, test.eval arg = .ok (.bool b)) ∧ ∃ c ∈ [yes, no], c.eval arg = .ok v := by
  obtain ⟨x, hx, h⟩ := Outcome.bind_eq_ok.mp h
  obtain ⟨b, hb, h⟩ := Outcome.bind_eq_ok.mp h
  rw [truth_eq_ok.mp hb] at hx
  refine ⟨⟨b, hx⟩, ?_⟩
  split at h
  · exact ⟨yes, by simp, h⟩
  · exact ⟨no, by simp, h⟩

theorem eval_conditional_error (h : (conditional s test yes no).eval arg = .error err) :
    (∃ c ∈ [test, yes, no], c.eval arg = .error err) ∨
      (err.isVerdict = false ∧ ∃ x, test.eval arg = .ok x ∧ x.kind ≠ .bool) := by
  rcases Outcome.bind_eq_error.mp h with h | ⟨x, hx, h⟩
  · exact Or.inl ⟨test, by simp, h⟩
  · rcases Outcome.bind_eq_error.mp h with h | ⟨b, -, h⟩
    · exact Or.inr ⟨(truth_error h).2, x, hx, (truth_error h).1⟩
    · split at h
      · exact Or.inl ⟨yes, by simp, h⟩
      · exact Or.inl ⟨no, by simp, h⟩

end LambdaShell.Expr
