/-
An expression in place of the parameter.

There is nothing in an expression that could bind a name, so `subst` only has to go down to the
names.  Where the expression that is put in has a value, evaluating what comes out is evaluating
the old expression on that value: each node finds the same outcomes below it, so it skips the
same operands and fails in the same way.  This holds of expressions without issues, in which
every name is the parameter.
-/
import LambdaShell.Proofs.Expr.Nodes

namespace LambdaShell

namespace Expr

mutual

/-- The expression with `f` in place of the name `param`, wherever it stands. -/
def subst (param : String) (f : Expr) : Expr → Expr
  | literal s v => literal s v
  | name s n => if n = param then f else name s n
  | member s target n => member s (subst param f target) n
  | method s target n args => method s (subst param f target) n (substArgs param f args)
  | math s n args => math s n (substArgs param f args)
  | cast s t operand => cast s t (subst param f operand)
  | unary s op operand => unary s op (subst param f operand)
  | binary s op l r => binary s op (subst param f l) (subst param f r)
  | conditional s test yes no =>
    conditional s (subst param f test) (subst param f yes) (subst param f no)
  | record s members => record s (substMembers param f members)

/-- The arguments with `f` in place of the name `param`. -/
def substArgs (param : String) (f : Expr) : List Expr → List Expr
  | [] => []
  | e :: es => subst param f e :: substArgs param f es

/-- The record members with `f` in place of the name `param`; they keep their own names. -/
def substMembers (param : String) (f : Expr) : List (String × Expr) → List (String × Expr)
  | [] => []
  | (n, e) :: ms => (n, subst param f e) :: substMembers param f ms

end

variable {param n : String} {f l r l' r' : Expr} {s : Span} {v w : Value}

theorem issues_name : (name s n).issues param = [] ↔ n = param := by
  show (if n = param then [] else _) = [] ↔ _
  by_cases hn : n = param
  · simp [hn]
  · simp [hn, issueAt]

/-! ### Children that evaluate alike -/

theorem evalArgs_substArgs {es : List Expr}
    (h : ∀ e ∈ es, (subst param f e).eval v = e.eval w) :
    evalArgs v (substArgs param f es) = evalArgs w es := by
  induction es with
  | nil => rfl
  | cons e es ih =>
      obtain ⟨he, hes⟩ := List.forall_mem_cons.mp h
      show (do
        let x ← (subst param f e).eval v
        return x :: (← evalArgs v (substArgs param f es))) = _
      rw [he, ih hes]
      rfl

theorem evalMembers_substMembers {ms : List (String × Expr)}
    (h : ∀ e ∈ ms.map (·.2), (subst param f e).eval v = e.eval w) :
    evalMembers v (substMembers param f ms) = evalMembers w ms := by
  induction ms with
  | nil => rfl
  | cons m ms ih =>
      obtain ⟨n, e⟩ := m
      obtain ⟨he, hms⟩ := List.forall_mem_cons.mp h
      show (do
        let x ← (subst param f e).eval v
        return (n, x) :: (← evalMembers v (substMembers param f ms))) = _
      rw [he, ih hms]
      rfl

/-- Whichever operand an operator skips, it does so for what the first one comes to. -/
theorem eval_binary_congr (op : BinaryOp) (hl : l.eval v = l'.eval w)
    (hr : r.eval v = r'.eval w) : (binary s op l r).eval v = (binary s op l' r').eval w := by
  rcases op.strict_or_skips with hop | hop | rfl
  · rw [eval_strict hop, eval_strict hop, hl, hr]
  · rw [eval_logical hop, eval_logical hop, hl, hr]
  · show (l.eval v >>= _) = (l'.eval w >>= _)
    rw [hl]
    refine congrArg (l'.eval w >>= ·) (funext fun x => ?_)
    cases x with
    | null => exact hr
    | _ => rfl

/-! ### Substitution -/

/-- **Substituting and evaluating.**  An expression in which `f` stands for the parameter
evaluates to what it evaluates to on the value of `f`. -/
theorem eval_subst (hf : f.eval v = .ok w) :
    ∀ e : Expr, e.issues param = [] → (subst param f e).eval v = e.eval w := by
  intro e
  induction e using children_induction with
  | h e ih =>
      intro he
      -- A node asks for the same operands on both sides as long as their outcomes are the same.
      have hchild : ∀ c ∈ e.children, (subst param f c).eval v = c.eval w :=
        fun c hc => ih c hc (issues_child he hc)
      cases e with
      | literal s u => rfl
      | name s n =>
          show (if n = param then f else name s n).eval v = _
          rw [if_pos (issues_name.mp he), hf]
          rfl
      | member s target n =>
          show (do Eval.member (← (subst param f target).eval v) n) = _
          rw [hchild target (by simp [children])]
          rfl
      | method s target n args =>
          have hargs : ∀ a ∈ args, (subst param f a).eval v = a.eval w :=
            fun a ha => hchild a (List.mem_cons_of_mem target ha)
          show (do
            let x ← (subst param f target).eval v
            Eval.method x n (← evalArgs v (substArgs param f args))) = _
          rw [hchild target List.mem_cons_self, evalArgs_substArgs hargs]
          rfl
      | math s n args =>
          show (do Eval.math n (← evalArgs v (substArgs param f args))) = _
          have hargs : ∀ a ∈ args, (subst param f a).eval v = a.eval w := hchild
          rw [evalArgs_substArgs hargs]
          rfl
      | cast s t operand =>
          show (do Eval.cast t (← (subst param f operand).eval v)) = _
          rw [hchild operand (by simp [children])]
          rfl
      | unary s op operand =>
          show (do Eval.unary op (← (subst param f operand).eval v)) = _
          rw [hchild operand (by simp [children])]
          rfl
      | binary s op l r =>
          exact eval_binary_congr op (hchild l (by simp [children]))
            (hchild r (by simp [children]))
      | conditional s test yes no =>
          show (do
            if ← Eval.truth "?:" (← (subst param f test).eval v) then (subst param f yes).eval v
            else (subst param f no).eval v) = _
          rw [hchild test (by simp [children]), hchild yes (by simp [children]),
            hchild no (by simp [children])]
          rfl
      | record s ms =>
          show (do return Value.record (← evalMembers v (substMembers param f ms))) = _
          have hms : ∀ c ∈ ms.map (·.2), (subst param f c).eval v = c.eval w := hchild
          rw [evalMembers_substMembers hms]
          rfl

end Expr

/-- The lambda that applies `f` first and then `g`: its body is that of `g`, with the body of
`f` in place of the parameter. -/
def LambdaExpr.after (g f : LambdaExpr) : LambdaExpr :=
  ⟨f.param, Expr.subst g.param f.body g.body⟩

end LambdaShell
