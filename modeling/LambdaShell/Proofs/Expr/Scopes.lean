/-
Names looked up.

The evaluator hands its argument to every name it meets and never asks which name it is.  The
evaluator here asks: a name stands for what the scope says, a name that the scope does not have
is a failure of its own, and all else is as before, operands from left to right and none that
`&&`, `||`, `??` or `?:` can do without.

The two agree on an expression whose names all stand for the argument, and an expression that
passes the checks has no name but the parameter, in whichever part of it.  So it makes no
difference that names are not looked up, not even where an operand is skipped.
-/
import Mathlib
import LambdaShell.Proofs.Expr.Preservation
import LambdaShell.Proofs.Expr.Substitution
import LambdaShell.Proofs.Lambda

namespace LambdaShell

/-! ### Evaluation in a scope -/

/-- The names that are known, and what they stand for. -/
abbrev Scope := List (String × Value)

/-- Why an evaluation in a scope has no value. -/
inductive ScopeError where
  /-- The scope does not have the name. -/
  | unbound (name : String)
  | failed (cause : EvalError)

/-- The outcome of an operation, which looks up no name. -/
def inScope {α : Type} : Outcome? α → Except ScopeError α
  | .ok a => .ok a
  | .error cause => .error (.failed cause)

theorem inScope_bind {α β : Type} (x : Outcome? α) (f : α → Outcome? β) :
    inScope (x >>= f) = inScope x >>= fun a => inScope (f a) := by
  cases x <;> rfl

theorem inScope_ne_unbound {α : Type} (x : Outcome? α) (n : String) :
    inScope x ≠ .error (.unbound n) := by
  cases x <;> exact nofun

/-- What a name stands for. -/
def Scope.value (scope : Scope) (n : String) : Except ScopeError Value :=
  match scope.lookup n with
  | some v => .ok v
  | none => .error (.unbound n)

namespace Expr

mutual

/-- The value of an expression in a scope. -/
def evalIn (scope : Scope) : Expr → Except ScopeError Value
  | literal _ v => .ok v
  | name _ n => scope.value n
  | member _ target n => do
    let v ← target.evalIn scope
    inScope (Eval.member v n)
  | method _ target n args => do
    let v ← target.evalIn scope
    let vs ← evalArgsIn scope args
    inScope (Eval.method v n vs)
  | math _ f args => do
    let vs ← evalArgsIn scope args
    inScope (Eval.math f vs)
  | cast _ t e => do
    let v ← e.evalIn scope
    inScope (Eval.cast t v)
  | unary _ op e => do
    let v ← e.evalIn scope
    inScope (Eval.unary op v)
  | binary _ op l r =>
    match op with
    | .and => do
      let v ← l.evalIn scope
      let b ← inScope (Eval.truth op.text v)
      if b then
        let w ← r.evalIn scope
        let c ← inScope (Eval.truth op.text w)
        return .bool c
      else return .bool false
    | .or => do
      let v ← l.evalIn scope
      let b ← inScope (Eval.truth op.text v)
      if b then return .bool true
      else
        let w ← r.evalIn scope
        let c ← inScope (Eval.truth op.text w)
        return .bool c
    | .coalesce => do
      match ← l.evalIn scope with
      | .null => r.evalIn scope
      | v => return v
    | _ => do
      let v ← l.evalIn scope
      let w ← r.evalIn scope
      inScope (Eval.strict op v w)
  | conditional _ test yes no => do
    let v ← test.evalIn scope
    let b ← inScope (Eval.truth "?:" v)
    if b then yes.evalIn scope else no.evalIn scope
  | record _ members => do
    let fields ← evalMembersIn scope members
    return .record fields

/-- The values of arguments in a scope, left to right. -/
def evalArgsIn (scope : Scope) : List Expr → Except ScopeError (List Value)
  | [] => .ok []
  | e :: es => do
    let v ← e.evalIn scope
    let vs ← evalArgsIn scope es
    return v :: vs

/-- The fields of a record in a scope, left to right. -/
def evalMembersIn (scope : Scope) :
    List (String × Expr) → Except ScopeError (List (String × Value))
  | [] => .ok []
  | (n, e) :: ms => do
    let v ← e.evalIn scope
    let fields ← evalMembersIn scope ms
    return (n, v) :: fields

end

variable {scope : Scope} {arg : Value} {s : Span} {e l r test yes no : Expr} {param : String}

/-! ### Where the names stand for the argument -/

/-- The expression evaluates in the scope as it does on the argument. -/
def Agrees (scope : Scope) (arg : Value) (e : Expr) : Prop :=
  e.evalIn scope = inScope (e.eval arg)

theorem evalArgsIn_eq {es : List Expr} (h : ∀ e ∈ es, Agrees scope arg e) :
    evalArgsIn scope es = inScope (evalArgs arg es) := by
  induction es with
  | nil => rfl
  | cons e es ih =>
      obtain ⟨he, hes⟩ := List.forall_mem_cons.mp h
      show (e.evalIn scope >>= fun v => evalArgsIn scope es >>= fun vs => pure (v :: vs)) = _
      rw [he, ih hes, evalArgs, inScope_bind]
      simp only [inScope_bind]
      rfl

theorem evalMembersIn_eq {ms : List (String × Expr)}
    (h : ∀ e ∈ ms.map (·.2), Agrees scope arg e) :
    evalMembersIn scope ms = inScope (evalMembers arg ms) := by
  induction ms with
  | nil => rfl
  | cons m ms ih =>
      obtain ⟨n, e⟩ := m
      obtain ⟨he, hms⟩ := List.forall_mem_cons.mp h
      show (e.evalIn scope >>= fun v => evalMembersIn scope ms >>= fun fields =>
        pure ((n, v) :: fields)) = _
      rw [he, ih hms, evalMembers, inScope_bind]
      simp only [inScope_bind]
      rfl

theorem evalIn_strict {op : BinaryOp} (hop : op.isStrict = true) :
    (binary s op l r).evalIn scope = l.evalIn scope >>= fun v => r.evalIn scope >>= fun w =>
      inScope (Eval.strict op v w) := by
  cases op <;> first | rfl | cases hop

/-- The second operand is only asked for where the first leaves the result open. -/
theorem evalIn_logical {op : BinaryOp} (hop : op = .and ∨ op = .or) :
    (binary s op l r).evalIn scope = l.evalIn scope >>= fun v =>
      inScope (Eval.truth op.text v) >>= fun b =>
        if b = (op == .and) then r.evalIn scope >>= fun w =>
          inScope (Eval.truth op.text w) >>= fun c => pure (.bool c)
        else pure (.bool b) := by
  rcases hop with rfl | rfl
  all_goals
    rw [evalIn]
    congr 1
    funext v
    congr 1
    funext b
    cases b <;> rfl

theorem Agrees.binary (op : BinaryOp) (hl : Agrees scope arg l) (hr : Agrees scope arg r) :
    Agrees scope arg (binary s op l r) := by
  unfold Agrees at hl hr ⊢
  rcases op.strict_or_skips with hop | hop | rfl
  · rw [evalIn_strict hop, eval_strict hop, hl, hr]
    simp only [inScope_bind]
  · rw [evalIn_logical hop, eval_logical hop, hl, hr, inScope_bind]
    refine congrArg (inScope (l.eval arg) >>= ·) (funext fun v => ?_)
    rw [inScope_bind]
    refine congrArg (inScope (Eval.truth op.text v) >>= ·) (funext fun b => ?_)
    split
    · simp only [inScope_bind]
      rfl
    · rfl
  · show (l.evalIn scope >>= _) = inScope (l.eval arg >>= _)
    rw [hl, inScope_bind]
    refine congrArg (inScope (l.eval arg) >>= ·) (funext fun v => ?_)
    cases v with
    | null => exact hr
    | _ => rfl

/-- Whatever a node asks for of the values of its children, it gets the same. -/
theorem agrees_of_children (hname : ∀ s n, e = .name s n → scope.value n = .ok arg)
    (h : ∀ c ∈ e.children, Agrees scope arg c) : Agrees scope arg e := by
  cases e with
  | literal s v => rfl
  | name s n => exact hname s n rfl
  | member s target n =>
      show (target.evalIn scope >>= fun v => inScope (Eval.member v n)) = _
      rw [h target (by simp [children]), ← inScope_bind]
      rfl
  | method s target n args =>
      have hargs : ∀ a ∈ args, Agrees scope arg a :=
        fun a ha => h a (List.mem_cons_of_mem target ha)
      show (target.evalIn scope >>= fun v => evalArgsIn scope args >>= fun vs =>
        inScope (Eval.method v n vs)) = _
      rw [h target List.mem_cons_self, evalArgsIn_eq hargs]
      simp only [← inScope_bind]
      rfl
  | math s f args =>
      have hargs : ∀ a ∈ args, Agrees scope arg a := h
      show (evalArgsIn scope args >>= fun vs => inScope (Eval.math f vs)) = _
      rw [evalArgsIn_eq hargs, ← inScope_bind]
      rfl
  | cast s t operand =>
      show (operand.evalIn scope >>= fun v => inScope (Eval.cast t v)) = _
      rw [h operand (by simp [children]), ← inScope_bind]
      rfl
  | unary s op operand =>
      show (operand.evalIn scope >>= fun v => inScope (Eval.unary op v)) = _
      rw [h operand (by simp [children]), ← inScope_bind]
      rfl
  | binary s op l r => exact .binary op (h l (by simp [children])) (h r (by simp [children]))
  | conditional s test yes no =>
      show (test.evalIn scope >>= fun v => inScope (Eval.truth "?:" v) >>= fun b =>
        if b then yes.evalIn scope else no.evalIn scope) = _
      rw [h test (by simp [children]), h yes (by simp [children]), h no (by simp [children])]
      show _ = inScope (test.eval arg >>= fun v => Eval.truth "?:" v >>= fun b =>
        if b then yes.eval arg else no.eval arg)
      simp only [inScope_bind, apply_ite inScope]
  | record s members =>
      have hms : ∀ c ∈ members.map (·.2), Agrees scope arg c := h
      show (evalMembersIn scope members >>= fun fields => pure (Value.record fields)) = _
      rw [evalMembersIn_eq hms]
      show _ = inScope (evalMembers arg members >>= fun fields => pure (Value.record fields))
      rw [inScope_bind]
      rfl

/-- An expression all of whose names stand for the argument evaluates as it does on it. -/
theorem agrees_of_names (h : ∀ s n, name s n ∈ e.parts → scope.value n = .ok arg) :
    Agrees scope arg e := by
  induction e using children_induction with
  | h e ih =>
      refine agrees_of_children (fun s n he => h s n (he ▸ self_mem_parts e)) fun c hc => ?_
      exact ih c hc fun s n hn => h s n (mem_parts.mpr (Or.inr ⟨c, hc, hn⟩))

/-- Whatever else the checks find or do not find, they pass no name but the parameter. -/
theorem name_eq_param {n : String} (h : e.issues param = []) (hn : name s n ∈ e.parts) :
    n = param :=
  issues_name.mp (issues_part h _ hn)

/-- What passes the checks evaluates where only the parameter is known, in all of its parts. -/
theorem agrees_of_issues {whole : Expr} (h : whole.issues param = []) (arg : Value)
    (he : e ∈ whole.parts) : Agrees [(param, arg)] arg e := by
  refine agrees_of_names fun s n hn => ?_
  obtain rfl := name_eq_param (issues_part h e he) hn
  rw [Scope.value, List.lookup_cons_self]

end Expr

/-! ### Lambdas -/

namespace Lambda

/-- What is known where a lambda is applied. -/
def scope (lambda : Lambda) (arg : Value) : Scope := [(lambda.expr.param, arg)]

/-- Applies a lambda to an item, looking its names up. -/
def callInScope (lambda : Lambda) (arg : Value) : Except ScopeError Value :=
  lambda.expr.body.evalIn (lambda.scope arg)

/-- **No name has to be looked up.**

A compiled lambda has on every item the outcome that it has where its names are looked up, with
the same value or the same failure; and no part of its body, evaluated on any item, comes upon a
name that is not known, not even a part that is skipped on the way to that outcome. -/
theorem callInScope_eq_call {source : List Char} {goal : Goal} {lambda : Lambda}
    (h : compile source goal = .ok lambda) :
    (∀ arg, lambda.callInScope arg = inScope (lambda.call arg)) ∧
      ∀ e ∈ lambda.expr.body.parts, ∀ arg,
        e.evalIn (lambda.scope arg) = inScope (e.eval arg) ∧
          ∀ n, e.evalIn (lambda.scope arg) ≠ .error (.unbound n) := by
  have hclean := issues_body (comesFrom_of_compile h).checked
  constructor
  · intro arg
    exact Expr.agrees_of_issues hclean arg (Expr.self_mem_parts _)
  · intro e he arg
    have hagrees : e.evalIn (lambda.scope arg) = inScope (e.eval arg) :=
      Expr.agrees_of_issues hclean arg he
    refine ⟨hagrees, fun n => ?_⟩
    rw [hagrees]
    exact inScope_ne_unbound _ n

/-- Whether something is missing or short. -/
def missingOrShort : Lambda := ⟨"x => x == null || x.Length < 3", .boolean,
  ⟨"x", .binary ⟨5, 30⟩ .or
    (.binary ⟨5, 14⟩ .eq (.name ⟨5, 6⟩ "x") (.literal ⟨10, 14⟩ .null))
    (.binary ⟨18, 30⟩ .lt (.member ⟨18, 26⟩ (.name ⟨18, 19⟩ "x") "Length")
      (.literal ⟨29, 30⟩ (.int 3)))⟩⟩

/-- The operand that null skips fails on null, but not for want of a name. -/
theorem missingOrShort_callInScope :
    compile missingOrShort.source.toList .boolean = .ok missingOrShort ∧
      missingOrShort.callInScope .null = .ok (.bool true) ∧
        (Expr.member ⟨18, 26⟩ (.name ⟨18, 19⟩ "x") "Length").evalIn (missingOrShort.scope .null)
          = .error (.failed (.nullReference "Length")) := by
  have hcompile : compile missingOrShort.source.toList .boolean = .ok missingOrShort := by cbv
  obtain ⟨hcall, hparts⟩ := callInScope_eq_call hcompile
  refine ⟨hcompile, (hcall .null).trans rfl, (hparts _ ?_ .null).1.trans rfl⟩
  simp [missingOrShort, Expr.parts]

end Lambda

-- A name that no check has passed: evaluated in a scope, it is asked for.
example : (Expr.name ⟨0, 1⟩ "y").evalIn [("x", .int 1)] = .error (.unbound "y") := rfl

end LambdaShell
