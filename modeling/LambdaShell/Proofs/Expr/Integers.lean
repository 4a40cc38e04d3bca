/-
Integers are exact or fail.

An expression of integer literals, the parameter, signs, casts to an integer, the five operators
of arithmetic and the functions of `Math` that keep integers has an exact value among all
integers.  Evaluated on an integer it comes to that value, or else to the first failure in the
order of evaluation: a divisor that is zero, an exact value that 64 bits cannot hold, or the
remainder of the least integer by -1, whose quotient they cannot hold.

Operands come before what is made of them, so where a node is reached the exact values of its
operands are there as they should be, and whether it fails can be said of exact values alone.
-/
import Mathlib
import LambdaShell.Proofs.Expr.Nodes

namespace LambdaShell

-- Powers are those of the core library, as where the range is checked.
attribute [local instance (high)] instPowNat

/-! ### The range of 64 bits -/

namespace Number

/-- The integer can be held in 64 bits. -/
def Fits (i : Int) : Prop := -(2 ^ (63 : Nat)) ≤ i ∧ i < 2 ^ (63 : Nat)

instance (i : Int) : Decidable (Fits i) := inferInstanceAs (Decidable (_ ∧ _))

theorem int64?_of_fits {i : Int} (h : Fits i) : int64? i = some (Int64.ofInt i) := if_pos h

theorem int64?_of_not_fits {i : Int} (h : ¬ Fits i) : int64? i = none := if_neg h

theorem toInt_ofInt {i : Int} (h : Fits i) : (Int64.ofInt i).toInt = i :=
  Int64.toInt_ofInt_of_le h.1 h.2

theorem fits_toInt (i : Int64) : Fits i.toInt := ⟨i.le_toInt, i.toInt_lt⟩

/-- Every quotient fits but that of the least integer by -1. -/
theorem fits_tdiv {a b : Int} (ha : Fits a) (hb : b ≠ 0) :
    Fits (a.tdiv b) ↔ ¬ (a = -(2 ^ (63 : Nat)) ∧ b = -1) := by
  unfold Fits at ha ⊢
  by_cases hminus : b = -1
  · subst hminus
    rw [Int.tdiv_neg, Int.tdiv_one]
    omega
  by_cases hone : b = 1
  · subst hone
    rw [Int.tdiv_one]
    omega
  -- any other divisor halves the dividend at least
  have hhalf : (a.tdiv b).natAbs ≤ a.natAbs / 2 := by
    rw [Int.natAbs_tdiv]
    exact Nat.div_le_div_left (by omega) (by decide)
  omega

end Number

open Number (Fits)

/-! ### Exact values -/

/-- What an operator computes from all integers; dividing rounds toward zero. -/
def BinaryOp.exact (op : BinaryOp) (a b : Int) : Int :=
  match op with
  | .add => a + b
  | .sub => a - b
  | .mul => a * b
  | .div => a.tdiv b
  | .rem => a.tmod b
  | _ => 0

/-- What an operator in front of its operand computes. -/
def UnaryOp.exact (op : UnaryOp) (a : Int) : Int :=
  match op with
  | .neg => -a
  | _ => a

/-- What a function of `Math` computes. -/
def mathExact (name : String) (args : List Int) : Int :=
  match name, args with
  | "Abs", [a] => a.natAbs
  | "Min", [a, b] => min a b
  | "Max", [a, b] => max a b
  | _, _ => 0

namespace Expr

mutual

/-- The exact value of an expression of integers whose parameter is `n`. -/
def exact (n : Int) : Expr → Int
  | literal _ (.int i) => i.toInt
  | name _ _ => n
  | cast _ _ e => e.exact n
  | unary _ op e => op.exact (e.exact n)
  | binary _ op l r => op.exact (l.exact n) (r.exact n)
  | math _ f args => mathExact f (exacts n args)
  | _ => 0

/-- The exact values of arguments. -/
def exacts (n : Int) : List Expr → List Int
  | [] => []
  | e :: es => e.exact n :: exacts n es

end

/-- An expression made of integers only, whose parameter is `param`. -/
inductive IsInteger (param : String) : Expr → Prop where
  | literal {s : Span} {i : Int64} : IsInteger param (.literal s (.int i))
  | name {s : Span} : IsInteger param (.name s param)
  | cast {s : Span} {e : Expr} (h : IsInteger param e) : IsInteger param (.cast s .int e)
  | unary {s : Span} {op : UnaryOp} {e : Expr} (hop : op ≠ .not) (h : IsInteger param e) :
      IsInteger param (.unary s op e)
  | binary {s : Span} {op : BinaryOp} {l r : Expr} (hop : op.isArithmetic = true)
      (hl : IsInteger param l) (hr : IsInteger param r) : IsInteger param (.binary s op l r)
  | abs {s : Span} {e : Expr} (h : IsInteger param e) : IsInteger param (.math s "Abs" [e])
  | extreme {s : Span} {f : String} {l r : Expr} (hf : f = "Min" ∨ f = "Max")
      (hl : IsInteger param l) (hr : IsInteger param r) : IsInteger param (.math s f [l, r])

/-! ### The order of evaluation -/

mutual

/-- The parts of an expression in the order in which they are evaluated: operands from left to
right, and then what is made of them. -/
def operandsFirst : Expr → List Expr
  | e@(literal ..) | e@(name ..) => [e]
  | e@(member _ target _) => target.operandsFirst ++ [e]
  | e@(method _ target _ args) => target.operandsFirst ++ argsFirst args ++ [e]
  | e@(math _ _ args) => argsFirst args ++ [e]
  | e@(cast _ _ operand) | e@(unary _ _ operand) => operand.operandsFirst ++ [e]
  | e@(binary _ _ l r) => l.operandsFirst ++ r.operandsFirst ++ [e]
  | e@(conditional _ test yes no) =>
    test.operandsFirst ++ yes.operandsFirst ++ no.operandsFirst ++ [e]
  | e@(record _ members) => membersFirst members ++ [e]

/-- The parts of all arguments. -/
def argsFirst : List Expr → List Expr
  | [] => []
  | e :: es => e.operandsFirst ++ argsFirst es

/-- The parts of the values of all record members. -/
def membersFirst : List (String × Expr) → List Expr
  | [] => []
  | (_, e) :: ms => e.operandsFirst ++ membersFirst ms

end

theorem argsFirst_eq (es : List Expr) : argsFirst es = es.flatMap operandsFirst := by
  induction es with
  | nil => rfl
  | cons e es ih => rw [argsFirst, ih, List.flatMap_cons]

theorem membersFirst_eq (ms : List (String × Expr)) :
    membersFirst ms = (ms.map (·.2)).flatMap operandsFirst := by
  induction ms with
  | nil => rfl
  | cons m ms ih =>
      obtain ⟨n, e⟩ := m
      rw [membersFirst, ih, List.map_cons, List.flatMap_cons]

theorem operandsFirst_eq (e : Expr) :
    e.operandsFirst = e.children.flatMap operandsFirst ++ [e] := by
  cases e <;> simp [operandsFirst, children, argsFirst_eq, membersFirst_eq]

/-- Each part has its turn, and has it once. -/
theorem operandsFirst_perm (e : Expr) : e.operandsFirst.Perm e.parts := by
  induction e using children_induction with
  | h e ih =>
      rw [operandsFirst_eq, parts_eq]
      refine (List.perm_append_singleton _ _).trans (List.Perm.cons e ?_)
      exact List.Perm.flatMap_left _ ih

end Expr

/-! ### What fails at one node -/

/-- The failure of an exact value that 64 bits cannot hold. -/
def excess? (i : Int) : Option EvalError := if Fits i then none else some .overflow

theorem excess?_eq_none {i : Int} : excess? i = none ↔ Fits i := by
  unfold excess?
  split
  · exact iff_of_true rfl ‹_›
  · exact iff_of_false nofun ‹_›

theorem excess?_eq_some {i : Int} {err : EvalError} (h : excess? i = some err) :
    err = .overflow := by
  unfold excess? at h
  split at h
  · cases h
  · cases h
    rfl

/-- Why an operator of arithmetic has no result on two integers. -/
def BinaryOp.fault? (op : BinaryOp) (a b : Int) : Option EvalError :=
  if (op = .div ∨ op = .rem) ∧ b = 0 then some .divideByZero
  else if op = .rem ∧ a = -(2 ^ (63 : Nat)) ∧ b = -1 then some .overflow
  else excess? (op.exact a b)

namespace Expr

/-- Why a node has no result where its operands have their exact values. -/
def fault? (n : Int) (e : Expr) : Option EvalError :=
  match e with
  | binary _ op l r => op.fault? (l.exact n) (r.exact n)
  | _ => excess? (e.exact n)

/-- The node has a result: it does not divide by zero, 64 bits can hold its exact value, and it is
not the remainder of the least integer by -1. -/
structure Computes (n : Int) (e : Expr) : Prop where
  divisor : ∀ s op l r, e = .binary s op l r → op = .div ∨ op = .rem → r.exact n ≠ 0
  fits : Fits (e.exact n)
  quotient : ∀ s l r, e = .binary s .rem l r → ¬ (l.exact n = -(2 ^ (63 : Nat)) ∧ r.exact n = -1)

/-- A node that is no operator between two operands fails by its size only. -/
theorem fault?_of_ne_binary {n : Int} {e : Expr} (h : ∀ s op l r, e ≠ .binary s op l r) :
    e.fault? n = excess? (e.exact n) := by
  unfold fault?
  split
  · exact absurd rfl (h _ _ _ _)
  · rfl

theorem fault?_eq_none {n : Int} {e : Expr} : e.fault? n = none ↔ e.Computes n := by
  by_cases hbinary : ∃ s op l r, e = .binary s op l r
  · obtain ⟨s, op, l, r, rfl⟩ := hbinary
    show op.fault? (l.exact n) (r.exact n) = none ↔ _
    unfold BinaryOp.fault?
    constructor
    · intro h
      split_ifs at h with hzero hleast
      refine ⟨?_, excess?_eq_none.mp h, ?_⟩
      · rintro s op l r heq hop hr
        cases heq
        exact hzero ⟨hop, hr⟩
      · rintro s l r heq hlr
        cases heq
        exact hleast ⟨rfl, hlr⟩
    · rintro ⟨hdivisor, hfits, hquotient⟩
      have hleast : ¬ (op = .rem ∧ l.exact n = -(2 ^ (63 : Nat)) ∧ r.exact n = -1) := by
        rintro ⟨rfl, h⟩
        exact hquotient s l r rfl h
      rw [if_neg fun h => hdivisor s op l r rfl h.1 h.2, if_neg hleast]
      exact excess?_eq_none.mpr hfits
  · have hne : ∀ s op l r, e ≠ .binary s op l r := fun s op l r h => hbinary ⟨s, op, l, r, h⟩
    rw [fault?_of_ne_binary hne, excess?_eq_none]
    constructor
    · intro hfits
      exact ⟨fun s op l r h => absurd h (hne s op l r), hfits,
        fun s l r h => absurd h (hne s .rem l r)⟩
    · exact fun h => h.fits

theorem cause_of_fault? {n : Int} {e : Expr} {err : EvalError} (h : e.fault? n = some err) :
    err = .divideByZero ∨ err = .overflow := by
  unfold fault? at h
  split at h
  · unfold BinaryOp.fault? at h
    split_ifs at h
    · cases h
      exact Or.inl rfl
    · cases h
      exact Or.inr rfl
    · exact Or.inr (excess?_eq_some h)
  · exact Or.inr (excess?_eq_some h)

end Expr

/-! ### Single operations -/

/-- The outcome of what fails, or else comes to an integer. -/
def settled (failure : Option EvalError) (i : Int) : Outcome? Value :=
  match failure with
  | some err => .error err
  | none => .ok (.int (Int64.ofInt i))

theorem settled_none (i : Int64) : settled none i.toInt = .ok (.int i) := by
  rw [settled, Int64.ofInt_toInt]

/-- An integer of 64 bits is there. -/
theorem settled_excess? (i : Int64) : settled (excess? i.toInt) i.toInt = .ok (.int i) := by
  rw [excess?_eq_none.mpr (Number.fits_toInt i), settled_none]

/-- A step after an integer, where the first failure is what counts. -/
theorem settled_bind {failure next : Option EvalError} {i j : Int} {k : Value → Outcome? Value}
    (h : failure = none → k (.int (Int64.ofInt i)) = settled next j) :
    (settled failure i >>= k) = settled (failure.or next) j := by
  cases failure with
  | none => exact h rfl
  | some err => rfl

namespace Eval

theorem intResult_int64? (i : Int) :
    intResult (Number.int64? i) = settled (excess? i) i := by
  unfold excess?
  by_cases h : Fits i
  · rw [Number.int64?_of_fits h, if_pos h]
    rfl
  · rw [Number.int64?_of_not_fits h, if_neg h]
    rfl

/-- Integer arithmetic has the exact result, or fails for the reason that exact values give. -/
theorem intArithmetic_eq {op : BinaryOp} (hop : op.isArithmetic = true) (a b : Int64) :
    intArithmetic op a b = settled (op.fault? a.toInt b.toInt) (op.exact a.toInt b.toInt) := by
  have hzero : b = 0 ↔ b.toInt = 0 := by rw [← Int64.toInt_inj, Int64.toInt_zero]
  unfold intArithmetic BinaryOp.fault?
  by_cases hdivisor : (op = .div ∨ op = .rem) ∧ b = 0
  · rw [if_pos hdivisor, if_pos ⟨hdivisor.1, hzero.mp hdivisor.2⟩]
    rfl
  rw [if_neg hdivisor, if_neg (by rwa [← hzero])]
  by_cases hrem : op = .rem
  · subst hrem
    have hb : b.toInt ≠ 0 := fun h => hdivisor ⟨Or.inr rfl, hzero.mpr h⟩
    have hquotient := Number.fits_tdiv (Number.fits_toInt a) hb
    show intResult ((Number.int64? (a.toInt.tdiv b.toInt)).bind fun _ =>
      Number.int64? (a.toInt.tmod b.toInt)) = _
    by_cases hleast : a.toInt = -(2 ^ (63 : Nat)) ∧ b.toInt = -1
    · rw [Number.int64?_of_not_fits fun h => hquotient.mp h hleast, if_pos ⟨rfl, hleast⟩]
      rfl
    · have hnot : ¬ (BinaryOp.rem = .rem ∧ a.toInt = -(2 ^ (63 : Nat)) ∧ b.toInt = -1) :=
        fun h => hleast h.2
      rw [Number.int64?_of_fits (hquotient.mpr hleast), Option.bind_some, intResult_int64?,
        if_neg hnot]
      rfl
  · rw [if_neg fun h => hrem h.1, ← intResult_int64?]
    cases op <;> first | rfl | exact absurd rfl hrem | cases hop

theorem strict_integers {op : BinaryOp} (hop : op.isArithmetic = true) (a b : Int64) :
    strict op (.int a) (.int b)
      = settled (op.fault? a.toInt b.toInt) (op.exact a.toInt b.toInt) := by
  rw [← intArithmetic_eq hop]
  cases op <;> first | rfl | cases hop

theorem unary_integer {op : UnaryOp} (hop : op ≠ .not) (a : Int64) :
    unary op (.int a) = settled (excess? (op.exact a.toInt)) (op.exact a.toInt) := by
  cases op with
  | neg => exact intResult_int64? _
  | plus => exact (settled_excess? a).symm
  | not => exact absurd rfl hop

theorem math_abs (a : Int64) :
    math "Abs" [.int a] = settled (excess? a.toInt.natAbs) a.toInt.natAbs := by
  rw [math]
  exact intResult_int64? _

/-- The lesser and the greater of two integers are one of them. -/
theorem math_extreme {f : String} (hf : f = "Min" ∨ f = "Max") (a b : Int64) :
    math f [.int a, .int b] = settled none (mathExact f [a.toInt, b.toInt]) := by
  rcases hf with rfl | rfl
  · show Except.ok (Value.int (if b < a then b else a)) = settled none (min a.toInt b.toInt)
    by_cases h : b < a
    · rw [if_pos h, min_eq_right (Int64.lt_iff_toInt_lt.mp h).le, settled_none]
    · rw [if_neg h, min_eq_left (not_lt.mp fun hlt => h (Int64.lt_iff_toInt_lt.mpr hlt)),
        settled_none]
  · show Except.ok (Value.int (if a < b then b else a)) = settled none (max a.toInt b.toInt)
    by_cases h : a < b
    · rw [if_pos h, max_eq_right (Int64.lt_iff_toInt_lt.mp h).le, settled_none]
    · rw [if_neg h, max_eq_left (not_lt.mp fun hlt => h (Int64.lt_iff_toInt_lt.mpr hlt)),
        settled_none]

end Eval

theorem fits_extreme {f : String} (hf : f = "Min" ∨ f = "Max") {a b : Int} (ha : Fits a)
    (hb : Fits b) : Fits (mathExact f [a, b]) := by
  rcases hf with rfl | rfl
  · show Fits (min a b)
    rcases min_choice a b with h | h <;> rwa [h]
  · show Fits (max a b)
    rcases max_choice a b with h | h <;> rwa [h]

/-! ### Whole expressions -/

namespace Expr

/-- The first failure in the order of evaluation. -/
def firstFault? (n : Int) (e : Expr) : Option EvalError := e.operandsFirst.findSome? (fault? n)

theorem firstFault?_eq_none {n : Int} {e : Expr} :
    e.firstFault? n = none ↔ ∀ d ∈ e.parts, d.Computes n := by
  rw [firstFault?, List.findSome?_eq_none_iff]
  simp only [fault?_eq_none, (operandsFirst_perm e).mem_iff]

theorem fits_of_firstFault? {n : Int} {e : Expr} (h : e.firstFault? n = none) :
    Fits (e.exact n) :=
  (firstFault?_eq_none.mp h e e.self_mem_parts).fits

/-- The first failure among the operands comes before that of what is made of them. -/
theorem firstFault?_eq (n : Int) (e : Expr) :
    e.firstFault? n = (e.children.findSome? (firstFault? n)).or (e.fault? n) := by
  have hchildren : (e.children.flatMap operandsFirst).findSome? (fault? n)
      = e.children.findSome? (firstFault? n) := by
    induction e.children with
    | nil => rfl
    | cons c cs ih =>
        rw [List.flatMap_cons, List.findSome?_append, ih, List.findSome?_cons]
        show (c.firstFault? n).or _ = _
        cases c.firstFault? n <;> rfl
  rw [firstFault?, operandsFirst_eq, List.findSome?_append, hchildren, List.findSome?_singleton]

theorem firstFault?_leaf {n : Int} {e : Expr} (h : e.children = []) :
    e.firstFault? n = e.fault? n := by
  rw [firstFault?_eq, h]
  rfl

theorem firstFault?_one {n : Int} {e c : Expr} (h : e.children = [c]) :
    e.firstFault? n = (c.firstFault? n).or (e.fault? n) := by
  rw [firstFault?_eq, h, List.findSome?_singleton]

theorem firstFault?_two {n : Int} {e l r : Expr} (h : e.children = [l, r]) :
    e.firstFault? n = (l.firstFault? n).or ((r.firstFault? n).or (e.fault? n)) := by
  have htwo : [l, r].findSome? (firstFault? n) = (l.firstFault? n).or (r.firstFault? n) := by
    rw [List.findSome?_cons, List.findSome?_singleton]
    cases l.firstFault? n <;> rfl
  rw [firstFault?_eq, h, htwo, Option.or_assoc]

section Nodes
variable {s : Span} {e l r : Expr} {n : Int64}

/-- An operand that is settled is there, as an integer, unless it fails first. -/
theorem eval_one {node : Expr} {f : Value → Outcome? Value}
    (hchildren : node.children = [e]) (heval : node.eval (.int n) = e.eval (.int n) >>= f)
    (h : e.eval (.int n) = settled (e.firstFault? n.toInt) (e.exact n.toInt))
    (hf : ∀ a : Int64, a.toInt = e.exact n.toInt →
      f (.int a) = settled (node.fault? n.toInt) (node.exact n.toInt)) :
    node.eval (.int n) = settled (node.firstFault? n.toInt) (node.exact n.toInt) := by
  rw [heval, h, firstFault?_one hchildren]
  exact settled_bind fun hnone => hf _ (Number.toInt_ofInt (fits_of_firstFault? hnone))

/-- So are two operands, the left one first. -/
theorem eval_two {node : Expr} {f : Value → Value → Outcome? Value}
    (hchildren : node.children = [l, r])
    (heval : node.eval (.int n) = l.eval (.int n) >>= fun v => r.eval (.int n) >>= f v)
    (hl : l.eval (.int n) = settled (l.firstFault? n.toInt) (l.exact n.toInt))
    (hr : r.eval (.int n) = settled (r.firstFault? n.toInt) (r.exact n.toInt))
    (hf : ∀ a b : Int64, a.toInt = l.exact n.toInt → b.toInt = r.exact n.toInt →
      f (.int a) (.int b) = settled (node.fault? n.toInt) (node.exact n.toInt)) :
    node.eval (.int n) = settled (node.firstFault? n.toInt) (node.exact n.toInt) := by
  rw [heval, hl, hr, firstFault?_two hchildren]
  refine settled_bind fun hleft => settled_bind fun hright => hf _ _ ?_ ?_
  · exact Number.toInt_ofInt (fits_of_firstFault? hleft)
  · exact Number.toInt_ofInt (fits_of_firstFault? hright)

end Nodes

/-- An expression of integers, evaluated on one, comes to its exact value unless a node fails. -/
theorem IsInteger.eval_eq {param : String} {e : Expr} (h : IsInteger param e) (n : Int64) :
    e.eval (.int n) = settled (e.firstFault? n.toInt) (e.exact n.toInt) := by
  induction h with
  | @literal s i =>
      rw [firstFault?_leaf rfl]
      exact (settled_excess? i).symm
  | @name s =>
      rw [firstFault?_leaf rfl]
      exact (settled_excess? n).symm
  | @cast s e _ ih =>
      refine eval_one (f := Eval.cast .int) rfl rfl ih fun a ha => ?_
      show Except.ok (Value.int a) = settled (excess? (e.exact n.toInt)) (e.exact n.toInt)
      rw [← ha, settled_excess?]
  | @unary s op e hop _ ih =>
      refine eval_one (f := Eval.unary op) rfl rfl ih fun a ha => ?_
      rw [Eval.unary_integer hop, ha]
      rfl
  | @binary s op l r hop _ _ ihl ihr =>
      refine eval_two (f := Eval.strict op) rfl ?_ ihl ihr fun a b ha hb => ?_
      · exact eval_strict (by cases op <;> first | rfl | cases hop)
      rw [Eval.strict_integers hop, ha, hb]
      rfl
  | @abs s e _ ih =>
      refine eval_one (f := fun v => Eval.math "Abs" [v]) rfl ?_ ih fun a ha => ?_
      · show (evalArgs (.int n) [e] >>= Eval.math "Abs") = _
        cases h : e.eval (.int n) <;> simp only [evalArgs, h] <;> rfl
      rw [Eval.math_abs, ha]
      rfl
  | @extreme s f l r hf _ _ ihl ihr =>
      refine eval_two (f := fun v w => Eval.math f [v, w]) rfl ?_ ihl ihr fun a b ha hb => ?_
      · show (evalArgs (.int n) [l, r] >>= Eval.math f) = _
        cases hl : l.eval (.int n) <;> cases hr : r.eval (.int n)
          <;> simp only [evalArgs, hl, hr] <;> rfl
      have hfits : Fits (mathExact f [l.exact n.toInt, r.exact n.toInt]) :=
        fits_extreme hf (ha ▸ Number.fits_toInt a) (hb ▸ Number.fits_toInt b)
      rw [Eval.math_extreme hf, ha, hb, ← excess?_eq_none.mpr hfits]
      rfl

/-- The first failure is that of a node behind which nothing has failed. -/
theorem firstFault?_eq_some {n : Int} {e : Expr} {err : EvalError} :
    e.firstFault? n = some err ↔ ∃ front d behind, e.operandsFirst = front ++ d :: behind ∧
      (∀ c ∈ front, c.Computes n) ∧ d.fault? n = some err := by
  rw [firstFault?, List.findSome?_eq_some_iff]
  simp only [fault?_eq_none]
  constructor
  · rintro ⟨front, d, behind, hsplit, hfault, hfront⟩
    exact ⟨front, d, behind, hsplit, hfront, hfault⟩
  · rintro ⟨front, d, behind, hsplit, hfront, hfault⟩
    exact ⟨front, d, behind, hsplit, hfault, hfront⟩

/-- **Integers are exact or fail.**  On an integer, an expression of integers comes to a value if
and only if every node of it computes: no divisor is zero, every exact value fits into 64 bits and
nothing divides the least integer by -1 for its remainder.  That value is then the exact one.
Otherwise it divides by zero or overflows, as the first node does, in the order of evaluation,
that does not compute. -/
theorem eval_integer_exact {param : String} {e : Expr} (h : IsInteger param e) (n : Int64) :
    (∀ v, e.eval (.int n) = .ok v ↔ (∀ d ∈ e.parts, d.Computes n.toInt) ∧
      ∃ i : Int64, v = .int i ∧ i.toInt = e.exact n.toInt) ∧
    ∀ err, e.eval (.int n) = .error err ↔ (err = .divideByZero ∨ err = .overflow) ∧
      ∃ front d behind, e.operandsFirst = front ++ d :: behind ∧
        (∀ c ∈ front, c.Computes n.toInt) ∧ d.fault? n.toInt = some err := by
  rw [h.eval_eq n]
  constructor
  · intro v
    rw [← firstFault?_eq_none]
    cases hfault : e.firstFault? n.toInt with
    | none =>
        have hexact := Number.toInt_ofInt (fits_of_firstFault? hfault)
        rw [settled, Except.ok.injEq]
        constructor
        · rintro rfl
          exact ⟨rfl, _, rfl, hexact⟩
        · rintro ⟨-, i, rfl, hi⟩
          rw [← hi, Int64.ofInt_toInt]
    | some err => exact ⟨nofun, nofun⟩
  · intro err
    have hcause : e.firstFault? n.toInt = some err → err = .divideByZero ∨ err = .overflow := by
      intro hfirst
      obtain ⟨_, _, _, _, _, hfault⟩ := firstFault?_eq_some.mp hfirst
      exact cause_of_fault? hfault
    rw [← firstFault?_eq_some, and_iff_right_of_imp hcause]
    cases e.firstFault? n.toInt with
    | none => exact ⟨nofun, nofun⟩
    | some cause => rw [settled, Except.error.injEq, Option.some.injEq]

/-- `(int)(x - 1) % -1` -/
def beforeOverMinusOne : Expr :=
  .binary ⟨0, 15⟩ .rem
    (.cast ⟨0, 10⟩ .int (.binary ⟨5, 10⟩ .sub (.name ⟨6, 7⟩ "x") (.literal ⟨8, 9⟩ (.int 1))))
    (.unary ⟨13, 15⟩ .neg (.literal ⟨14, 15⟩ (.int 1)))

theorem isInteger_beforeOverMinusOne : IsInteger "x" beforeOverMinusOne :=
  .binary rfl (.cast (.binary rfl .name .literal)) (.unary (by decide) .literal)

/-- The remainder has a value, overflows on the least difference, and is not reached where the
difference overflows before it. -/
theorem eval_beforeOverMinusOne :
    beforeOverMinusOne.eval (.int 8) = .ok (.int 0) ∧
    beforeOverMinusOne.eval (.int (Int64.minValue + 1)) = .error .overflow ∧
    beforeOverMinusOne.eval (.int Int64.minValue) = .error .overflow := by
  have h := isInteger_beforeOverMinusOne
  refine ⟨((eval_integer_exact h 8).1 _).mpr ⟨?_, 0, rfl, by decide⟩,
    ((eval_integer_exact h (Int64.minValue + 1)).2 _).mpr ⟨Or.inr rfl, ?_⟩,
    ((eval_integer_exact h Int64.minValue).2 _).mpr ⟨Or.inr rfl, ?_⟩⟩
  · exact firstFault?_eq_none.mp (by decide)
  · exact firstFault?_eq_some.mp (by decide)
  · exact firstFault?_eq_some.mp (by decide)

end Expr

end LambdaShell
