/-
Two passes over the items in one.

Filtering twice is filtering once by a conjunction.  `&&` needs its second operand only where
the first is true, and the second filter sees an item only where the first has kept it, so the
second predicate is asked about the same items; the one pass and the two passes fail on the same
lists, though not always for the same reason.

Projecting twice is projecting once by the second lambda with the first one in place of its
parameter.  That may succeed where the first of the two passes fails, since an operand that is
skipped need not have a value, so only the passes behind a first one that succeeds are compared.
-/
import LambdaShell.Proofs.Expr.Preservation
import LambdaShell.Proofs.Expr.Substitution
import LambdaShell.Proofs.Items.Reports

namespace LambdaShell

/-! ### Lambdas put together -/

/-- The lambda whose body joins those of `p` and `q` with `&&`. -/
def LambdaExpr.both (s : Span) (p q : LambdaExpr) : LambdaExpr :=
  ⟨p.param, .binary s .and p.body q.body⟩

theorem LambdaExpr.issues_both {s : Span} {p q : LambdaExpr} (hparam : p.param = q.param)
    (hp : p.issues .boolean = []) (hq : q.issues .boolean = []) :
    (p.both s q).issues .boolean = [] := by
  obtain ⟨hpBody, hpBool⟩ := Lambda.issues_boolean.mp hp
  obtain ⟨hqBody, hqBool⟩ := Lambda.issues_boolean.mp hq
  have htype : BinaryOp.resultType? .and p.body.type q.body.type = some .bool :=
    if_pos ⟨hpBool, hqBool⟩
  refine Lambda.issues_boolean.mpr ⟨Expr.issues_binary.mpr ⟨⟨hpBody, ?_⟩, .bool, htype⟩, ?_⟩
  · show q.body.issues p.param = []
    rw [hparam]
    exact hqBody
  · show Ty.admits ((BinaryOp.resultType? .and p.body.type q.body.type).getD .dynamic) .bool = true
    rw [htype]
    rfl

namespace Lambda

variable {p q : Lambda} {v : Value} {b : Bool}

/-- The predicate that asks `p` first, and `q` of what passes; `source` is its text. -/
def both (source : String) (s : Span) (p q : Lambda) : Lambda :=
  ⟨source, .boolean, p.expr.both s q.expr⟩

/-- The projection that applies `f` first, and `g` to what comes of it; `source` is its text. -/
def after (source : String) (g f : Lambda) : Lambda := ⟨source, .any, g.expr.after f.expr⟩

/-- The second predicate has a say only where the first one is true. -/
theorem test_both {source : String} {s : Span} : (both source s p q).test v = .ok b ↔
    (p.test v = .ok false ∧ b = false) ∨ (p.test v = .ok true ∧ q.test v = .ok b) := by
  rw [test_eq_ok, test_eq_ok, test_eq_ok, test_eq_ok]
  show (Expr.binary s .and p.expr.body q.expr.body).eval v = _ ↔ _
  rw [Expr.eval_logical (Or.inl rfl)]
  -- Where an operand is no truth value, `&&` and `verdict` fail for different reasons, so only
  -- the successes are compared.
  constructor
  · intro h
    obtain ⟨x, hx, h⟩ := Outcome.bind_eq_ok.mp h
    obtain ⟨a, ha, h⟩ := Outcome.bind_eq_ok.mp h
    rw [Expr.truth_eq_ok.mp ha] at hx
    cases a with
    | false =>
        cases h
        exact Or.inl ⟨hx, rfl⟩
    | true =>
        obtain ⟨y, hy, h⟩ := Outcome.bind_eq_ok.mp h
        obtain ⟨c, hc, h⟩ := Outcome.bind_eq_ok.mp h
        cases h
        rw [Expr.truth_eq_ok.mp hc] at hy
        exact Or.inr ⟨hx, hy⟩
  · rintro (⟨hp, rfl⟩ | ⟨hp, hq⟩)
    · have hfirst : p.expr.body.eval v = .ok (.bool false) := hp
      rw [hfirst]
      rfl
    · have hfirst : p.expr.body.eval v = .ok (.bool true) := hp
      have hsecond : q.expr.body.eval v = .ok (.bool b) := hq
      rw [hfirst, hsecond]
      rfl

end Lambda

namespace Items

variable {p q r : Value → Outcome? Bool} {f g h : Value → Outcome? Value}
  {items ys : List Value}

/-! ### Filters -/

/-- The test `r` has a verdict where `p` rejects, and where `q` has one on what `p` passes. -/
def Conjoins (r p q : Value → Outcome? Bool) : Prop :=
  ∀ v b, r v = .ok b ↔ (p v = .ok false ∧ b = false) ∨ (p v = .ok true ∧ q v = .ok b)

theorem Conjoins.passes (hr : Conjoins r p q) (v : Value) :
    passes r v = (passes p v && passes q v) := by
  rw [Bool.eq_iff_iff, Bool.and_eq_true, passes_iff, passes_iff, passes_iff, hr]
  simp

theorem Conjoins.decides (hr : Conjoins r p q) :
    Decides r items ↔ Decides p items ∧ Decides q (items.filter (Items.passes p)) := by
  constructor
  · intro hdecides
    refine ⟨fun v hv => ?_, fun v hv => ?_⟩
    · obtain ⟨b, hb⟩ := hdecides v hv
      rcases (hr v b).mp hb with ⟨hp, -⟩ | ⟨hp, -⟩
      · exact ⟨false, hp⟩
      · exact ⟨true, hp⟩
    · -- A verdict of `r` on an item that `p` passes can only have come from `q`.
      obtain ⟨hmem, hpasses⟩ := List.mem_filter.mp hv
      obtain ⟨b, hb⟩ := hdecides v hmem
      rcases (hr v b).mp hb with ⟨hp, -⟩ | ⟨-, hq⟩
      · rw [passes_of_ok hp] at hpasses
        cases hpasses
      · exact ⟨b, hq⟩
  · rintro ⟨hp, hq⟩ v hv
    obtain ⟨a, ha⟩ := hp v hv
    cases a with
    | false => exact ⟨false, (hr v false).mpr (Or.inl ⟨ha, rfl⟩)⟩
    | true =>
        obtain ⟨b, hb⟩ := hq v (List.mem_filter.mpr ⟨hv, passes_iff.mpr ha⟩)
        exact ⟨b, (hr v b).mpr (Or.inr ⟨ha, hb⟩)⟩

theorem Conjoins.filter_eq_ok_iff (hr : Conjoins r p q) :
    (∃ kept, filter p items = .ok kept ∧ filter q kept = .ok ys) ↔ filter r items = .ok ys := by
  have hkept : (items.filter (Items.passes p)).filter (Items.passes q)
      = items.filter (Items.passes r) := by
    rw [List.filter_filter]
    refine List.filter_congr fun v _ => ?_
    rw [hr.passes, Bool.and_comm]
  simp only [Items.filter_eq_ok_iff, hr.decides, ← hkept]
  constructor
  · rintro ⟨kept, ⟨hp, rfl⟩, hq, hys⟩
    exact ⟨⟨hp, hq⟩, hys⟩
  · rintro ⟨⟨hp, hq⟩, hys⟩
    exact ⟨_, ⟨hp, rfl⟩, hq, hys⟩

/-- **Two filters in a row are one filter by `&&`.**

The conjunction of two predicates that pass the checks passes them too, and filtering by it
succeeds exactly if filtering by the one and then by the other does, and with the same items. -/
theorem filter_filter_iff_both {p q : Lambda} (hparam : p.expr.param = q.expr.param)
    (hp : p.expr.issues .boolean = []) (hq : q.expr.issues .boolean = []) (source : String)
    (s : Span) :
    (Lambda.both source s p q).expr.issues .boolean = [] ∧
      ∀ items ys, (∃ kept, filter p.test items = .ok kept ∧ filter q.test kept = .ok ys) ↔
        filter (Lambda.both source s p q).test items = .ok ys := by
  have hboth : Conjoins (Lambda.both source s p q).test p.test q.test :=
    fun _ _ => Lambda.test_both
  exact ⟨LambdaExpr.issues_both hparam hp hq, fun _ _ => hboth.filter_eq_ok_iff⟩

/-- The numbers above zero. -/
def positive : Lambda := ⟨"x => (int)x > 0", .boolean,
  ⟨"x", .binary ⟨5, 15⟩ .gt (.cast ⟨5, 11⟩ .int (.name ⟨10, 11⟩ "x")) (.literal ⟨14, 15⟩ (.int 0))⟩⟩

/-- The numbers that go into ten more than once; zero must not be asked. -/
def twiceInTen : Lambda := ⟨"x => 10 / (int)x > 1", .boolean,
  ⟨"x", .binary ⟨5, 20⟩ .gt
    (.binary ⟨5, 16⟩ .div (.literal ⟨5, 7⟩ (.int 10)) (.cast ⟨10, 16⟩ .int (.name ⟨15, 16⟩ "x")))
    (.literal ⟨19, 20⟩ (.int 1))⟩⟩

/-- A zero that the first filter drops is not divided by, whether in a pass of its own or behind
`&&`. -/
theorem positive_and_twiceInTen : positive.expr.param = twiceInTen.expr.param ∧
    positive.expr.issues .boolean = [] ∧ twiceInTen.expr.issues .boolean = [] ∧
      filter twiceInTen.test [.int 0, .int 5, .int 8] = .error .divideByZero ∧
      (Lambda.both "x => (int)x > 0 && 10 / (int)x > 1" ⟨5, 34⟩ positive twiceInTen).expr.issues
        .boolean = [] ∧
      filter (Lambda.both "x => (int)x > 0 && 10 / (int)x > 1" ⟨5, 34⟩ positive twiceInTen).test
        [.int 0, .int 5, .int 8] = .ok [.int 5] := by
  have hpositive : positive.expr.issues .boolean = [] := by decide
  have htwice : twiceInTen.expr.issues .boolean = [] := by decide
  obtain ⟨hissues, hfilter⟩ := filter_filter_iff_both (p := positive) (q := twiceInTen) rfl
    hpositive htwice "x => (int)x > 0 && 10 / (int)x > 1" ⟨5, 34⟩
  refine ⟨rfl, hpositive, htwice, rfl, hissues, ?_⟩
  exact (hfilter _ _).mp ⟨[.int 5, .int 8], rfl, rfl⟩

/-! ### Projections -/

theorem select_select (hgf : ∀ v w, f v = .ok w → h v = g w) (hys : select f items = .ok ys) :
    select h items = select g ys := by
  induction items generalizing ys with
  | nil =>
      cases hys
      rfl
  | cons v items ih =>
      obtain ⟨w, hw, hys⟩ := Outcome.bind_eq_ok.mp hys
      obtain ⟨ws, hws, hys⟩ := Outcome.bind_eq_ok.mp hys
      cases hys
      rw [select, select, hgf v w hw, ih hws]

/-- **Two projections in a row are one by substitution.**

Where projecting by `f` succeeds, projecting what comes of it by `g` has the outcome of projecting
the items by the body of `g` with that of `f` in place of the parameter: if the one succeeds, the
other does with the same items. -/
theorem select_select_eq_after {f g : Lambda} (hg : g.expr.issues .any = [])
    (hys : select f.call items = .ok ys) (source : String) :
    select (Lambda.after source g f).call items = select g.call ys := by
  refine select_select (fun v w hw => ?_) hys
  exact Expr.eval_subst hw g.expr.body (Lambda.issues_body hg)

/-- The number that a text stands for. -/
def readInt : Lambda := ⟨"x => (int)x", .any, ⟨"x", .cast ⟨5, 11⟩ .int (.name ⟨10, 11⟩ "x")⟩⟩

/-- Whether a number goes into ten more than once; small ones are not asked. -/
def twiceInTenAboveTwo : Lambda := ⟨"y => y > 2 && 10 / y > 1", .any,
  ⟨"y", .binary ⟨5, 24⟩ .and
    (.binary ⟨5, 10⟩ .gt (.name ⟨5, 6⟩ "y") (.literal ⟨9, 10⟩ (.int 2)))
    (.binary ⟨14, 24⟩ .gt
      (.binary ⟨14, 20⟩ .div (.literal ⟨14, 16⟩ (.int 10)) (.name ⟨19, 20⟩ "y"))
      (.literal ⟨23, 24⟩ (.int 1)))⟩⟩

/-- The parameter stands in two places, of which the second is skipped for a zero. -/
theorem twiceInTenAboveTwo_after_readInt : twiceInTenAboveTwo.expr.issues .any = [] ∧
    select readInt.call [.str "5", .str "0"] = .ok [.int 5, .int 0] ∧
      select (Lambda.after "x => (int)x > 2 && 10 / (int)x > 1" twiceInTenAboveTwo readInt).call
        [.str "5", .str "0"] = .ok [.bool true, .bool false] := by
  have hissues : twiceInTenAboveTwo.expr.issues .any = [] := by decide
  have hread : select readInt.call [.str "5", .str "0"] = .ok [.int 5, .int 0] := by cbv
  refine ⟨hissues, hread, ?_⟩
  exact select_select_eq_after hissues hread _

end Items

end LambdaShell
