/-
What operations do to the kinds of values.

Whether an operator, a cast, a method or a function of `Math` is defined depends
on the kinds of its operands alone, and so does the kind of its result.  The tables
here say how, `Foretold` says that an operation keeps to its table, and one lemma
for each operation proves it.  Nothing below this file needs to know how a value is
computed: what types have to do with evaluation is a matter of comparing the
checker's tables with these.

An operation that is defined for its operands can still fail, because a number is
too large, a divisor is zero or a text does not read as a number.  Those failures
are the ones that `EvalError.isData` tells from the rest.
-/
import LambdaShell.Expr.Typing
import LambdaShell.Proofs.Outcome

namespace LambdaShell

/-- The failure comes from the data: the operation was defined for operands of these
kinds, or it was a cast, which is tried on anything. -/
def EvalError.isData : EvalError → Bool
  | divideByZero | overflow | invalidCast .. => true
  | _ => false

/-- The failure is that of a predicate whose answer is no truth value. -/
def EvalError.isVerdict : EvalError → Bool
  | notBool _ => true
  | _ => false

/-! ### Tables -/

namespace Kind

/-- The kind of the numbers. -/
def isNumber : Kind → Bool
  | int | double => true
  | _ => false

/-- The kind of a number computed from two numbers: only integers give integers. -/
def arithmetic? (k l : Kind) : Option Kind :=
  if k = int ∧ l = int then some int
  else if k.isNumber ∧ l.isNumber then some double
  else none

end Kind

/-- The kind that an operator in front of its operand answers. -/
def UnaryOp.kind? (op : UnaryOp) (k : Kind) : Option Kind :=
  match op with
  | not => if k = .bool then some .bool else none
  | neg | plus => if k.isNumber then some k else none

namespace BinaryOp

/-- The operator evaluates both operands whatever the first one is. -/
def isStrict : BinaryOp → Bool
  | and | or | coalesce => false
  | _ => true

/-- An operator evaluates both operands, is one of the two logical ones, or is `??`. -/
theorem strict_or_skips (op : BinaryOp) :
    op.isStrict = true ∨ (op = .and ∨ op = .or) ∨ op = .coalesce := by
  cases op <;> simp [isStrict]

/-- The kind that an operator between two evaluated operands answers. -/
def kind? (op : BinaryOp) (k l : Kind) : Option Kind :=
  match op with
  | add => if k = .string ∨ l = .string then some .string else k.arithmetic? l
  | sub | mul | div | rem => k.arithmetic? l
  | eq | notEq => some .bool
  | lt | atMost | gt | atLeast =>
    if (k.isNumber ∧ l.isNumber) ∨ (k = .string ∧ l = .string) then some .bool else none
  | and | or | coalesce => none

end BinaryOp

/-- The kind that a cast answers. -/
def CastType.kind? (target : CastType) (k : Kind) : Option Kind :=
  match target with
  | object => some k
  | int => if k.isNumber ∨ k = .string then some .int else none
  | float => if k.isNumber ∨ k = .string then some .double else none
  | str => if k = .null then some .null else some .string
  | bool => if k = .bool ∨ k = .string then some .bool else none

/-- The kind that a method of a text answers, given the kinds of its arguments. -/
def textMethodKind? (n : String) (args : List Kind) : Option Kind :=
  match n with
  | "ToUpper" | "ToLower" | "Trim" => some .string
  | "Contains" | "StartsWith" | "EndsWith" =>
    if args.head? = some .string then some .bool else none
  | _ => none

/-- The kind that a method answers, given the kinds of its target and its arguments. -/
def methodKind? (n : String) (target : Kind) (args : List Kind) : Option Kind :=
  if target = .null then none
  else if n = "ToString" then some .string
  else if target = .string then textMethodKind? n args
  else none

/-- The kind of a double computed from a number. -/
def oneNumber? : List Kind → Option Kind
  | k :: _ => if k.isNumber then some .double else none
  | [] => none

/-- The kind of a double computed from two numbers. -/
def twoNumbers? : List Kind → Option Kind
  | k :: l :: _ => if k.isNumber ∧ l.isNumber then some .double else none
  | _ => none

/-- The kind that a function of `Math` answers where it computes on doubles. -/
def floatMathKind? (f : String) (args : List Kind) : Option Kind :=
  match f with
  | "Abs" | "Sqrt" | "Floor" | "Ceiling" => oneNumber? args
  | "Min" | "Max" | "Pow" => twoNumbers? args
  | "Round" =>
    match args with
    | [_] | [_, .int] => oneNumber? args
    | _ => none
  | _ => none

/-- The kind that a function of `Math` answers; some keep integers as they are. -/
def mathKind? (f : String) (args : List Kind) : Option Kind :=
  if f = "Abs" ∧ args = [.int] ∨ (f = "Min" ∨ f = "Max") ∧ args = [.int, .int] then some .int
  else floatMathKind? f args

namespace Eval

/-- The outcome is a value of the kind foretold.  If it is a failure nevertheless, it is
one that comes from the data; no operation fails the way a predicate does. -/
def Foretold (k : Option Kind) : Outcome? Value → Prop
  | .ok v => k = some v.kind
  | .error e => (k = none ∧ e.isVerdict = false) ∨ e.isData = true

theorem isVerdict_of_isData {e : EvalError} (h : e.isData = true) : e.isVerdict = false := by
  cases e <;> first | rfl | cases h

theorem isVerdict_of_foretold {k : Option Kind} {r : Outcome? Value} {e : EvalError}
    (h : Foretold k r) (he : r = .error e) : e.isVerdict = false := by
  subst he
  rcases h with ⟨-, h⟩ | h
  · exact h
  · exact isVerdict_of_isData h

theorem kind_of_foretold {k : Option Kind} {r : Outcome? Value} {v : Value}
    (h : Foretold k r) (hv : r = .ok v) : k = some v.kind := by
  subst hv
  exact h

theorem isData_of_foretold {k : Kind} {r : Outcome? Value} {e : EvalError}
    (h : Foretold (some k) r) (he : r = .error e) : e.isData = true := by
  subst he
  exact h.resolve_left (by simp)

/-! ### Operators -/

variable {v w : Value}

theorem intResult_foretold (i : Option Int64) : Foretold (some .int) (intResult i) := by
  cases i with
  | none => exact Or.inr rfl
  | some i => rfl

theorem unary_foretold (op : UnaryOp) (v : Value) : Foretold (op.kind? v.kind) (unary op v) := by
  cases op with
  | not => cases v <;> simp [unary, UnaryOp.kind?, Foretold, Value.kind, EvalError.isVerdict]
  | neg =>
      cases v with
      | int i => exact intResult_foretold _
      | _ =>
          simp [unary, UnaryOp.kind?, Foretold, Value.kind, Kind.isNumber, EvalError.isVerdict]
  | plus =>
      cases v <;> simp [unary, UnaryOp.kind?, Foretold, Value.kind, Kind.isNumber,
        EvalError.isVerdict]

/-- Numbers, and nothing else, have a view as a double. -/
theorem asFloat?_isSome (v : Value) : (asFloat? v).isSome = v.kind.isNumber := by
  cases v <;> rfl

theorem isNumber_of_asFloat? {x : Double} (h : asFloat? v = some x) : v.kind.isNumber = true := by
  rw [← asFloat?_isSome, h]
  rfl

theorem asFloat?_of_isNumber (h : v.kind.isNumber = true) : ∃ x, asFloat? v = some x := by
  rw [← asFloat?_isSome] at h
  exact Option.isSome_iff_exists.mp h

theorem joined?_eq_none {op : BinaryOp}
    (h : op ≠ .add ∨ (v.kind ≠ .string ∧ w.kind ≠ .string)) : joined? op v w = none := by
  unfold joined?
  split <;> simp_all

theorem intArithmetic_foretold (op : BinaryOp) (a b : Int64) :
    Foretold (some .int) (intArithmetic op a b) := by
  unfold intArithmetic
  split
  · exact Or.inr rfl
  · exact intResult_foretold _

/-- Arithmetic on what is not joined as text. -/
theorem arithmetic_foretold {op : BinaryOp} (h : joined? op v w = none) :
    Foretold (v.kind.arithmetic? w.kind) (arithmetic op v w) := by
  unfold arithmetic
  rw [h]
  dsimp only
  split
  · exact intArithmetic_foretold op _ _
  · rename_i hints
    have hne : ¬ (v.kind = .int ∧ w.kind = .int) := by
      rintro ⟨hv, hw⟩
      cases v <;> simp [Value.kind] at hv
      cases w <;> simp [Value.kind] at hw
      exact hints _ _ rfl rfl
    unfold Kind.arithmetic?
    rw [if_neg hne]
    by_cases hnum : v.kind.isNumber = true ∧ w.kind.isNumber = true
    · obtain ⟨x, hx⟩ := asFloat?_of_isNumber hnum.1
      obtain ⟨y, hy⟩ := asFloat?_of_isNumber hnum.2
      rw [if_pos hnum, hx, hy]
      rfl
    · rw [if_neg hnum]
      split
      · rename_i x y hx hy
        exact absurd ⟨isNumber_of_asFloat? hx, isNumber_of_asFloat? hy⟩ hnum
      · exact Or.inl ⟨rfl, rfl⟩

theorem ordering_foretold (op : BinaryOp) (v w : Value) :
    (∃ o, ordering op v w = .ok o ∧
        ((v.kind.isNumber = true ∧ w.kind.isNumber = true) ∨
          (v.kind = .string ∧ w.kind = .string))) ∨
      (∃ e, ordering op v w = .error e ∧ e.isVerdict = false ∧
        ¬ ((v.kind.isNumber = true ∧ w.kind.isNumber = true) ∨
          (v.kind = .string ∧ w.kind = .string))) := by
  cases v <;> cases w <;>
    simp [ordering, asFloat?, Value.kind, Kind.isNumber, EvalError.isVerdict]

/-- An operator that evaluates both operands keeps to its table. -/
theorem strict_foretold {op : BinaryOp} (hop : op.isStrict = true) (v w : Value) :
    Foretold (op.kind? v.kind w.kind) (strict op v w) := by
  have harith : ∀ op, op ≠ .add → Foretold (v.kind.arithmetic? w.kind) (arithmetic op v w) :=
    fun op h => arithmetic_foretold (joined?_eq_none (Or.inl h))
  cases op with
  | add =>
      unfold BinaryOp.kind? strict
      by_cases hv : v.kind = .string
      · cases v <;> simp [Value.kind] at hv
        rfl
      · by_cases hw : w.kind = .string
        · cases w <;> simp [Value.kind] at hw
          cases v <;> rfl
        · rw [if_neg (by simp [hv, hw])]
          exact arithmetic_foretold (joined?_eq_none (Or.inr ⟨hv, hw⟩))
  | sub => exact harith .sub (by decide)
  | mul => exact harith .mul (by decide)
  | div => exact harith .div (by decide)
  | rem => exact harith .rem (by decide)
  | eq => rfl
  | notEq => rfl
  | and => simp [BinaryOp.isStrict] at hop
  | or => simp [BinaryOp.isStrict] at hop
  | coalesce => simp [BinaryOp.isStrict] at hop
  | _ =>
      unfold BinaryOp.kind? strict
      rcases ordering_foretold _ v w with ⟨o, ho, hk⟩ | ⟨e, he, hverdict, hk⟩
      · rw [ho, if_pos hk]
        rfl
      · rw [he, if_neg hk]
        exact Or.inl ⟨rfl, hverdict⟩

/-! ### Casts -/

theorem castInt_foretold (v : Value) : Foretold (some .int) (castInt v) := by
  cases v with
  | int i => rfl
  | float x => exact intResult_foretold _
  | str s =>
      simp only [castInt]
      split
      · rfl
      · split
        · exact intResult_foretold _
        · exact Or.inr rfl
  | _ => exact Or.inr rfl

theorem castFloat_foretold (v : Value) : Foretold (some .double) (castFloat v) := by
  cases v with
  | int i => rfl
  | float x => rfl
  | str s =>
      simp only [castFloat]
      split
      · rfl
      · exact Or.inr rfl
  | _ => exact Or.inr rfl

theorem castBool_foretold (v : Value) : Foretold (some .bool) (castBool v) := by
  cases v with
  | bool b => rfl
  | str s =>
      simp only [castBool]
      split
      · rfl
      · exact Or.inr rfl
  | _ => exact Or.inr rfl

theorem cast_foretold (target : CastType) (v : Value) :
    Foretold (target.kind? v.kind) (cast target v) := by
  cases target with
  | object => rfl
  | str => cases v <;> rfl
  | int =>
      cases v with
      | int i => exact castInt_foretold (.int i)
      | float x => exact castInt_foretold (.float x)
      | str s => exact castInt_foretold (.str s)
      | _ => exact Or.inl ⟨rfl, rfl⟩
  | float =>
      cases v with
      | int i => exact castFloat_foretold (.int i)
      | float x => exact castFloat_foretold (.float x)
      | str s => exact castFloat_foretold (.str s)
      | _ => exact Or.inl ⟨rfl, rfl⟩
  | bool =>
      cases v with
      | bool b => exact castBool_foretold (.bool b)
      | str s => exact castBool_foretold (.str s)
      | _ => exact Or.inl ⟨rfl, rfl⟩

/-- Whatever is cast to whatever, a cast fails only because of the data. -/
theorem cast_error {target : CastType} {e : EvalError} (h : cast target v = .error e) :
    e.isData = true := by
  cases target with
  | object => cases h
  | str => cases h
  | int => exact isData_of_foretold (castInt_foretold v) h
  | float => exact isData_of_foretold (castFloat_foretold v) h
  | bool => exact isData_of_foretold (castBool_foretold v) h

/-! ### Members -/

/-- Members that exist: the fields of records, and the length of texts and lists. -/
theorem member_ok {n : String} (h : member v n = .ok w) :
    v.kind = .record ∨ (v.kind = .string ∧ n = "Length" ∧ w.kind = .int) ∨ v.kind = .list := by
  cases v with
  | str s =>
      simp only [member] at h
      split at h
      · cases h
        exact Or.inr (Or.inl ⟨rfl, ‹_›, rfl⟩)
      · cases h
  | record fields => exact Or.inl rfl
  | list items => exact Or.inr (Or.inr rfl)
  | _ => cases h

theorem member_error {n : String} {e : EvalError} (h : member v n = .error e) :
    e.isVerdict = false := by
  cases v with
  | record fields =>
      simp only [member] at h
      split at h <;> cases h
      rfl
  | str s =>
      simp only [member] at h
      split at h <;> cases h
      rfl
  | list items =>
      simp only [member] at h
      split at h <;> cases h
      rfl
  | _ => cases h; rfl

/-- Every text has a length. -/
theorem member_length (h : v.kind = .string) : ∃ i, member v "Length" = .ok (.int i) := by
  cases v with
  | str s => exact ⟨_, rfl⟩
  | _ => cases h

/-! ### Methods -/

theorem textArgument_foretold (n : String) (args : List Value) :
    (∃ cs, textArgument n args = .ok cs ∧ (args.map Value.kind).head? = some .string) ∨
      (∃ e, textArgument n args = .error e ∧ e.isVerdict = false ∧
        (args.map Value.kind).head? ≠ some .string) := by
  cases args with
  | nil => exact Or.inr ⟨_, rfl, rfl, by simp⟩
  | cons a as => cases a <;> simp [textArgument, Value.kind, castFailure, EvalError.isVerdict]

theorem textMethod_foretold (s : List Char) (n : String) (args : List Value) :
    Foretold (textMethodKind? n (args.map Value.kind)) (textMethod s n args) := by
  -- The three methods with an argument read it before anything else.
  have hread : ∀ answer : List Char → Bool,
      Foretold (if (args.map Value.kind).head? = some .string then some .bool else none)
        (do return .bool (answer (← textArgument n args))) := by
    intro answer
    rcases textArgument_foretold n args with ⟨cs, hcs, hk⟩ | ⟨e, he, hverdict, hk⟩
    · rw [hcs, if_pos hk]
      rfl
    · rw [he, if_neg hk]
      exact Or.inl ⟨rfl, hverdict⟩
  unfold textMethodKind?
  split
  · rfl
  · rfl
  · rfl
  · exact hread (occursIn · s)
  · exact hread (·.isPrefixOf s)
  · exact hread (·.isSuffixOf s)
  · have hnone : textMethod s n args = .error (.noMember "string" n) := by simp [textMethod, *]
    rw [hnone]
    exact Or.inl ⟨rfl, rfl⟩

theorem method_foretold (v : Value) (n : String) (args : List Value) :
    Foretold (methodKind? n v.kind (args.map Value.kind)) (method v n args) := by
  by_cases hn : n = "ToString"
  · cases v <;> simp [methodKind?, method, Foretold, Value.kind, EvalError.isVerdict, hn]
  · cases v with
    | null => exact Or.inl ⟨rfl, rfl⟩
    | str s =>
        have htext := textMethod_foretold s.toList n args
        simpa [methodKind?, method, Value.kind, hn] using htext
    | _ => simp [methodKind?, method, Foretold, Value.kind, EvalError.isVerdict, hn]

/-! ### Functions of `Math` -/

theorem numberArgument_foretold (f : String) (args : List Value) (i : Nat) :
    (∃ x k, numberArgument f args i = .ok x ∧ (args.map Value.kind)[i]? = some k ∧
        k.isNumber = true) ∨
      (∃ e, numberArgument f args i = .error e ∧ e.isVerdict = false ∧
        ∀ k, (args.map Value.kind)[i]? = some k → k.isNumber = false) := by
  unfold numberArgument
  cases hv : args[i]? with
  | none => exact Or.inr ⟨_, rfl, rfl, by simp [hv]⟩
  | some v =>
      cases hx : asFloat? v with
      | some x => exact Or.inl ⟨x, v.kind, by simp [hx], by simp [hv], isNumber_of_asFloat? hx⟩
      | none =>
          refine Or.inr ⟨castFailure v .float, by simp [hx], rfl, ?_⟩
          intro k hk
          rw [List.getElem?_map, hv, Option.map_some, Option.some.injEq] at hk
          rw [← hk, ← asFloat?_isSome, hx]
          rfl

theorem oneNumber_foretold (f : String) (args : List Value) (g : Double → Double) :
    Foretold (oneNumber? (args.map Value.kind))
      (do return .float (g (← numberArgument f args 0))) := by
  rcases numberArgument_foretold f args 0 with ⟨x, k, hx, hk, hnum⟩ | ⟨e, he, hverdict, hk⟩
  · rw [hx]
    cases args with
    | nil => simp at hk
    | cons a as =>
        simp only [List.map_cons, List.getElem?_cons_zero, Option.some.injEq] at hk
        subst hk
        rw [List.map_cons, oneNumber?, if_pos hnum]
        rfl
  · rw [he]
    cases args with
    | nil => exact Or.inl ⟨rfl, hverdict⟩
    | cons a as =>
        rw [List.map_cons, oneNumber?, if_neg (by simp [hk a.kind rfl])]
        exact Or.inl ⟨rfl, hverdict⟩

theorem twoNumbers_foretold (f : String) (args : List Value) (g : Double → Double → Double) :
    Foretold (twoNumbers? (args.map Value.kind)) (do
      let x ← numberArgument f args 0
      let y ← numberArgument f args 1
      return .float (g x y)) := by
  rcases numberArgument_foretold f args 0 with ⟨x, k, hx, hk, hxn⟩ | ⟨e, he, hverdict, hk⟩
  · rw [hx]
    rcases numberArgument_foretold f args 1 with ⟨y, l, hy, hl, hyn⟩ | ⟨e, he, hverdict, hl⟩
    · rw [show (do let x ← Except.ok x; let y ← numberArgument f args 1; return .float (g x y))
          = (.ok (.float (g x y)) : Outcome? Value) by rw [hy]; rfl]
      match args, hk, hl with
      | a :: b :: as, hk, hl =>
          cases hk
          cases hl
          rw [List.map_cons, List.map_cons, twoNumbers?, if_pos ⟨hxn, hyn⟩]
          rfl
    · rw [show (do let x ← Except.ok x; let y ← numberArgument f args 1; return .float (g x y))
          = (.error e : Outcome? Value) by rw [he]; rfl]
      match args, hl with
      | [], _ => exact Or.inl ⟨rfl, hverdict⟩
      | [a], _ => exact Or.inl ⟨rfl, hverdict⟩
      | a :: b :: as, hl =>
          rw [List.map_cons, List.map_cons, twoNumbers?, if_neg (by simp [hl b.kind rfl])]
          exact Or.inl ⟨rfl, hverdict⟩
  · rw [he]
    match args, hk with
    | [], _ => exact Or.inl ⟨rfl, hverdict⟩
    | [a], _ => exact Or.inl ⟨rfl, hverdict⟩
    | a :: b :: as, hk =>
        rw [List.map_cons, List.map_cons, twoNumbers?, if_neg (by simp [hk a.kind rfl])]
        exact Or.inl ⟨rfl, hverdict⟩

theorem floatMath_foretold (f : String) (args : List Value) :
    Foretold (floatMathKind? f (args.map Value.kind)) (floatMath f args) := by
  unfold floatMathKind?
  split
  · exact oneNumber_foretold _ args Double.abs
  · exact oneNumber_foretold _ args Double.sqrt
  · exact oneNumber_foretold _ args (Number.roundWhole .floor)
  · exact oneNumber_foretold _ args (Number.roundWhole .ceiling)
  · exact twoNumbers_foretold _ args Number.lesser
  · exact twoNumbers_foretold _ args Number.greater
  · exact twoNumbers_foretold _ args Double.pow
  · match args with
    | [] => exact Or.inl ⟨rfl, rfl⟩
    | [a] => exact oneNumber_foretold _ [a] (Number.roundWhole .nearestEven)
    | [a, .int places] =>
        exact oneNumber_foretold _ [a, .int places] (roundPlaces · places.toInt)
    | [a, .null] | [a, .bool _] | [a, .float _] | [a, .str _] | [a, .record _] | [a, .list _] =>
        exact Or.inl ⟨rfl, rfl⟩
    | a :: b :: c :: rest => cases b <;> exact Or.inl ⟨rfl, rfl⟩
  · have hnone : floatMath f args = .error (.noMember "Math" f) := by simp [floatMath, *]
    rw [hnone]
    exact Or.inl ⟨rfl, rfl⟩

theorem exists_int (h : v.kind = .int) : ∃ i, v = .int i := by
  cases v with
  | int i => exact ⟨i, rfl⟩
  | _ => cases h

theorem math_foretold (f : String) (args : List Value) :
    Foretold (mathKind? f (args.map Value.kind)) (math f args) := by
  unfold math
  split
  · rename_i i
    -- Kept closed, or the bounds of `int64?` are unfolded in unary.
    generalize Number.int64? (i.toInt.natAbs : Int) = r
    rw [mathKind?, if_pos (by simp [Value.kind])]
    exact intResult_foretold r
  · rw [mathKind?, if_pos (by simp [Value.kind])]
    rfl
  · rw [mathKind?, if_pos (by simp [Value.kind])]
    rfl
  · rename_i habs hmin hmax
    rw [mathKind?, if_neg]
    · exact floatMath_foretold f args
    · rintro (⟨hf, hargs⟩ | ⟨hf, hargs⟩)
      · obtain ⟨a, rfl, ha⟩ := List.map_eq_singleton_iff.mp hargs
        obtain ⟨i, rfl⟩ := exists_int ha
        exact habs i hf rfl
      · obtain ⟨a, rest, rfl, ha, hrest⟩ := List.map_eq_cons_iff.mp hargs
        obtain ⟨b, rfl, hb⟩ := List.map_eq_singleton_iff.mp hrest
        obtain ⟨i, rfl⟩ := exists_int ha
        obtain ⟨j, rfl⟩ := exists_int hb
        rcases hf with hf | hf
        · exact hmin i j hf rfl
        · exact hmax i j hf rfl

/-- Rounding to a number of places that is given as a double is no function of `Math`. -/
theorem math_round_double (v : Value) (x : Double) :
    math "Round" [v, .float x] = .error (.noMember "Math" "Round") := rfl

end Eval

end LambdaShell
