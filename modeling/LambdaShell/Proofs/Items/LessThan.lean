/-
How far sorting agrees with `<`.

There are two orders of numbers.  Sorting takes every number for a double; the operator `<`
does so as well, unless both operands are integers, which it compares exactly.  Neither
contradicts the other where the doubles differ.  So items that stand the wrong way round in
a sorted list are integers that become the same double, for sorting keeps those as it finds
them and `<` tells them apart.  This takes integers of at least `2 ^ 53`.
-/
import Mathlib
import LambdaShell.Command.Line
import LambdaShell.Proofs.Items.Sorting
import LambdaShell.Proofs.Number.TotalOrder
import LambdaShell.Proofs.Value.Equality

namespace LambdaShell.Items

variable {v w : Value} {x y : Double}

/-! ### The two orders of numbers -/

/-- The operator `<` holds between two values. -/
def Below (v w : Value) : Prop := Eval.strict .lt v w = .ok (.bool true)

/-- Two integers, the lesser first, that are the same double. -/
def RoundTogether (v w : Value) : Prop :=
  ∃ a b : Int64, v = .int a ∧ w = .int b ∧ a.toInt < b.toInt ∧
    Number.ofInt64 a = Number.ofInt64 b

theorem below_of_ordering {o : Option Ordering} (h : Eval.ordering .lt v w = .ok o) :
    Below v w ↔ o = some .lt := by
  have hstrict : Eval.strict .lt v w = .ok (.bool (o.any (Eval.holds .lt))) := by
    rw [Eval.strict, h]
    rfl
  unfold Below
  rw [hstrict]
  rcases o with _ | o
  · simp
  · cases o <;> simp [Eval.holds]

theorem below_int {a b : Int64} : Below (.int a) (.int b) ↔ a.toInt < b.toInt := by
  rw [below_of_ordering (o := some (compare a.toInt b.toInt)) rfl, Option.some.injEq,
    compare_lt_iff_lt]

theorem floatOrdering_lt : Eval.floatOrdering? x y = some .lt ↔ x < y := by
  unfold Eval.floatOrdering?
  split
  · exact iff_of_true rfl ‹_›
  · refine iff_of_false ?_ ‹_›
    split
    · simp
    · split <;> simp

/-- Where one of two numbers is a double, `<` compares doubles. -/
theorem below_mixed (hv : Eval.asFloat? v = some x) (hw : Eval.asFloat? w = some y)
    (hmixed : ∀ a b, v = .int a → w ≠ .int b) : Below v w ↔ x < y := by
  have hordering : Eval.ordering .lt v w = .ok (Eval.floatOrdering? x y) := by
    cases v with
    | int a =>
        cases w with
        | int b => exact absurd rfl (hmixed a b rfl)
        | float y => cases hv; cases hw; rfl
        | _ => cases hw
    | float x => cases w <;> first | (cases hv; cases hw; rfl) | cases hw
    | _ => cases hv
  exact (below_of_ordering hordering).trans floatOrdering_lt

/-- **Of two numbers that may stand in this order, the second is below the first only if they
are integers that round together.** -/
theorem below_iff_roundTogether (hv : v.IsNumber) (hw : w.IsNumber) (h : v.compare w ≠ .gt) :
    Below w v ↔ RoundTogether w v := by
  obtain ⟨x, hx⟩ := hv
  obtain ⟨y, hy⟩ := hw
  have hrank : Number.rank x ≤ Number.rank y := by
    rw [Value.compare_of_asFloat? hx hy] at h
    exact compare_le_iff_le.mp h
  constructor
  · intro hbelow
    by_cases hints : ∃ a b, w = .int a ∧ v = .int b
    · obtain ⟨a, b, rfl, rfl⟩ := hints
      have hlt : a.toInt < b.toInt := below_int.mp hbelow
      have hsame : Number.rank (Number.ofInt64 a) = Number.rank (Number.ofInt64 b) := by
        obtain rfl := Option.some.inj hx
        obtain rfl := Option.some.inj hy
        exact le_antisymm (Number.rank_ofInt64_mono hlt.le) hrank
      exact ⟨a, b, rfl, rfl, hlt, Number.eq_of_rank hsame⟩
    · have hlt : y < x := (below_mixed hy hx fun a b hwa hvb => hints ⟨a, b, hwa, hvb⟩).mp hbelow
      exact absurd hrank (not_le.mpr (Number.rank_lt_of_lt hlt))
  · rintro ⟨a, b, rfl, rfl, hlt, -⟩
    exact below_int.mpr hlt

/-- Only integers of at least `2 ^ 53` round together. -/
theorem RoundTogether.large (h : RoundTogether v w) : ∃ a b : Int64, v = .int a ∧ w = .int b ∧
    2 ^ 53 ≤ a.toInt.natAbs ∧ 2 ^ 53 ≤ b.toInt.natAbs := by
  obtain ⟨a, b, rfl, rfl, hlt, hsame⟩ := h
  have hne : a ≠ b := by
    rintro rfl
    exact absurd hlt (lt_irrefl _)
  have hbeq : (Number.ofInt64 a == Number.ofInt64 b) = true := by
    rw [hsame]
    exact (Number.beq_self_iff _).mpr (Number.isNaN_ofInt64 b)
  exact ⟨a, b, rfl, rfl, Number.large_of_ofInt64_beq hne hbeq⟩

/-! ### Sorting numbers by themselves -/

/-- What the lambda that gives back its argument is compiled to. -/
def identity : Lambda := ⟨"x => x", .any, ⟨"x", .name ⟨5, 6⟩ "x"⟩⟩

theorem compile_identity : Lambda.compile Command.identityLambda .any = .ok identity := by cbv

theorem identity_call (v : Value) : identity.call v = .ok v := rfl

/-- The operator `<` holds between two items that stand in this order, the wrong way round. -/
def Inverted (descending : Bool) (v w : Value) : Prop :=
  if descending then Below v w else Below w v

/-- Two items that stand in this order are integers that round together, the wrong way round. -/
def Confused (descending : Bool) (v w : Value) : Prop :=
  if descending then RoundTogether v w else RoundTogether w v

/-- The wrong way round are only integers that round together. -/
theorem inverted_iff_confused {descending : Bool} (hv : v.IsNumber) (hw : w.IsNumber)
    (h : v.compare w ≠ if descending then .lt else .gt) :
    Inverted descending v w ↔ Confused descending v w := by
  cases descending with
  | true => exact below_iff_roundTogether hw hv (compare_ne_swap.mp h)
  | false => exact below_iff_roundTogether hv hw h

theorem Confused.large {descending : Bool} (h : Confused descending v w) : ∃ a b : Int64,
    v = .int a ∧ w = .int b ∧ 2 ^ 53 ≤ a.toInt.natAbs ∧ 2 ^ 53 ≤ b.toInt.natAbs := by
  cases descending with
  | true => exact RoundTogether.large h
  | false =>
      obtain ⟨b, a, rfl, rfl, hb, ha⟩ := RoundTogether.large h
      exact ⟨a, b, rfl, rfl, ha, hb⟩

/-- **Sorted numbers agree with `<` up to rounding.**

Numbers are sorted by themselves without failure, in either direction, and in the result `<`
holds the wrong way round between an earlier and a later item exactly if they are integers
that it tells apart though they are the same double.  Both are then at least `2 ^ 53` in
size. -/
theorem orderBy_identity_agrees_up_to_rounding (items : List Value)
    (hnumbers : ∀ v ∈ items, v.IsNumber) :
    ∃ lambda, Lambda.compile Command.identityLambda .any = .ok lambda ∧
      ∀ descending, ∃ sorted, orderBy lambda.call descending items = .ok sorted ∧
        ∀ (i j : Nat) (v w : Value), i < j → sorted[i]? = some v → sorted[j]? = some w →
          (Inverted descending v w ↔ Confused descending v w) ∧
          (Confused descending v w → ∃ a b : Int64, v = .int a ∧ w = .int b ∧
            2 ^ 53 ≤ a.toInt.natAbs ∧ 2 ^ 53 ≤ b.toInt.natAbs) := by
  refine ⟨identity, compile_identity, fun descending => ?_⟩
  obtain ⟨sorted, horder, hsorted⟩ :=
    orderBy_of_keys (k := id) descending fun v (_ : v ∈ items) => identity_call v
  refine ⟨sorted, horder, fun i j v w hij hv hw => ⟨?_, Confused.large⟩⟩
  obtain ⟨hi, rfl⟩ := List.getElem?_eq_some_iff.mp hv
  obtain ⟨hj, rfl⟩ := List.getElem?_eq_some_iff.mp hw
  have hnumber : ∀ u ∈ sorted, u.IsNumber := fun u hu => hnumbers u (hsorted.perm.mem_iff.mp hu)
  exact inverted_iff_confused (hnumber _ (List.getElem_mem hi)) (hnumber _ (List.getElem_mem hj))
    (List.pairwise_iff_getElem.mp hsorted.pairwise i j hi hj hij)

/-- The first integer that is no double of its own, a double, and the integer before the
first. -/
def confusing : List Value := [.int 9007199254740993, .float 0.5, .int 9007199254740992]

/-- The double goes to the front, and the two integers stay the wrong way round. -/
theorem isStableSort_confusing : IsStableSort id false confusing
    [.float 0.5, .int 9007199254740993, .int 9007199254740992] := by
  refine ⟨[(.float 0.5, 1), (.int 9007199254740993, 0), (.int 9007199254740992, 2)], ?_, rfl, ?_⟩
  · exact .swap _ _ _
  · decide +kernel

/-- The two integers are the wrong way round, since they round together; the double, which is
no integer, is not. -/
theorem confusing_agrees_up_to_rounding :
    (∀ v ∈ confusing, v.IsNumber) ∧
      orderBy identity.call false confusing
        = .ok [.float 0.5, .int 9007199254740993, .int 9007199254740992] ∧
      Confused false (.int 9007199254740993) (.int 9007199254740992) ∧
      Inverted false (.int 9007199254740993) (.int 9007199254740992) ∧
      ¬ Inverted false (.float 0.5) (.int 9007199254740993) := by
  have hnumbers : ∀ v ∈ confusing, v.IsNumber := by
    simp only [confusing, List.forall_mem_cons]
    exact ⟨⟨_, rfl⟩, ⟨_, rfl⟩, ⟨_, rfl⟩, List.forall_mem_nil _⟩
  have hsort : orderBy identity.call false confusing
      = .ok [.float 0.5, .int 9007199254740993, .int 9007199254740992] :=
    isStableSort_confusing.orderBy_eq fun v _ => identity_call v
  obtain ⟨lambda, hcompile, hagrees⟩ := orderBy_identity_agrees_up_to_rounding confusing hnumbers
  obtain rfl := Except.ok.inj (compile_identity.symm.trans hcompile)
  obtain ⟨sorted, horder, hpairs⟩ := hagrees false
  obtain rfl := Except.ok.inj (hsort.symm.trans horder)
  have hround : Confused false (.int 9007199254740993) (.int 9007199254740992) :=
    ⟨9007199254740992, 9007199254740993, rfl, rfl, by decide, Number.eq_of_rank (by decide +kernel)⟩
  have hinverted : Inverted false (.int 9007199254740993) (.int 9007199254740992) :=
    (hpairs 1 2 _ _ (by decide) rfl rfl).1.mpr hround
  refine ⟨hnumbers, hsort, hround, hinverted, fun h => ?_⟩
  obtain ⟨_, _, -, hfloat, -⟩ := (hpairs 0 1 _ _ (by decide) rfl rfl).1.mp h
  cases hfloat

/-- Sorting does not always agree with `<`. -/
theorem confusing_disagrees : ¬ ∀ (items : List Value) (descending : Bool) (lambda : Lambda)
    (sorted : List Value), (∀ v ∈ items, v.IsNumber ∧ v.NanFree) →
      Lambda.compile Command.identityLambda .any = .ok lambda →
      orderBy lambda.call descending items = .ok sorted →
      ∀ (i j : Nat) (v w : Value), i < j → sorted[i]? = some v → sorted[j]? = some w →
        ¬ Inverted descending v w := by
  intro h
  have hitems : ∀ v ∈ confusing, v.IsNumber ∧ v.NanFree := by
    simp only [confusing, List.forall_mem_cons]
    refine ⟨⟨⟨_, rfl⟩, ?_⟩, ⟨⟨_, rfl⟩, ?_⟩, ⟨⟨_, rfl⟩, ?_⟩, List.forall_mem_nil _⟩
    · exact Value.nanFree_of_eq_self (beq_iff_eq.mpr rfl)
    · exact Value.nanFree_of_eq_self (by decide +kernel)
    · exact Value.nanFree_of_eq_self (beq_iff_eq.mpr rfl)
  have hsort : orderBy identity.call false confusing
      = .ok [.float 0.5, .int 9007199254740993, .int 9007199254740992] :=
    isStableSort_confusing.orderBy_eq fun v _ => identity_call v
  exact h confusing false identity _ hitems compile_identity hsort 1 2 _ _ (by decide) rfl rfl
    (below_int.mpr (by decide))

end LambdaShell.Items
