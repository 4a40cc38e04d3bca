/-
The order of values never contradicts itself.

Two values are compared by up to three criteria, and which of them decides depends on both.
What is compared, however, can be read off each value alone: null, the rank of a number, or
a text, in this order.  `place` is that reading, and comparing values is comparing their
places.  The places form a chain of three linear orders, so the order of values is a total
preorder, and whoever sorts by it, in either direction, gets the same answer from any three
comparisons that bear on one another.
-/
import LambdaShell.Items.Query

namespace LambdaShell.Value

/-! ### Places -/

/-- What of a value is compared. -/
inductive Place where
  | nothing
  | number (rank : Int)
  | text (s : String)

/-- Nothing comes before the numbers, and these before the texts. -/
def Place.compare : Place → Place → Ordering
  | nothing, nothing => .eq
  | nothing, _ => .lt
  | _, nothing => .gt
  | number m, number n => Ord.compare m n
  | number _, text _ => .lt
  | text _, number _ => .gt
  | text s, text t => Ord.compare s t

instance : Std.TransCmp Place.compare where
  eq_swap {p q} := by
    cases p <;> cases q <;> first | rfl | exact Std.OrientedOrd.eq_swap
  isLE_trans {p q r} hpq hqr := by
    cases p with
    | nothing => cases r <;> rfl
    | number m =>
        cases q with
        | nothing => cases hpq
        | number n =>
            cases r with
            | nothing => cases hqr
            | number k => exact Std.TransOrd.isLE_trans hpq hqr
            | text u => rfl
        | text t =>
            cases r with
            | nothing => cases hqr
            | number k => cases hqr
            | text u => rfl
    | text s =>
        cases q with
        | nothing => cases hpq
        | number n => cases hpq
        | text t =>
            cases r with
            | nothing => cases hqr
            | number k => cases hqr
            | text u => exact Std.TransOrd.isLE_trans hpq hqr

/-- The place of a value, by its number if it has one. -/
def solidPlace (v : Value) : Place :=
  match v.number? with
  | some x => .number (Number.rank x)
  | none => .text v.text

/-- The place of a value. -/
def place : Value → Place
  | null => .nothing
  | v => v.solidPlace

theorem place_of_ne_null {v : Value} (h : v ≠ null) : v.place = v.solidPlace := by
  cases v <;> first | rfl | exact absurd rfl h

/-- Nothing comes before anything that has a place of its own. -/
theorem nothing_compare_solidPlace (v : Value) : Place.nothing.compare v.solidPlace = .lt := by
  unfold solidPlace
  cases v.number? <;> rfl

/-- Where neither value is null, the numbers decide, and then the texts. -/
theorem compare_of_ne_null {v w : Value} (hv : v ≠ null) (hw : w ≠ null) :
    v.compare w = v.solidPlace.compare w.solidPlace := by
  rw [compare, solidPlace, solidPlace]
  · cases v.number? <;> cases w.number? <;> rfl
  · exact hv
  · exact hw
  · exact fun h _ => hv h

/-- **Comparing values is comparing their places.** -/
theorem compare_eq_place (v w : Value) : v.compare w = v.place.compare w.place := by
  by_cases hv : v = null
  · subst hv
    by_cases hw : w = null
    · subst hw
      rfl
    · rw [place_of_ne_null hw]
      refine Eq.trans ?_ (nothing_compare_solidPlace w).symm
      cases w <;> first | rfl | exact absurd rfl hw
  · rw [place_of_ne_null hv]
    by_cases hw : w = null
    · subst hw
      have hswap : v.solidPlace.compare .nothing = .gt := by
        rw [@Std.OrientedCmp.eq_swap _ Place.compare, nothing_compare_solidPlace]
        rfl
      refine Eq.trans ?_ hswap.symm
      cases v <;> first | rfl | exact absurd rfl hv
    · rw [place_of_ne_null hw, compare_of_ne_null hv hw]

/-! ### Numbers -/

/-- The value is an integer or a double. -/
def IsNumber (v : Value) : Prop := ∃ x, Eval.asFloat? v = some x

/-- Integers and doubles are compared as doubles. -/
theorem compare_of_asFloat? {v w : Value} {x y : Double} (hv : Eval.asFloat? v = some x)
    (hw : Eval.asFloat? w = some y) : v.compare w = Number.totalCompare x y := by
  cases v with
  | int a => cases hv; cases w <;> first | (cases hw; rfl) | cases hw
  | float x => cases hv; cases w <;> first | (cases hw; rfl) | cases hw
  | _ => cases hv

/-! ### The order -/

instance : Std.TransCmp Value.compare where
  eq_swap {v w} := by
    rw [compare_eq_place, compare_eq_place]
    exact Std.OrientedCmp.eq_swap
  isLE_trans {u v w} huv hvw := by
    rw [compare_eq_place] at huv hvw ⊢
    exact Std.TransCmp.isLE_trans huv hvw

/-- **The order of values is a total preorder.**  Turning two values round turns the answer
round, a value is equal to itself, and both "not greater" and "equal" carry over from two
comparisons to the third.  So the test by which keys are sorted is total and transitive, in
either direction. -/
theorem compare_total_preorder (u v w : Value) :
    v.compare w = (w.compare v).swap ∧ v.compare v = .eq ∧
      (u.compare v ≠ .gt → v.compare w ≠ .gt → u.compare w ≠ .gt) ∧
      (u.compare v = .eq → v.compare w = .eq → u.compare w = .eq) ∧
      ∀ descending,
        (Items.inOrder descending v w = true ∨ Items.inOrder descending w v = true) ∧
        (Items.inOrder descending u v = true → Items.inOrder descending v w = true →
          Items.inOrder descending u w = true) := by
  have hswap : v.compare w = (w.compare v).swap := Std.OrientedCmp.eq_swap
  refine ⟨hswap, Std.ReflCmp.compare_self, ?_, Std.TransCmp.eq_trans,
    fun descending => ⟨?_, ?_⟩⟩
  · intro huv hvw
    exact Ordering.ne_gt_iff_isLE.mpr (Std.TransCmp.isLE_trans (Ordering.ne_gt_iff_isLE.mp huv)
      (Ordering.ne_gt_iff_isLE.mp hvw))
  · unfold Items.inOrder
    rw [hswap]
    cases descending <;> cases w.compare v <;> simp
  · intro huv hvw
    unfold Items.inOrder at huv hvw ⊢
    cases descending with
    | true => exact Std.TransCmp.isLE_trans hvw huv
    | false => exact Std.TransCmp.isLE_trans huv hvw

/-- Nine stands between the two NaNs that arise from dividing zero by zero, of which the quotient
has the sign bit set and the negated quotient has not, and a text that only names a NaN stands
behind them; and there are three ways to write nine. -/
theorem nineToNan_compare :
    ((float (0.0 / 0.0)).compare (str "9") ≠ .gt ∧
      (str "9").compare (float (-(0.0 / 0.0))) ≠ .gt ∧
      (float (0.0 / 0.0)).compare (float (-(0.0 / 0.0))) ≠ .gt ∧
      (float (-(0.0 / 0.0))).compare (float (0.0 / 0.0)) = .gt ∧
      (float (-(0.0 / 0.0))).compare (str "nan") ≠ .gt ∧ (str "9").compare (str "nan") ≠ .gt) ∧
    ((str "9").compare (int 9) = .eq ∧ (int 9).compare (str "9.0") = .eq ∧
      (str "9").compare (str "9.0") = .eq) ∧
    (Items.inOrder true (str "9") (int 9) = true ∧ Items.inOrder true (int 9) (str "9.0") = true ∧
      Items.inOrder true (str "9") (str "9.0") = true) := by
  have hbelow : (float (0.0 / 0.0)).compare (str "9") ≠ .gt := by decide +kernel
  have habove : (str "9").compare (float (-(0.0 / 0.0))) ≠ .gt := by decide +kernel
  have hnans : (float (0.0 / 0.0)).compare (float (-(0.0 / 0.0))) = .lt := by decide +kernel
  have htext : (float (-(0.0 / 0.0))).compare (str "nan") ≠ .gt := by decide +kernel
  have hleft : (str "9").compare (int 9) = .eq := by decide +kernel
  have hright : (int 9).compare (str "9.0") = .eq := by decide +kernel
  have hfirst : Items.inOrder true (str "9") (int 9) = true := by decide +kernel
  have hsecond : Items.inOrder true (int 9) (str "9.0") = true := by decide +kernel
  obtain ⟨-, -, hthrough, -, -⟩ :=
    compare_total_preorder (float (0.0 / 0.0)) (str "9") (float (-(0.0 / 0.0)))
  obtain ⟨-, -, hbehind, -, -⟩ :=
    compare_total_preorder (str "9") (float (-(0.0 / 0.0))) (str "nan")
  obtain ⟨hswap, -, -, -, -⟩ :=
    compare_total_preorder (str "9") (float (-(0.0 / 0.0))) (float (0.0 / 0.0))
  obtain ⟨-, -, -, hequal, horder⟩ := compare_total_preorder (str "9") (int 9) (str "9.0")
  rw [hnans] at hswap
  exact ⟨⟨hbelow, habove, hthrough hbelow habove, hswap, htext, hbehind habove htext⟩,
    ⟨hleft, hright, hequal hleft hright⟩, ⟨hfirst, hsecond, (horder true).2 hfirst hsecond⟩⟩

end LambdaShell.Value
