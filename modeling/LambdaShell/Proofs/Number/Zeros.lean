/-
Adding to a zero, and dividing one.

Adding -0.0 changes nothing at all, while 0.0 swallows a -0.0 that is added to it.  So a sum
that starts from 0.0 and one that starts from -0.0 agree from the first number on that is no
-0.0, and if there is none, they remain the two zeros they started from.  Divided by a number of
items, a zero keeps its sign, so the difference does not go away.
-/
import LambdaShell.Proofs.Number.TotalOrder

namespace LambdaShell.Number

open Float.Model UnpackedFloat

variable {x z : Double} {s : Sign} {xs : List Double} {n : Nat}

theorem meaning_zero : meaning 0.0 = .zero .positive := rfl

theorem meaning_negZero : meaning (-0.0) = .zero .negative := rfl

/-! ### Results that are an operand -/

theorem ofFloat_toFloat (h : x.isNaN = false) : Double.ofFloat x.toFloat = x := by
  refine eq_of_word (encode_decode fun hnan => ?_)
  rw [(isNaN_iff x).mpr hnan] at h
  cases h

/-- An operation that comes to one of its operands answers it, if it is a number. -/
theorem settle_of_number (operands : List Double) (h : x.isNaN = false) :
    Double.settle operands x.toFloat = x := by
  have hnumber : x.toFloat.isNaN = false := h
  rw [Double.settle, hnumber]
  exact ofFloat_toFloat h

/-- An operation on a number that comes to its other operand answers this, whichever NaN it may
be. -/
theorem settle_of_second (hz : z.isNaN = false) : Double.settle [z, x] x.toFloat = x := by
  cases h : x.isNaN with
  | true =>
      have hnan : x.toFloat.isNaN = true := h
      rw [Double.settle, hnan, List.find?_cons_of_neg (by simp [hz]), List.find?_cons_of_pos h]
      rfl
  | false => exact settle_of_number _ h

theorem isNaN_of_meaning_zero (hz : meaning z = .zero s) : z.isNaN = false := by
  rw [← Bool.not_eq_true, isNaN_iff, hz]
  exact nofun

/-! ### Sums -/

/-- A zero adds nothing to a number that is not the other zero. -/
theorem add_unpacked_zero {u : UnpackedFloat} (h : u = .zero .negative → s = .negative) :
    UnpackedFloat.add Format.binary64 (.zero s) u = u := by
  cases u with
  | zero t =>
      cases t with
      | positive => cases s <;> rfl
      | negative =>
          rw [h rfl]
          rfl
  | _ => rfl

/-- Adding to a zero leaves what is added, a NaN included, but for -0.0 added to 0.0. -/
theorem add_of_zero (hz : meaning z = .zero s)
    (h : meaning x = .zero .negative → s = .negative) : z + x = x := by
  have hsum : z.toFloat + x.toFloat = x.toFloat := by
    calc z.toFloat + x.toFloat = Float.ofModel (Float.Model.pack (UnpackedFloat.add
            Format.binary64 z.toFloat.toModel.unpack x.toFloat.toModel.unpack)) := rfl
      _ = Float.ofModel (Float.Model.pack (meaning x)) := by
          rw [unpack_toFloat, unpack_toFloat, hz, add_unpacked_zero h]
      _ = x.toFloat := rfl
  calc z + x = Double.settle [z, x] (z.toFloat + x.toFloat) := rfl
    _ = Double.settle [z, x] x.toFloat := by rw [hsum]
    _ = x := settle_of_second (isNaN_of_meaning_zero hz)

theorem negZero_add (x : Double) : -0.0 + x = x := add_of_zero meaning_negZero fun _ => rfl

theorem zero_add_of_ne (h : x ≠ -0.0) : 0.0 + x = x := by
  refine add_of_zero meaning_zero fun hx => absurd ?_ h
  exact eq_of_meaning (by rw [hx]; exact nofun) hx

theorem zero_add_negZero : (0.0 + -0.0 : Double) = 0.0 := by decide +kernel

/-- From the first number on that is no -0.0 it does not matter which zero a sum started
from. -/
theorem foldl_add_zero (h : ∃ x ∈ xs, x ≠ -0.0) :
    xs.foldl (· + ·) 0.0 = xs.foldl (· + ·) (-0.0) := by
  induction xs with
  | nil => simp at h
  | cons x xs ih =>
      rw [List.foldl_cons, List.foldl_cons]
      by_cases hx : x = -0.0
      · have hrest : ∃ y ∈ xs, y ≠ -0.0 := by simpa [hx] using h
        rw [hx, zero_add_negZero, negZero_add, ih hrest]
      · rw [zero_add_of_ne hx, negZero_add]

/-- A sum of nothing but -0.0 is the zero it started from. -/
theorem foldl_add_negZeros (h : ∀ x ∈ xs, x = -0.0) :
    xs.foldl (· + ·) 0.0 = 0.0 ∧ xs.foldl (· + ·) (-0.0) = -0.0 := by
  induction xs with
  | nil => exact ⟨rfl, rfl⟩
  | cons x xs ih =>
      obtain ⟨hx, hxs⟩ := List.forall_mem_cons.mp h
      rw [List.foldl_cons, List.foldl_cons, hx, zero_add_negZero, negZero_add]
      exact ih hxs

/-! ### Means -/

theorem sign_of_lt {w : Word} (h : w.toNat < 2 ^ 63) :
    Sign.ofBitVec (unpackSign w) = .positive := by
  have hbit : unpackSign w = 0#1 := by
    refine BitVec.eq_of_toNat_eq ?_
    rw [toNat_sign]
    show w.toNat / 2 ^ 63 = 0
    omega
  rw [hbit]
  rfl

/-- A natural number that is not zero becomes a positive number. -/
theorem meaning_ofNat (hn : 0 < n) : meaning (ofNat n) = .infinity .positive ∨
    ∃ m e hm, meaning (ofNat n) = .finite .positive m e hm := by
  have hle := nearestBits_le ⟨n, 0⟩
  have hpos := nearestBits_pos hn
  have hword : (word (ofNat n)).toNat = nearestBits ⟨n, 0⟩ :=
    (bits_ofSignAndBits false hle).trans (if_neg Bool.false_ne_true)
  have hsign : Sign.ofBitVec (unpackSign (word (ofNat n))) = .positive :=
    sign_of_lt (by rw [hword]; omega)
  have hstands : Stands (Sign.ofBitVec (unpackSign (word (ofNat n))))
      ((word (ofNat n)).toNat % 2 ^ 63) (meaning (ofNat n)) :=
    stands_decode (meaning_ofSignAndBits false hle)
  rw [hsign, hword] at hstands
  generalize meaning (ofNat n) = u at hstands ⊢
  generalize hb : nearestBits ⟨n, 0⟩ % 2 ^ 63 = b at hstands
  cases hstands with
  | zero => omega
  | finite hm => exact Or.inr ⟨_, _, hm, rfl⟩
  | infinity => exact Or.inl rfl

/-- A zero that is divided by a number of things stays as it is. -/
theorem zero_div_ofNat (hz : meaning z = .zero s) (hn : 0 < n) : z / ofNat n = z := by
  have hdiv : UnpackedFloat.div Format.binary64 (.zero s) (meaning (ofNat n)) = .zero s := by
    rcases meaning_ofNat hn with h | ⟨m, e, hm, h⟩
    · rw [h]
      cases s <;> rfl
    · rw [h]
      cases s <;> rfl
  have hquotient : z.toFloat / (ofNat n).toFloat = z.toFloat := by
    calc z.toFloat / (ofNat n).toFloat = Float.ofModel (Float.Model.pack (UnpackedFloat.div
            Format.binary64 z.toFloat.toModel.unpack (ofNat n).toFloat.toModel.unpack)) := rfl
      _ = Float.ofModel (Float.Model.pack (meaning z)) := by
          rw [unpack_toFloat, unpack_toFloat, hz, hdiv]
      _ = z.toFloat := rfl
  calc z / ofNat n = Double.settle [z, ofNat n] (z.toFloat / (ofNat n).toFloat) := rfl
    _ = Double.settle [z, ofNat n] z.toFloat := by rw [hquotient]
    _ = z := settle_of_number _ (isNaN_of_meaning_zero hz)

end LambdaShell.Number
