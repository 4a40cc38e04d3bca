/-
How a double that is a whole number is shown.

The shortest decimal is found by trying coarse grids before fine ones.  A double below
`2 ^ 53` that is a whole number has less than one between itself and its neighbours, so on
a grid of whole numbers nothing reads back as the double but the number itself.  It is on the
grid of all whole numbers, so the search ends there or before, and what it finds is the
number without some of its zeros, which the layout puts back.
-/
import Mathlib
import LambdaShell.Number.Decimal
import LambdaShell.Proofs.Number.TotalOrder

namespace LambdaShell.Number

-- Powers are those of the core library, also where algebra offers others.
attribute [local instance (high)] instPowNat

variable {n k D g : Nat} {tie : Tie} {m : Magnitude} {d : Decimal}

/-! ### Decimals that read back -/

/-- A whole number whose mantissa is filled up with `k` zeros. -/
def widened (n k : Nat) : Magnitude := ⟨n * 2 ^ k, -(k : Int)⟩

theorem compareScaled_widened (b : Nat) : compareScaled D g b ((widened n k).exponent - 2)
    = compare (4 * (D * 10 ^ g * 2 ^ k)) b := by
  have hdown : (-((widened n k).exponent - 2)).toNat = k + 2 := by
    show (-(-(k : Int) - 2)).toNat = _
    omega
  have hup : ((widened n k).exponent - 2).toNat = 0 := by
    show (-(k : Int) - 2).toNat = _
    omega
  have hg : (-(g : Int)).toNat = 0 := by omega
  have hscale : D * 10 ^ g * 2 ^ (k + 2) = 4 * (D * 10 ^ g * 2 ^ k) := by
    rw [Nat.pow_add]
    ring
  unfold compareScaled
  rw [hdown, hup, hg, Int.toNat_natCast, hscale, Nat.pow_zero, Nat.mul_one, Nat.mul_one]

/-- Of the whole numbers only the number itself reads back. -/
theorem readsBack_widened (hpos : 0 < n) :
    (widened n k).readsBack ⟨D, g⟩ = true ↔ D * 10 ^ g = n := by
  have hpower : 0 < 2 ^ k := Nat.two_pow_pos k
  have hmantissa : (widened n k).mantissa = n * 2 ^ k := rfl
  have hwidth : 0 < n * 2 ^ k := Nat.mul_pos hpos hpower
  unfold Magnitude.readsBack
  dsimp only
  rw [compareScaled_widened, compareScaled_widened, hmantissa]
  generalize D * 10 ^ g = a
  -- different whole numbers are four quarters apart, and the interval reaches out by two
  have happart : a = n ∨ a * 2 ^ k + 2 ^ k ≤ n * 2 ^ k ∨ n * 2 ^ k + 2 ^ k ≤ a * 2 ^ k := by
    rcases Nat.lt_trichotomy a n with h | h | h
    · right; left
      rw [← Nat.succ_mul]
      exact Nat.mul_le_mul_right _ h
    · exact Or.inl h
    · right; right
      rw [← Nat.succ_mul]
      exact Nat.mul_le_mul_right _ h
  have hsame : a = n → a * 2 ^ k = n * 2 ^ k := fun h => by rw [h]
  generalize a * 2 ^ k = u at *
  generalize n * 2 ^ k = v at *
  generalize 2 ^ k = p at *
  split <;> split <;>
    simp only [Bool.and_eq_true, Nat.isGE_compare, Nat.isLE_compare, Ordering.isGT_iff_eq_gt,
      Ordering.isLT_iff_eq_lt, compare_lt_iff_lt, compare_gt_iff_gt] <;> omega

/-! ### The search for the shortest decimal -/

/-- What is found on a grid is on it and reads back. -/
theorem onGrid?_readsBack {g : Int} (h : m.onGrid? tie g = some d) :
    m.readsBack d = true ∧ d.exponent = g := by
  unfold Magnitude.onGrid? at h
  dsimp only at h
  generalize m.mantissa * 2 ^ m.exponent.toNat * 10 ^ (-g).toNat
    / (2 ^ (-m.exponent).toNat * 10 ^ g.toNat) = low at h
  split at h
  · rename_i hlow _
    cases h
    exact ⟨hlow, rfl⟩
  · rename_i _ hhigh
    cases h
    exact ⟨hhigh, rfl⟩
  · cases h
  · rename_i hlow hhigh
    split at h
    · cases h
      exact ⟨hlow, rfl⟩
    · cases h
      exact ⟨hhigh, rfl⟩
    · cases h
      exact ⟨hhigh, rfl⟩
    · cases h
      rcases Nat.mod_two_eq_zero_or_one low with heven | hodd
      · rw [heven]
        exact ⟨hlow, rfl⟩
      · rw [hodd]
        exact ⟨hhigh, rfl⟩

/-- The number itself is found on the grid of all whole numbers. -/
theorem onGrid?_widened (hpos : 0 < n) : ((widened n k).onGrid? tie 0).isSome = true := by
  have hlow : (widened n k).mantissa * 2 ^ (widened n k).exponent.toNat * 10 ^ (-(0 : Int)).toNat
      / (2 ^ (-(widened n k).exponent).toNat * 10 ^ (0 : Int).toNat) = n := by
    have hup : (-(k : Int)).toNat = 0 := by omega
    have hdown : (-(-(k : Int))).toNat = k := by omega
    show n * 2 ^ k * 2 ^ (-(k : Int)).toNat * 10 ^ (-(0 : Int)).toNat
      / (2 ^ (-(-(k : Int))).toNat * 10 ^ (0 : Int).toNat) = n
    rw [hup, hdown]
    show n * 2 ^ k * 1 * 1 / (2 ^ k * 1) = n
    rw [Nat.mul_one, Nat.mul_one, Nat.mul_one, Nat.mul_div_cancel _ (Nat.two_pow_pos k)]
  have hback : (widened n k).readsBack ⟨n, 0⟩ = true :=
    (@readsBack_widened n k n 0 hpos).mpr (Nat.mul_one n)
  unfold Magnitude.onGrid?
  dsimp only
  rw [hlow, hback]
  split
  · rfl
  · rfl
  · rename_i h _
    cases h
  · split <;> rfl

/-- The search begins on a grid of whole numbers and reaches the grid of all of them. -/
theorem place_widened (hpos : 0 < n) (hn : n < 2 ^ 53) :
    1 ≤ (widened n k).place ∧ (widened n k).place ≤ 17 := by
  have hlog : n.log2 < 53 := (Nat.log2_lt (by omega)).mpr hn
  have hwide : (n * 2 ^ k).log2 = n.log2 + k := by
    have hlow : 2 ^ n.log2 ≤ n := Nat.log2_self_le (by omega)
    have hhigh : n < 2 ^ (n.log2 + 1) := Nat.lt_log2_self
    refine (Nat.log2_eq_iff (Nat.mul_pos hpos (Nat.two_pow_pos k)).ne').mpr ⟨?_, ?_⟩
    · rw [Nat.pow_add]
      exact Nat.mul_le_mul_right _ hlow
    · rw [show n.log2 + k + 1 = n.log2 + 1 + k by omega, Nat.pow_add]
      exact Nat.mul_lt_mul_of_pos_right hhigh (Nat.two_pow_pos k)
  have hscale : (widened n k).exponent + (widened n k).mantissa.log2 = n.log2 := by
    show -(k : Int) + ((n * 2 ^ k).log2 : Int) = n.log2
    rw [hwide]
    omega
  have hone : (widened n k).isBelowPower 0 = false := by
    have hdown : (-(-(k : Int))).toNat = k := by omega
    have hup : (-(k : Int)).toNat = 0 := by omega
    have hle : 2 ^ k ≤ n * 2 ^ k := Nat.le_mul_of_pos_left _ hpos
    unfold Magnitude.isBelowPower compareScaled
    show (compare (1 * 1 * 2 ^ (-(-(k : Int))).toNat) (n * 2 ^ k * 2 ^ (-(k : Int)).toNat * 1)).isGT
      = false
    rw [hdown, hup, ← Bool.not_eq_true, Ordering.isGT_iff_eq_gt, compare_gt_iff_gt]
    omega
  unfold Magnitude.place
  dsimp only
  rw [hscale]
  split
  · rename_i hbelow
    have hne : (n.log2 : Int) * 30103 / 100000 ≠ 0 := by
      intro hzero
      rw [hzero, hone] at hbelow
      cases hbelow
    omega
  · split <;> omega

/-- The first hit in a search over an initial stretch of the naturals is not behind another. -/
theorem findSome?_range {α : Type} {f : Nat → Option α} {last i : Nat} (hlast : i < last)
    (h : (f i).isSome = true) :
    ∃ first a, first ≤ i ∧ f first = some a ∧ (List.range last).findSome? f = some a := by
  cases hfound : (List.range last).findSome? f with
  | none =>
      rw [List.findSome?_eq_none_iff.mp hfound i (List.mem_range.mpr hlast)] at h
      cases h
  | some a =>
      obtain ⟨front, first, back, hsplit, ha, hfront⟩ := List.findSome?_eq_some_iff.mp hfound
      rw [List.range_eq_range', List.range'_eq_append_iff] at hsplit
      obtain ⟨k, -, rfl, hback⟩ := hsplit
      obtain ⟨rfl, -⟩ := List.range'_eq_cons_iff.mp hback.symm
      refine ⟨_, a, ?_, ha, rfl⟩
      by_contra hlt
      rw [hfront i (List.mem_range'_1.mpr (by omega))] at h
      cases h

/-- What is found for a whole number below `2 ^ 53` is the number itself, as a multiple of a
power of ten. -/
theorem shortest_widened (hpos : 0 < n) (hn : n < 2 ^ 53) :
    ∃ D g : Nat, (widened n k).shortest tie = ⟨D, g⟩ ∧ D * 10 ^ g = n := by
  obtain ⟨hfirst, hlast⟩ := @place_widened n k hpos hn
  have hgrid : (widened n k).place - ((((widened n k).place - 1).toNat + 1 : Nat) : Int) = 0 := by
    omega
  have hhit := @onGrid?_widened n k tie hpos
  rw [← hgrid] at hhit
  obtain ⟨i, ⟨D, e⟩, hi, hfound, hsearch⟩ := @findSome?_range _
    (fun i => (widened n k).onGrid? tie ((widened n k).place - ((i + 1 : Nat) : Int))) 17 _
    (by omega) hhit
  obtain ⟨hback, hexponent⟩ := onGrid?_readsBack hfound
  have he : e = (e.toNat : Int) := by
    have he' : e = (widened n k).place - ((i + 1 : Nat) : Int) := hexponent
    omega
  refine ⟨D, e.toNat, ?_, ?_⟩
  · unfold Magnitude.shortest
    rw [hsearch, ← he]
    rfl
  · rw [he] at hback
    exact (readsBack_widened hpos).mp hback

/-! ### The text of a decimal -/

/-- A power of ten adds zeros to the digits. -/
theorem toDigits_mul_pow (hpos : 0 < D) (g : Nat) :
    Nat.toDigits 10 (D * 10 ^ g) = Nat.toDigits 10 D ++ List.replicate g '0' := by
  induction g with
  | zero => rw [Nat.pow_zero, Nat.mul_one, List.replicate_zero, List.append_nil]
  | succ g ih =>
      have hzero := @Nat.toDigits_append_toDigits 10 (D * 10 ^ g) 0 (by decide)
        (Nat.mul_pos hpos (Nat.pow_pos (by decide))) (by decide)
      rw [Nat.toDigits_zero, ih, Nat.add_zero, List.append_assoc, ← List.replicate_succ'] at hzero
      rw [hzero, Nat.pow_succ]
      congr 1
      ring

/-- What is stripped from the end of the digits is zeros. -/
theorem digits_eq_stripped (cs : List Char) :
    ∃ zeros, cs = (cs.reverse.dropWhile (· == '0')).reverse ++ List.replicate zeros '0' := by
  have hzeros : cs.reverse.takeWhile (· == '0')
      = List.replicate (cs.reverse.takeWhile (· == '0')).length '0' :=
    List.eq_replicate_length.mpr fun _ hc => eq_of_beq (@List.mem_takeWhile_imp _ (· == '0') _ _ hc)
  have hsplit := congrArg List.reverse
    (List.takeWhile_append_dropWhile (p := (· == '0')) (l := cs.reverse))
  rw [List.reverse_append, hzeros, List.reverse_replicate, List.reverse_reverse] at hsplit
  exact ⟨_, hsplit.symm⟩

/-- A multiple of a power of ten is shown as the whole number it is. -/
theorem text_whole (hpos : 0 < D) (g : Nat) :
    Decimal.text plain ⟨D, g⟩ = Nat.toDigits 10 (D * 10 ^ g) := by
  obtain ⟨zeros, hzeros⟩ := digits_eq_stripped (Nat.toDigits 10 D)
  rw [toDigits_mul_pow hpos]
  unfold Decimal.text
  dsimp only
  generalize ((Nat.toDigits 10 D).reverse.dropWhile (· == '0')).reverse = digits at hzeros ⊢
  have hlength : (Nat.toDigits 10 D).length = digits.length + zeros := by
    rw [hzeros, List.length_append, List.length_replicate]
  have hdigits : 0 < (Nat.toDigits 10 D).length := List.length_pos_iff.mpr Nat.toDigits_ne_nil
  have hpoint : (((Nat.toDigits 10 D).length : Int) + g).toNat - digits.length = zeros + g := by
    omega
  show positionalText plain digits ((Nat.toDigits 10 D).length + g) = _
  unfold positionalText
  rw [if_neg (by omega), if_pos (by omega), hpoint, hzeros, ← List.replicate_append_replicate,
    ← List.append_assoc]
  exact List.append_nil _

/-! ### Integers -/

/-- The parts of a double put together from bits that are not those of an infinity. -/
theorem parts_ofSignAndBits (negative : Bool) {e f : Nat} (he : e < 2046) (hf : f < 2 ^ 52) :
    parts (ofSignAndBits negative ((e + 1) * 2 ^ 52 + f))
      = .finite negative ⟨2 ^ 52 + f, (e : Int) - 1074⟩ := by
  have hle : (e + 1) * 2 ^ 52 + f ≤ 2047 * 2 ^ 52 := by omega
  have hbits := bits_ofSignAndBits negative hle
  have hexp : bits (ofSignAndBits negative ((e + 1) * 2 ^ 52 + f)) / 2 ^ 52 % 2 ^ 11 = e + 1 := by
    rw [hbits]
    split <;> omega
  have hmant : bits (ofSignAndBits negative ((e + 1) * 2 ^ 52 + f)) % 2 ^ 52 = f := by
    rw [hbits]
    split <;> omega
  unfold parts
  dsimp only
  rw [hexp, hmant, isNegative_ofSignAndBits negative hle, if_neg (by omega), if_neg (by omega)]
  congr 2
  omega

/-- An integer below `2 ^ 53` in size is, as a double, its sign and its digits. -/
theorem parts_ofInt64 {i : Int64} (hne : i.toInt ≠ 0) (h : i.toInt.natAbs < 2 ^ 53) :
    parts (ofInt64 i) = .finite (decide (i.toInt < 0))
      (widened i.toInt.natAbs (52 - i.toInt.natAbs.log2)) := by
  have hpos : 0 < i.toInt.natAbs := by omega
  have hlog : i.toInt.natAbs.log2 < 53 := (Nat.log2_lt hpos.ne').mpr h
  obtain ⟨hbits, hlow, hhigh⟩ := nearestBits_small hpos h
  have hfields : nearestBits ⟨i.toInt.natAbs, 0⟩ = (i.toInt.natAbs.log2 + 1022 + 1) * 2 ^ 52
      + (i.toInt.natAbs * 2 ^ (52 - i.toInt.natAbs.log2) - 2 ^ 52) := by
    rw [hbits]
    omega
  have hmantissa : 2 ^ 52 + (i.toInt.natAbs * 2 ^ (52 - i.toInt.natAbs.log2) - 2 ^ 52)
      = i.toInt.natAbs * 2 ^ (52 - i.toInt.natAbs.log2) := by omega
  have hexponent : ((i.toInt.natAbs.log2 + 1022 : Nat) : Int) - 1074
      = -((52 - i.toInt.natAbs.log2 : Nat) : Int) := by omega
  rw [ofInt64, nearest, hfields, parts_ofSignAndBits _ (by omega) (by omega), hmantissa, hexponent,
    widened]

/-- An integer is shown by its sign and its digits. -/
theorem toString_int (z : Int) : toString z = String.ofList
    (if decide (z < 0) then '-' :: Nat.toDigits 10 z.natAbs else Nat.toDigits 10 z.natAbs) := by
  cases z with
  | ofNat n => rfl
  | negSucc n =>
      rw [if_pos (decide_eq_true (Int.negSucc_lt_zero n)), ← List.singleton_append,
        String.ofList_append]
      rfl

/-- **An integer below `2 ^ 53` in size is shown alike as integer and as double.** -/
theorem text_ofInt64 {i : Int64} (h : i.toInt.natAbs < 2 ^ 53) :
    plain.text (ofInt64 i) = toString i.toInt := by
  by_cases hzero : i.toInt = 0
  · obtain rfl : i = 0 := Int64.toInt_inj.mp hzero
    decide +kernel
  · have hpos : 0 < i.toInt.natAbs := by omega
    obtain ⟨D, g, hshortest, hvalue⟩ := @shortest_widened i.toInt.natAbs
      (52 - i.toInt.natAbs.log2) plain.tie hpos h
    have hD : 0 < D := by
      by_contra hD
      have hD : D = 0 := by omega
      rw [hD, Nat.zero_mul] at hvalue
      omega
    have hmantissa : (widened i.toInt.natAbs (52 - i.toInt.natAbs.log2)).mantissa ≠ 0 :=
      (Nat.mul_pos hpos (Nat.two_pow_pos _)).ne'
    unfold Layout.text signedText
    rw [parts_ofInt64 hzero h]
    dsimp only
    rw [if_neg hmantissa, hshortest, text_whole hD, hvalue]
    exact (toString_int i.toInt).symm

end LambdaShell.Number
