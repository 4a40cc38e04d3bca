/-
Where the total order of doubles agrees with their comparison.

The bits of a double below its sign are its size: of two numbers of one sign the larger in
size has the larger bits, whatever mantissa and exponent they are made of.  So the total
order, which goes by the bits alone, keeps every `<` between doubles.  What it adds is an
order of the two zeros, and places for the NaNs: those with the sign bit set are below all
numbers, and the others above.

Integers become doubles by rounding, and rounding keeps their order, though not strictly:
integers that it makes equal are equal in the total order as well.
-/
import Mathlib
import LambdaShell.Proofs.Number.Doubles

namespace LambdaShell.Number

open Float.Model UnpackedFloat

-- Powers are those of the core library, also where algebra offers others.
attribute [local instance (high)] instPowNat

/-! ### Numbers and their sizes -/

/-- What a word with a sign and the bits `b` below it stands for, if it is no NaN. -/
inductive Stands : Sign → Nat → UnpackedFloat → Prop where
  | zero (s : Sign) : Stands s 0 (.zero s)
  | finite (s : Sign) {b m : Nat} {e : Int} (hpos : 0 < m) (hm : m < 2 ^ 53) (he : -1074 ≤ e)
      (hnormal : e = -1074 ∨ 2 ^ 52 ≤ m) (hb : (b : Int) = (e + 1074) * 2 ^ 52 + m)
      (hlt : b < 2047 * 2 ^ 52) : Stands s b (.finite s m e hpos)
  | infinity (s : Sign) : Stands s (2047 * 2 ^ 52) (.infinity s)

/-- The place in the total order of a word with a sign and the bits `b` below it. -/
def level (s : Sign) (b : Nat) : Int :=
  match s with
  | .positive => b
  | .negative => -(b : Int) - 1

theorem stands_decode {w : Word} (h : decode w ≠ .notANumber) :
    Stands (Sign.ofBitVec (unpackSign w)) (w.toNat % 2 ^ 63) (decode w) := by
  have hexp := toNat_exponent w
  have hmant := toNat_mantissa w
  unfold decode UnpackedFloat.unpack at h ⊢
  dsimp only at h ⊢
  by_cases htop : unpackExponent w = -1#11
  · by_cases hzero : unpackMantissa w = 0#52
    · rw [if_pos htop, if_pos hzero]
      rw [htop] at hexp
      rw [hzero] at hmant
      have hb : w.toNat % 2 ^ 63 = 2047 * 2 ^ 52 := by
        have hexp : 2047 = w.toNat / 2 ^ 52 % 2 ^ 11 := hexp
        have hmant : 0 = w.toNat % 2 ^ 52 := hmant
        omega
      rw [hb]
      exact .infinity _
    · rw [if_pos htop, if_neg hzero] at h
      exact absurd rfl h
  · rw [if_neg htop]
    have hne : (unpackExponent w).toNat ≠ 2047 := fun heq => htop (BitVec.eq_of_toNat_eq heq)
    by_cases hbottom : unpackExponent w = 0#11
    · rw [if_pos hbottom]
      rw [hbottom] at hexp
      have hexp : 0 = w.toNat / 2 ^ 52 % 2 ^ 11 := hexp
      by_cases hzero : unpackMantissa w = 0#52
      · rw [dif_pos hzero]
        rw [hzero] at hmant
        have hmant : 0 = w.toNat % 2 ^ 52 := hmant
        have hb : w.toNat % 2 ^ 63 = 0 := by omega
        rw [hb]
        exact .zero _
      · rw [dif_neg hzero]
        have hexponent : ((unpackExponent w).toNat : Int) - (1023 + 52) + 1 = -1074 := by
          rw [hbottom]
          rfl
        refine .finite _ _ (by omega) hexponent.ge (Or.inl hexponent) ?_ (by omega)
        have hlow : w.toNat % 2 ^ 63 = (unpackMantissa w).toNat := by omega
        rw [hlow]
        show _ = (((unpackExponent w).toNat : Int) - (1023 + 52) + 1 + 1074) * 2 ^ 52 + _
        rw [hexponent]
        omega
    · rw [if_neg hbottom]
      have hpos : (unpackExponent w).toNat ≠ 0 := fun heq => hbottom (BitVec.eq_of_toNat_eq heq)
      have hfull : (1#1 ++ unpackMantissa w).toNat = 2 ^ 52 + (unpackMantissa w).toNat := by
        rw [BitVec.toNat_append, ← Nat.shiftLeft_add_eq_or_of_lt (unpackMantissa w).isLt]
        rfl
      refine .finite _ _ (by omega) ?_ (Or.inr (by omega)) ?_ (by omega)
      · show (-1074 : Int) ≤ ((unpackExponent w).toNat : Int) - (1023 + 52)
        omega
      · show _ = (((unpackExponent w).toNat : Int) - (1023 + 52) + 1074) * 2 ^ 52 + _
        rw [hfull]
        omega

/-- Of two finite numbers of one sign, the one with the smaller exponent, or else the smaller
mantissa, has the smaller bits. -/
theorem bits_lt_of_parts {b c m n : Nat} {e f : Int} (he : -1074 ≤ e) (hm : m < 2 ^ 53)
    (hn : f = -1074 ∨ 2 ^ 52 ≤ n) (hb : (b : Int) = (e + 1074) * 2 ^ 52 + m)
    (hc : (c : Int) = (f + 1074) * 2 ^ 52 + n) (h : e < f ∨ e = f ∧ m < n) : b < c := by
  rcases h with hexp | ⟨rfl, hmant⟩
  · -- the larger exponent is not the smallest there is, so its mantissa has all its digits
    have hfull : 2 ^ 52 ≤ n := hn.resolve_left (by omega)
    omega
  · omega

/-- A number that is less has a lower place. -/
theorem level_lt_of_compare {s t : Sign} {b c : Nat} {u v : UnpackedFloat} (hu : Stands s b u)
    (hv : Stands t c v) (h : u.compare v = some .lt) : level s b < level t c := by
  cases hu with
  | zero =>
      cases hv <;> cases s <;> cases t <;> simp [UnpackedFloat.compare] at h <;>
        simp only [level] <;> omega
  | infinity =>
      cases hv <;> cases s <;> cases t <;> simp [UnpackedFloat.compare, compare] at h <;>
        simp only [level] <;> omega
  | finite hpos hm he hnormal hb hlt =>
      cases hv with
      | finite hpos' hm' he' hnormal' hb' hlt' =>
          cases s with
          | positive =>
              cases t with
              | positive =>
                  simp only [UnpackedFloat.compare, Option.some.injEq, Ordering.then_eq_lt,
                    compare_lt_iff_lt, compare_eq_iff_eq] at h
                  have hbits := bits_lt_of_parts he hm hnormal' hb hb' h
                  exact Int.ofNat_lt.mpr hbits
              | negative => cases h
          | negative =>
              cases t with
              | positive =>
                  simp only [level]
                  omega
              | negative =>
                  simp only [UnpackedFloat.compare, Option.some.injEq, Ordering.swap_eq_lt,
                    Ordering.then_eq_gt, compare_gt_iff_gt, compare_eq_iff_eq] at h
                  have hbits := bits_lt_of_parts he' hm' hnormal hb' hb
                    (h.imp_right fun hsame => ⟨hsame.1.symm, hsame.2⟩)
                  simp only [level]
                  omega
      | _ =>
          cases s <;> cases t <;> simp [UnpackedFloat.compare] at h <;>
            simp only [level] <;> omega

/-! ### Places -/

/-- The place of a double is that of its word. -/
theorem rank_eq_level (x : Double) :
    rank x = level (Sign.ofBitVec (unpackSign (word x))) ((word x).toNat % 2 ^ 63) := by
  have hword : bits x = (word x).toNat := rfl
  have hlt : (word x).toNat < 2 ^ 64 := (word x).isLt
  have hsign := toNat_sign (word x)
  have hbit : ∀ v : BitVec 1, v = 0#1 ∨ v = 1#1 := by decide
  unfold rank isNegative
  rw [hword]
  rcases hbit (unpackSign (word x)) with hs | hs
  · rw [hs] at hsign ⊢
    have hsign : 0 = (word x).toNat / 2 ^ 63 := hsign
    rw [if_neg (by simp only [decide_eq_true_eq]; omega)]
    show _ = (((word x).toNat % 2 ^ 63 : Nat) : Int)
    omega
  · rw [hs] at hsign ⊢
    have hsign : 1 = (word x).toNat / 2 ^ 63 := hsign
    rw [if_pos (by simp only [decide_eq_true_eq]; omega)]
    show _ = -(((word x).toNat % 2 ^ 63 : Nat) : Int) - 1
    omega

/-- **The total order keeps every `<` between doubles.** -/
theorem rank_lt_of_lt {x y : Double} (h : x < y) : rank x < rank y := by
  have hcompare : (meaning x).compare (meaning y) = some .lt := by
    have hlt : x.toFloat.toModel < y.toFloat.toModel := of_decide_eq_true h
    rw [← unpack_toFloat x, ← unpack_toFloat y]
    exact eq_of_beq hlt
  have hx : decode (word x) ≠ .notANumber := by
    intro hnan
    have hmeaning : meaning x = .notANumber := hnan
    rw [hmeaning] at hcompare
    cases hcompare
  have hy : decode (word y) ≠ .notANumber := by
    intro hnan
    have hmeaning : meaning y = .notANumber := hnan
    rw [hmeaning] at hcompare
    cases hx' : meaning x <;> rw [hx'] at hcompare <;> cases hcompare
  rw [rank_eq_level, rank_eq_level]
  exact level_lt_of_compare (stands_decode hx) (stands_decode hy) hcompare

theorem eq_of_bits {x y : Double} (h : bits x = bits y) : x = y :=
  congrArg Double.mk (UInt64.toNat_inj.mp h)

/-- Doubles at the same place have the same bits. -/
theorem eq_of_rank {x y : Double} (h : rank x = rank y) : x = y := by
  refine eq_of_bits ?_
  have hx : bits x < 2 ^ 64 := x.bits.toBitVec.isLt
  have hy : bits y < 2 ^ 64 := y.bits.toBitVec.isLt
  unfold rank isNegative at h
  by_cases hxs : 2 ^ 63 ≤ bits x <;> by_cases hys : 2 ^ 63 ≤ bits y <;>
    simp only [hxs, hys, decide_true, decide_false, if_true, Bool.false_eq_true, if_false] at h <;>
    omega

/-- Doubles compare as equal in the total order only if they are the same. -/
theorem totalCompare_eq_iff {x y : Double} : totalCompare x y = .eq ↔ x = y := by
  rw [totalCompare, compare_eq_iff_eq]
  exact ⟨eq_of_rank, congrArg rank⟩

theorem Stands.le {s : Sign} {b : Nat} {u : UnpackedFloat} (h : Stands s b u) :
    b ≤ 2047 * 2 ^ 52 := by
  cases h <;> omega

/-- The bits below the sign are larger in a NaN than in any number. -/
theorem isNaN_iff_lt (x : Double) : x.isNaN = true ↔ 2047 * 2 ^ 52 < bits x % 2 ^ 63 := by
  rw [isNaN_iff]
  constructor
  · intro hnan
    by_contra hle
    exact decode_ne_nan (not_lt.mp hle) hnan
  · intro hlt
    by_contra hnumber
    exact absurd (stands_decode hnumber).le (not_le.mpr hlt)

/-- **NaNs stand outside of all numbers**, each on the side of its sign. -/
theorem rank_of_isNaN {x y : Double} (hx : x.isNaN = true) (hy : y.isNaN = false) :
    if isNegative x then rank x < rank y else rank y < rank x := by
  have hlarge := (isNaN_iff_lt x).mp hx
  have hsmall : ¬ 2047 * 2 ^ 52 < bits y % 2 ^ 63 := by
    rw [← isNaN_iff_lt, hy]
    exact Bool.false_ne_true
  have hxlt : bits x < 2 ^ 64 := x.bits.toBitVec.isLt
  have hylt : bits y < 2 ^ 64 := y.bits.toBitVec.isLt
  unfold rank isNegative
  by_cases hxs : 2 ^ 63 ≤ bits x <;> by_cases hys : 2 ^ 63 ≤ bits y <;>
    simp only [hxs, hys, decide_true, decide_false, if_true, Bool.false_eq_true, if_false] <;>
    omega

/-! ### Equal doubles -/

/-- Two zeros, one of them below the other in the total order. -/
structure OppositeZeros (x y : Double) : Prop where
  left : (x == 0) = true
  right : (y == 0) = true
  sign : isNegative x ≠ isNegative y

theorem beq_zero_of_meaning {x : Double} {s : Sign} (h : meaning x = .zero s) :
    (x == 0) = true :=
  (beq_iff x 0).mpr ⟨by rw [h]; exact nofun, Or.inr ⟨s, .positive, h, rfl⟩⟩

/-- A zero is determined by its sign. -/
theorem bits_of_meaning_zero {x : Double} {s : Sign} (h : meaning x = .zero s) :
    bits x = if isNegative x then 2 ^ 63 else 0 := by
  have hlow : bits x % 2 ^ 63 = 0 := toNat_of_decode_zero h
  have hlt : bits x < 2 ^ 64 := x.bits.toBitVec.isLt
  unfold isNegative
  by_cases hsign : 2 ^ 63 ≤ bits x
  · rw [if_pos (decide_eq_true hsign)]
    omega
  · rw [if_neg (by rwa [decide_eq_true_eq])]
    omega

/-- **Equal doubles are the same**, or they are zeros of opposite sign. -/
theorem eq_or_oppositeZeros_of_beq {x y : Double} (h : (x == y) = true) :
    x = y ∨ OppositeZeros x y := by
  obtain ⟨hnan, hsame | ⟨s, t, hs, ht⟩⟩ := (beq_iff x y).mp h
  · exact Or.inl (eq_of_meaning hnan hsame)
  · by_cases hsign : isNegative x = isNegative y
    · refine Or.inl (eq_of_bits ?_)
      rw [bits_of_meaning_zero hs, bits_of_meaning_zero ht, hsign]
    · exact Or.inr ⟨beq_zero_of_meaning hs, beq_zero_of_meaning ht, hsign⟩

/-! ### Integers -/

theorem roundDiv_mono {n k d : Nat} (h : n ≤ k) :
    roundDiv .toEven n d ≤ roundDiv .toEven k d := by
  have hquotient : n / d ≤ k / d := Nat.div_le_div_right h
  have hn := Nat.div_add_mod n d
  have hk := Nat.div_add_mod k d
  unfold roundDiv
  dsimp only
  rcases Nat.lt_or_ge (n / d) (k / d) with hlt | hge
  · split <;> split <;> omega
  · have hsame : n / d = k / d := by omega
    rw [hsame] at hn ⊢
    have hrest : n % d ≤ k % d := by omega
    rcases hc : compare (2 * (n % d)) d <;> rcases hc' : compare (2 * (k % d)) d <;>
      simp only [compare_lt_iff_lt, compare_gt_iff_gt, compare_eq_iff_eq] at hc hc' <;>
      dsimp only <;> omega

/-- A whole number scaled so that its first digit is the last but 52, and rounded. -/
def scaledMantissa (n : Nat) : Nat :=
  if n.log2 ≤ 52 then n * 2 ^ (52 - n.log2) else roundDiv .toEven n (2 ^ (n.log2 - 52))

theorem nearestBits_eq {n : Nat} (hpos : 0 < n) : nearestBits ⟨n, 0⟩
    = min ((n.log2 + 1022) * 2 ^ 52 + scaledMantissa n) (2047 * 2 ^ 52) := by
  have hexp : max ((0 : Int) + n.log2 - 52) (-1074) = n.log2 - 52 := by omega
  have hfield : ((n.log2 : Int) - 52 + 1074).toNat = n.log2 + 1022 := by omega
  unfold nearestBits scaledMantissa
  dsimp only
  rw [if_neg (by omega), hexp, hfield]
  by_cases hlog : n.log2 ≤ 52
  · have hshift : ((0 : Int) - (n.log2 - 52)).toNat = 52 - n.log2 := by omega
    rw [if_pos (by omega), if_pos hlog, hshift]
  · have hshift : ((n.log2 : Int) - 52 - 0).toNat = n.log2 - 52 := by omega
    rw [if_neg (by omega), if_neg hlog, hshift]

/-- The scaled mantissa has 53 digits, or it was rounded up to the next power of two. -/
theorem scaledMantissa_bounds {n : Nat} (hpos : 0 < n) :
    2 ^ 52 ≤ scaledMantissa n ∧ scaledMantissa n ≤ 2 ^ 53 := by
  have hlow : 2 ^ n.log2 ≤ n := Nat.log2_self_le (by omega)
  have hhigh : n < 2 ^ (n.log2 + 1) := Nat.lt_log2_self
  unfold scaledMantissa
  by_cases hlog : n.log2 ≤ 52
  · rw [if_pos hlog]
    constructor
    · calc 2 ^ 52 = 2 ^ n.log2 * 2 ^ (52 - n.log2) := by rw [← Nat.pow_add]; congr 1; omega
        _ ≤ n * 2 ^ (52 - n.log2) := Nat.mul_le_mul_right _ hlow
    · calc n * 2 ^ (52 - n.log2) ≤ 2 ^ (n.log2 + 1) * 2 ^ (52 - n.log2) :=
            Nat.mul_le_mul_right _ hhigh.le
        _ = 2 ^ 53 := by rw [← Nat.pow_add]; congr 1; omega
  · rw [if_neg hlog]
    have hpower : 0 < 2 ^ (n.log2 - 52) := Nat.two_pow_pos _
    have hdown : 2 ^ 52 ≤ n / 2 ^ (n.log2 - 52) := by
      rw [Nat.le_div_iff_mul_le hpower, ← Nat.pow_add]
      have hsum : 52 + (n.log2 - 52) = n.log2 := by omega
      rwa [hsum]
    have hup : n / 2 ^ (n.log2 - 52) < 2 ^ 53 := by
      rw [Nat.div_lt_iff_lt_mul hpower, ← Nat.pow_add]
      have hsum : 53 + (n.log2 - 52) = n.log2 + 1 := by omega
      rwa [hsum]
    unfold roundDiv
    dsimp only
    split <;> omega

/-- Rounding keeps the order of whole numbers. -/
theorem nearestBits_mono {n k : Nat} (h : n ≤ k) : nearestBits ⟨n, 0⟩ ≤ nearestBits ⟨k, 0⟩ := by
  rcases Nat.eq_zero_or_pos n with rfl | hn
  · exact Nat.zero_le _
  have hk : 0 < k := by omega
  have hboundsn := scaledMantissa_bounds hn
  have hboundsk := scaledMantissa_bounds hk
  rw [nearestBits_eq hn, nearestBits_eq hk]
  have hlogs : n.log2 ≤ k.log2 :=
    (Nat.le_log2 (by omega)).mpr ((Nat.log2_self_le (by omega)).trans h)
  rcases Nat.lt_or_ge n.log2 k.log2 with hlt | hge
  · omega
  · have hsame : n.log2 = k.log2 := by omega
    have hscaled : scaledMantissa n ≤ scaledMantissa k := by
      unfold scaledMantissa
      rw [hsame]
      split
      · exact Nat.mul_le_mul_right _ h
      · exact roundDiv_mono h
    omega

/-- The sign of a double that is put together from its bits. -/
theorem isNegative_ofSignAndBits (negative : Bool) {b : Nat} (hb : b ≤ 2047 * 2 ^ 52) :
    isNegative (ofSignAndBits negative b) = negative := by
  unfold isNegative
  rw [bits_ofSignAndBits negative hb]
  cases negative with
  | true => exact decide_eq_true (by rw [if_pos rfl]; omega)
  | false => exact decide_eq_false (by rw [if_neg Bool.false_ne_true]; omega)

/-- The place of a double that is put together from its bits. -/
theorem rank_ofSignAndBits (negative : Bool) {b : Nat} (hb : b ≤ 2047 * 2 ^ 52) :
    rank (ofSignAndBits negative b) = if negative then -(b : Int) - 1 else b := by
  unfold rank
  rw [isNegative_ofSignAndBits negative hb, bits_ofSignAndBits negative hb]
  cases negative with
  | true =>
      rw [if_pos rfl, if_pos rfl, if_pos rfl]
      omega
  | false => rfl

/-- **Integers keep their order as doubles**, though different ones can become equal. -/
theorem rank_ofInt64_mono {i j : Int64} (h : i.toInt ≤ j.toInt) :
    rank (ofInt64 i) ≤ rank (ofInt64 j) := by
  rw [ofInt64, ofInt64, nearest, nearest, rank_ofSignAndBits _ (nearestBits_le _),
    rank_ofSignAndBits _ (nearestBits_le _)]
  simp only [decide_eq_true_eq]
  by_cases hi : i.toInt < 0
  · rw [if_pos hi]
    by_cases hj : j.toInt < 0
    · have habs := nearestBits_mono (show j.toInt.natAbs ≤ i.toInt.natAbs by omega)
      rw [if_pos hj]
      omega
    · rw [if_neg hj]
      omega
  · have habs := nearestBits_mono (show i.toInt.natAbs ≤ j.toInt.natAbs by omega)
    rw [if_neg hi, if_neg (by omega)]
    omega

end LambdaShell.Number
