/-
When two doubles are equal.

Equality of doubles is equality of what their bits stand for, with two exceptions: a NaN is
equal to nothing, and the two zeros are equal to each other.  So on the doubles that are not
NaN it is an equivalence.  What bits stand for determines them again, but for those of a NaN.

Integers become doubles by rounding, and rounding can make two of them one.  Up to `2 ^ 53`
it does nothing at all, and from there on it never goes back below, so integers that become
equal doubles are both at least that large.
-/
import Mathlib
import LambdaShell.Number.Binary

namespace LambdaShell.Number

open Float.Model UnpackedFloat

-- Powers are those of the core library, also where algebra offers others.
attribute [local instance (high)] instPowNat

/-! ### Bits and what they stand for -/

/-- The bits of a double. -/
abbrev Word := BitVec Format.binary64.numBits

/-- What a word stands for. -/
abbrev decode (w : Word) : UnpackedFloat := UnpackedFloat.unpack Format.binary64 w

/-- The word that stands for a number. -/
abbrev encode (u : UnpackedFloat) : Word := UnpackedFloat.pack Format.binary64 u

theorem toNat_mantissa (w : Word) : (unpackMantissa w).toNat = w.toNat % 2 ^ 52 := by
  simp [unpackMantissa]

theorem toNat_exponent (w : Word) : (unpackExponent w).toNat = w.toNat / 2 ^ 52 % 2 ^ 11 := by
  simp [unpackExponent, Nat.shiftRight_eq_div_pow]

theorem toNat_sign (w : Word) : (unpackSign w).toNat = w.toNat / 2 ^ 63 := by
  have hw : w.toNat < 2 ^ 64 := w.isLt
  simp [unpackSign, Nat.shiftRight_eq_div_pow]
  omega

theorem toNat_packComponents (s : Sign) (k : BitVec 11) (m : BitVec 52) :
    (packComponents Format.binary64 s k m).toNat
      = s.toBitVec.toNat * 2 ^ 63 + k.toNat * 2 ^ 52 + m.toNat := by
  have hm : m.toNat < 2 ^ 52 := m.isLt
  have hk : k.toNat < 2 ^ 11 := k.isLt
  show (s.toBitVec ++ k ++ m).toNat = _
  rw [BitVec.toNat_append, ← Nat.shiftLeft_add_eq_or_of_lt hm, BitVec.toNat_append,
    ← Nat.shiftLeft_add_eq_or_of_lt hk, Nat.shiftLeft_eq, Nat.shiftLeft_eq]
  omega

/-- A word is its sign, its exponent and its mantissa, one behind the other. -/
theorem packComponents_fields (w : Word) :
    packComponents Format.binary64 (Sign.ofBitVec (unpackSign w)) (unpackExponent w)
      (unpackMantissa w) = w := by
  have hsign : ∀ v : BitVec 1, (Sign.ofBitVec v).toBitVec = v := by decide
  refine BitVec.eq_of_toNat_eq ?_
  rw [toNat_packComponents, hsign, toNat_sign, toNat_exponent, toNat_mantissa]
  omega

theorem encode_subnormal {s : Sign} {m : BitVec 52} {e : Int} (hm : m ≠ 0#52)
    (he : e = -1074) (hpos : 0 < m.toNat) :
    encode (.finite s m.toNat e hpos) = packComponents Format.binary64 s 0#11 m := by
  have hlog : m.toNat.log2 < 52 :=
    (Nat.log2_lt fun h => hm (BitVec.eq_of_toNat_eq h)).mpr m.isLt
  subst he
  rw [encode, UnpackedFloat.pack]
  dsimp only
  rw [if_neg (by decide), if_neg, BitVec.ofNat_toNat, BitVec.setWidth_eq]
  show ¬ _ = 1 + 52
  omega

theorem encode_normal {s : Sign} {m : BitVec 52} {k : BitVec 11} (hk : k ≠ -1#11)
    (hpos : 0 < (1#1 ++ m).toNat) :
    encode (.finite s (1#1 ++ m).toNat (k.toNat - (1023 + 52)) hpos)
      = packComponents Format.binary64 s k m := by
  have hm : m.toNat < 2 ^ 52 := m.isLt
  have hk : k.toNat < 2047 := by
    have hne : k.toNat ≠ 2047 := fun h => hk (BitVec.eq_of_toNat_eq h)
    have hlt : k.toNat < 2 ^ 11 := k.isLt
    omega
  have hmant : (1#1 ++ m).toNat = 2 ^ 52 + m.toNat := by
    rw [BitVec.toNat_append, ← Nat.shiftLeft_add_eq_or_of_lt hm]
    rfl
  have hlog : (2 ^ 52 + m.toNat).log2 = 52 :=
    (Nat.log2_eq_iff (by omega)).mpr ⟨by omega, by omega⟩
  have hbias : ((k.toNat : Int) - (1023 + 52) + Format.binary64.exponentBias
      + Format.binary64.mantissaBitsWithoutImplicit).toNat = k.toNat := by
    show ((k.toNat : Int) - (1023 + 52) + 1023 + 52).toNat = _
    omega
  have hlow : BitVec.ofNat 52 (2 ^ 52 + m.toNat) = m := by
    refine BitVec.eq_of_toNat_eq ?_
    rw [BitVec.toNat_ofNat]
    omega
  rw [encode, UnpackedFloat.pack]
  dsimp only
  rw [hbias, hmant, hlog, if_neg (show ¬ 2 ^ 11 ≤ k.toNat + 1 by omega),
    if_pos (show 52 + 1 = Format.binary64.mantissaBits from rfl), hlow, BitVec.ofNat_toNat,
    BitVec.setWidth_eq]

/-- Words that do not stand for a NaN stand for different things. -/
theorem encode_decode {w : Word} (h : decode w ≠ .notANumber) : encode (decode w) = w := by
  have hwhole := packComponents_fields w
  unfold decode UnpackedFloat.unpack at h ⊢
  dsimp only at h ⊢
  by_cases htop : unpackExponent w = -1#11
  · by_cases hmant : unpackMantissa w = 0#52
    · rw [if_pos htop, if_pos hmant]
      rwa [htop, hmant] at hwhole
    · rw [if_pos htop, if_neg hmant] at h
      exact absurd rfl h
  · rw [if_neg htop]
    by_cases hbottom : unpackExponent w = 0#11
    · rw [if_pos hbottom]
      by_cases hmant : unpackMantissa w = 0#52
      · rw [dif_pos hmant]
        rwa [hbottom, hmant] at hwhole
      · rw [dif_neg hmant, encode_subnormal hmant (by rw [hbottom]; rfl)]
        rwa [hbottom] at hwhole
    · rw [if_neg hbottom]
      exact (encode_normal htop _).trans hwhole

theorem decode_ne_nan {w : Word} (h : w.toNat % 2 ^ 63 ≤ 2047 * 2 ^ 52) :
    decode w ≠ .notANumber := by
  intro hnan
  unfold decode UnpackedFloat.unpack at hnan
  dsimp only at hnan
  split at hnan
  · rename_i htop
    split at hnan
    · cases hnan
    · rename_i hmant
      have hexp : w.toNat / 2 ^ 52 % 2 ^ 11 = 2047 := by
        rw [← toNat_exponent, htop]
        rfl
      have hpos : w.toNat % 2 ^ 52 ≠ 0 := by
        rw [← toNat_mantissa]
        exact fun h => hmant (BitVec.eq_of_toNat_eq h)
      omega
  · split at hnan
    · split at hnan <;> cases hnan
    · cases hnan

/-- A word that stands for a zero has no bits but its sign. -/
theorem toNat_of_decode_zero {w : Word} {s : Sign} (h : decode w = .zero s) :
    w.toNat % 2 ^ 63 = 0 := by
  have hword : encode (decode w) = w := encode_decode (by rw [h]; exact nofun)
  rw [h] at hword
  rw [← hword]
  cases s <;> rfl

/-! ### What a double stands for -/

/-- The bits of a double as a word. -/
abbrev word (x : Double) : Word := x.bits.toBitVec

/-- What a double stands for. -/
abbrev meaning (x : Double) : UnpackedFloat := decode (word x)

/-- The core library's double stands for the same. -/
theorem unpack_toFloat (x : Double) : x.toFloat.toModel.unpack = meaning x := by
  show decode (encode (meaning x)) = meaning x
  by_cases h : meaning x = .notANumber
  · rw [h]
    rfl
  · rw [encode_decode h]

theorem eq_of_word {x y : Double} (h : word x = word y) : x = y :=
  congrArg Double.mk (UInt64.toBitVec_inj.mp h)

/-- A number is determined by what it stands for. -/
theorem eq_of_meaning {x y : Double} (hx : meaning x ≠ .notANumber) (h : meaning x = meaning y) :
    x = y := by
  have hy : meaning y ≠ .notANumber := by rwa [← h]
  refine eq_of_word ?_
  calc word x = encode (meaning x) := (encode_decode hx).symm
    _ = encode (meaning y) := by rw [h]
    _ = word y := encode_decode hy

/-! ### Equality -/

theorem beq_unpacked_iff (u v : UnpackedFloat) : u.beq v = true ↔
    u ≠ .notANumber ∧ (u = v ∨ ∃ s t, u = .zero s ∧ v = .zero t) := by
  cases u with
  | notANumber => cases v <;> simp [UnpackedFloat.beq, UnpackedFloat.compare]
  | infinity s =>
      cases v with
      | infinity t =>
          cases s <;> cases t <;> simp [UnpackedFloat.beq, UnpackedFloat.compare, compare]
      | _ => cases s <;> simp [UnpackedFloat.beq, UnpackedFloat.compare]
  | zero s =>
      cases v with
      | infinity t => cases t <;> simp [UnpackedFloat.beq, UnpackedFloat.compare]
      | finite t => cases t <;> simp [UnpackedFloat.beq, UnpackedFloat.compare]
      | _ => simp [UnpackedFloat.beq, UnpackedFloat.compare]
  | finite s m e hm =>
      cases v with
      | infinity t => cases s <;> cases t <;> simp [UnpackedFloat.beq, UnpackedFloat.compare]
      | finite t n k hn =>
          cases s <;> cases t <;> simp [UnpackedFloat.beq, UnpackedFloat.compare, and_comm]
      | _ => cases s <;> simp [UnpackedFloat.beq, UnpackedFloat.compare]

/-- **Equal doubles** stand for the same and are not NaN, or are both zeros. -/
theorem beq_iff (x y : Double) : (x == y) = true ↔ meaning x ≠ .notANumber ∧
    (meaning x = meaning y ∨ ∃ s t, meaning x = .zero s ∧ meaning y = .zero t) := by
  rw [← unpack_toFloat x, ← unpack_toFloat y]
  exact beq_unpacked_iff _ _

theorem isNaN_iff (x : Double) : x.isNaN = true ↔ meaning x = .notANumber := by
  show x.toFloat.toModel.unpack.isNaN = true ↔ _
  rw [unpack_toFloat]
  cases meaning x <;> simp [UnpackedFloat.isNaN]

theorem beq_self_iff (x : Double) : (x == x) = true ↔ x.isNaN = false := by
  rw [beq_iff, ← Bool.not_eq_true, isNaN_iff]
  exact and_iff_left (Or.inl rfl)

theorem beq_symm {x y : Double} (h : (x == y) = true) : (y == x) = true := by
  rw [beq_iff] at h ⊢
  obtain ⟨hx, hxy | ⟨s, t, hs, ht⟩⟩ := h
  · exact ⟨hxy ▸ hx, Or.inl hxy.symm⟩
  · exact ⟨by rw [ht]; exact nofun, Or.inr ⟨t, s, ht, hs⟩⟩

theorem beq_trans {x y z : Double} (hxy : (x == y) = true) (hyz : (y == z) = true) :
    (x == z) = true := by
  rw [beq_iff] at hxy hyz ⊢
  obtain ⟨hx, hxy⟩ := hxy
  obtain ⟨-, hyz⟩ := hyz
  refine ⟨hx, ?_⟩
  rcases hxy with hxy | ⟨s, t, hs, ht⟩
  · rwa [hxy]
  · rcases hyz with hyz | ⟨s', t', -, ht'⟩
    · exact Or.inr ⟨s, t, hs, hyz ▸ ht⟩
    · exact Or.inr ⟨s, t', hs, ht'⟩

/-! ### Doubles put together from bits -/

theorem bits_ofSignAndBits (negative : Bool) {b : Nat} (hb : b ≤ 2047 * 2 ^ 52) :
    bits (ofSignAndBits negative b) = if negative then 2 ^ 63 + b else b := by
  have hlt : (if negative then 2 ^ 63 + b else b) < 2 ^ 64 := by split <;> omega
  show (BitVec.ofNat 64 (if negative then 2 ^ 63 + b else b)).toNat = _
  rw [BitVec.toNat_ofNat, Nat.mod_eq_of_lt hlt]

/-- A double that is put together from bits that are not too large is a number. -/
theorem meaning_ofSignAndBits (negative : Bool) {b : Nat} (hb : b ≤ 2047 * 2 ^ 52) :
    meaning (ofSignAndBits negative b) ≠ .notANumber := by
  have hbits := bits_ofSignAndBits negative hb
  refine decode_ne_nan ?_
  show bits _ % 2 ^ 63 ≤ _
  rw [hbits]
  split <;> omega

/-- Doubles put together from different bits are different, unless both are zeros. -/
theorem eq_of_ofSignAndBits_beq {n k : Bool} {a b : Nat} (ha : a ≤ 2047 * 2 ^ 52)
    (hb : b ≤ 2047 * 2 ^ 52) (h : (ofSignAndBits n a == ofSignAndBits k b) = true) :
    a = b ∧ (n = k ∨ a = 0) := by
  have hv := bits_ofSignAndBits n ha
  have hw := bits_ofSignAndBits k hb
  obtain ⟨hnan, hsame | ⟨s, t, hs, ht⟩⟩ := (beq_iff _ _).mp h
  · rw [eq_of_meaning hnan hsame, hw] at hv
    cases n <;> cases k <;> simp at hv ⊢ <;> omega
  · have hv0 : bits (ofSignAndBits n a) % 2 ^ 63 = 0 := toNat_of_decode_zero hs
    have hw0 : bits (ofSignAndBits k b) % 2 ^ 63 = 0 := toNat_of_decode_zero ht
    rw [hv] at hv0
    rw [hw] at hw0
    split at hv0 <;> split at hw0 <;> omega

/-! ### Integers -/

theorem nearestBits_le (m : Magnitude) : nearestBits m ≤ 2047 * 2 ^ 52 := by
  unfold nearestBits
  split
  · exact Nat.zero_le _
  · exact Nat.min_le_right _ _

/-- A whole number below `2 ^ 53` is not rounded: its digits are the mantissa, and the place of
the first of them is the exponent. -/
theorem nearestBits_small {n : Nat} (hpos : 0 < n) (hn : n < 2 ^ 53) :
    nearestBits ⟨n, 0⟩ = (n.log2 + 1022) * 2 ^ 52 + n * 2 ^ (52 - n.log2) ∧
      2 ^ 52 ≤ n * 2 ^ (52 - n.log2) ∧ n * 2 ^ (52 - n.log2) < 2 ^ 53 := by
  have hlog : n.log2 < 53 := (Nat.log2_lt (by omega)).mpr hn
  have hlow : 2 ^ 52 ≤ n * 2 ^ (52 - n.log2) := by
    calc 2 ^ 52 = 2 ^ n.log2 * 2 ^ (52 - n.log2) := by rw [← Nat.pow_add]; congr 1; omega
      _ ≤ n * 2 ^ (52 - n.log2) := Nat.mul_le_mul_right _ (Nat.log2_self_le (by omega))
  have hhigh : n * 2 ^ (52 - n.log2) < 2 ^ 53 := by
    calc n * 2 ^ (52 - n.log2) < 2 ^ (n.log2 + 1) * 2 ^ (52 - n.log2) :=
          Nat.mul_lt_mul_of_pos_right Nat.lt_log2_self (Nat.two_pow_pos _)
      _ = 2 ^ 53 := by rw [← Nat.pow_add]; congr 1; omega
  refine ⟨?_, hlow, hhigh⟩
  have hexp : max ((0 : Int) + n.log2 - 52) (-1074) = n.log2 - 52 := by omega
  have hshift : ((0 : Int) - (n.log2 - 52)).toNat = 52 - n.log2 := by omega
  have hfield : ((n.log2 : Int) - 52 + 1074).toNat = n.log2 + 1022 := by omega
  unfold nearestBits
  dsimp only
  rw [if_neg (by omega), hexp, if_pos (by omega), hshift, hfield]
  omega

/-- A whole number from `2 ^ 53` on is not rounded below it. -/
theorem nearestBits_large {n : Nat} (hn : 2 ^ 53 ≤ n) : 1076 * 2 ^ 52 ≤ nearestBits ⟨n, 0⟩ := by
  have hlog : 53 ≤ n.log2 := (Nat.le_log2 (by omega)).mpr hn
  have hexp : max ((0 : Int) + n.log2 - 52) (-1074) = n.log2 - 52 := by omega
  have hshift : ((n.log2 : Int) - 52 - 0).toNat = n.log2 - 52 := by omega
  have hfield : ((n.log2 : Int) - 52 + 1074).toNat = n.log2 + 1022 := by omega
  have hquotient : 2 ^ 52 ≤ n / 2 ^ (n.log2 - 52) := by
    rw [Nat.le_div_iff_mul_le (Nat.two_pow_pos _), ← Nat.pow_add]
    have hsum : 52 + (n.log2 - 52) = n.log2 := by omega
    rw [hsum]
    exact Nat.log2_self_le (by omega)
  have hround : n / 2 ^ (n.log2 - 52) ≤ roundDiv .toEven n (2 ^ (n.log2 - 52)) := by
    unfold roundDiv
    dsimp only
    split <;> omega
  unfold nearestBits
  dsimp only
  rw [if_neg (by omega), hexp, if_neg (by omega), hshift, hfield]
  omega

/-- The bits of a whole number below `2 ^ 53` lie below those of `2 ^ 53`. -/
theorem nearestBits_lt {n : Nat} (hn : n < 2 ^ 53) : nearestBits ⟨n, 0⟩ < 1076 * 2 ^ 52 := by
  by_cases hpos : n = 0
  · subst hpos
    decide
  · obtain ⟨hbits, hlow, hhigh⟩ := nearestBits_small (Nat.pos_of_ne_zero hpos) hn
    have hlog : n.log2 < 53 := (Nat.log2_lt hpos).mpr hn
    rw [hbits]
    omega

theorem nearestBits_pos {n : Nat} (hpos : 0 < n) : 0 < nearestBits ⟨n, 0⟩ := by
  by_cases hn : n < 2 ^ 53
  · rw [(nearestBits_small hpos hn).1]
    omega
  · have hlarge := nearestBits_large (Nat.le_of_not_lt hn)
    omega

/-- Whole numbers below `2 ^ 53` have different bits. -/
theorem eq_of_nearestBits {n k : Nat} (hn : n < 2 ^ 53) (hk : k < 2 ^ 53)
    (h : nearestBits ⟨n, 0⟩ = nearestBits ⟨k, 0⟩) : n = k := by
  by_cases hn0 : n = 0
  · subst hn0
    by_contra hk0
    have hpos := nearestBits_pos (n := k) (by omega)
    rw [← h] at hpos
    exact absurd hpos (by decide)
  by_cases hk0 : k = 0
  · subst hk0
    have hpos := nearestBits_pos (n := n) (by omega)
    rw [h] at hpos
    exact absurd hpos (by decide)
  obtain ⟨hbits, hlow, hhigh⟩ := nearestBits_small (Nat.pos_of_ne_zero hn0) hn
  obtain ⟨hbits', hlow', hhigh'⟩ := nearestBits_small (Nat.pos_of_ne_zero hk0) hk
  rw [hbits, hbits'] at h
  have hlog : n.log2 = k.log2 := by omega
  rw [hlog] at h
  exact Nat.eq_of_mul_eq_mul_right (Nat.two_pow_pos (52 - k.log2)) (by omega)

/-- No integer becomes a NaN. -/
theorem isNaN_ofInt64 (i : Int64) : (ofInt64 i).isNaN = false := by
  rw [← Bool.not_eq_true, isNaN_iff]
  exact meaning_ofSignAndBits _ (nearestBits_le _)

/-- **Integers that become equal doubles** are the same, or both are at least `2 ^ 53` in
size. -/
theorem large_of_ofInt64_beq {i j : Int64} (hne : i ≠ j)
    (h : (ofInt64 i == ofInt64 j) = true) :
    2 ^ 53 ≤ i.toInt.natAbs ∧ 2 ^ 53 ≤ j.toInt.natAbs := by
  obtain ⟨hbits, hsign⟩ := eq_of_ofSignAndBits_beq (nearestBits_le _) (nearestBits_le _) h
  by_cases hi : i.toInt.natAbs < 2 ^ 53
  · by_cases hj : j.toInt.natAbs < 2 ^ 53
    · have habs := eq_of_nearestBits hi hj hbits
      have hint : i.toInt = j.toInt := by
        rcases hsign with hsign | hzero
        · rw [decide_eq_decide] at hsign
          omega
        · by_contra hne'
          have hpos := nearestBits_pos (n := i.toInt.natAbs) (by omega)
          omega
      exact absurd (Int64.toInt_inj.mp hint) hne
    · have hlt := nearestBits_lt hi
      have hge := nearestBits_large (Nat.le_of_not_lt hj)
      omega
  · by_cases hj : j.toInt.natAbs < 2 ^ 53
    · have hge := nearestBits_large (Nat.le_of_not_lt hi)
      have hlt := nearestBits_lt hj
      omega
    · exact ⟨Nat.le_of_not_lt hi, Nat.le_of_not_lt hj⟩

end LambdaShell.Number
