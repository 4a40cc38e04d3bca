/-
Small letters inside a longer text.

The small form of a text is put together from the small forms of its characters, but for
one thing: a capital sigma looks at what stands around it.  It becomes one of two letters,
and `unfinal` tells them no longer apart, so that under it the small form of a text made
of several pieces is made of theirs.  A text without sigmas, such as one of ASCII letters,
therefore stands in the small form of another exactly if it stands there under `unfinal`.
-/
import Mathlib
import LambdaShell.Proofs.Text.Trimming
import LambdaShell.Text.Case

namespace LambdaShell.Text

variable {p cs us vs : List Char} {c d : Char}

/-! ### ASCII -/

/-- All characters are ASCII. -/
def IsAscii (cs : List Char) : Prop := ∀ c ∈ cs, c.toNat < 0x80

theorem toNat_toLower_lt : c.toLower.toNat < 0x80 ↔ c.toNat < 0x80 := by
  unfold Char.toLower
  split
  · rename_i hc
    have hle : c.toNat ≤ 90 := UInt32.le_iff_toNat_le.mp hc.2
    have hsum : (c.val + ('a'.val - 'A'.val)).toNat = (c.toNat + 32) % 4294967296 :=
      UInt32.toNat_add c.val 32
    show (c.val + ('a'.val - 'A'.val)).toNat < 0x80 ↔ _
    omega
  · rfl

theorem IsAscii.of_map_toLower (h : IsAscii (cs.map Char.toLower)) : IsAscii cs := by
  intro c hc
  exact toNat_toLower_lt.mp (h _ (List.mem_map_of_mem hc))

theorem lowerChar_of_ascii (h : c.toNat < 0x80) : lowerChar c = [c.toLower] := if_pos h

theorem lowerFrom_of_ascii (h : IsAscii cs) (before : List Char) :
    lowerFrom before cs = cs.map Char.toLower := by
  induction cs generalizing before with
  | nil => rfl
  | cons c cs ih =>
      obtain ⟨hc, hcs⟩ := List.forall_mem_cons.mp h
      have hsigma : c ≠ 'Σ' := by
        rintro rfl
        exact absurd hc (by decide)
      rw [lowerFrom, if_neg hsigma, lowerChar_of_ascii hc, ih hcs]
      rfl

theorem toLower_of_ascii (h : IsAscii cs) : toLower cs = cs.map Char.toLower :=
  lowerFrom_of_ascii h []

theorem toNat_lt_of_isAlpha (h : c.isAlpha = true) : c.toNat < 0x80 := by
  simp only [Char.isAlpha, Char.isUpper, Char.isLower, Bool.or_eq_true, Bool.and_eq_true,
    decide_eq_true_eq, ge_iff_le, UInt32.le_iff_toNat_le] at h
  have hz : ('z'.val).toNat = 122 := rfl
  have hZ : ('Z'.val).toNat = 90 := rfl
  show c.val.toNat < 0x80
  omega

/-- On letters the small form is the familiar one. -/
theorem toLower_of_letters (h : ∀ c ∈ cs, c.isAlpha = true) : toLower cs = cs.map Char.toLower := by
  have hascii : IsAscii cs := fun c hc => toNat_lt_of_isAlpha (h c hc)
  exact toLower_of_ascii hascii

/-- What has letters for its small form is made of letters. -/
theorem letters_of_map_toLower (h : ∀ c ∈ cs.map Char.toLower, c.isAlpha = true) :
    ∀ c ∈ cs, c.isAlpha = true := by
  intro c hc
  have hsmall := h _ (List.mem_map_of_mem hc)
  unfold Char.toLower at hsmall
  split at hsmall
  · rename_i hupper
    rw [Char.isAlpha, Char.isUpper, decide_eq_true hupper, Bool.true_or]
  · exact hsmall

/-! ### Sigmas -/

/-- A small sigma, whether it ends a word or not. -/
def unfinal (c : Char) : Char := if c = 'ς' then 'σ' else c

/-- The small form of a text, sigmas not told apart. -/
def plainLower (cs : List Char) : List Char := cs.flatMap fun c => (lowerChar c).map unfinal

theorem plainLower_append : plainLower (us ++ vs) = plainLower us ++ plainLower vs :=
  List.flatMap_append

theorem map_unfinal_lowerFrom (cs before : List Char) :
    (lowerFrom before cs).map unfinal = plainLower cs := by
  induction cs generalizing before with
  | nil => rfl
  | cons c cs ih =>
      have hc : (if c = 'Σ' then [lowerSigma before cs] else lowerChar c).map unfinal
          = (lowerChar c).map unfinal := by
        by_cases hsigma : c = 'Σ'
        · have hlower : (lowerChar 'Σ').map unfinal = ['σ'] := by decide
          rw [if_pos hsigma, hsigma, hlower, lowerSigma]
          split <;> rfl
        · rw [if_neg hsigma]
      rw [lowerFrom, List.map_append, hc, ih]
      rfl

theorem plainLower_of_ascii (h : IsAscii cs) : plainLower cs = cs.map Char.toLower := by
  have hfix : ∀ c ∈ cs, unfinal c.toLower = c.toLower := by
    intro c hc
    refine if_neg fun hfinal => ?_
    have hsmall := toNat_toLower_lt.mpr (h c hc)
    rw [hfinal] at hsmall
    exact absurd hsmall (by decide)
  rw [← map_unfinal_lowerFrom cs [], lowerFrom_of_ascii h, List.map_map]
  exact List.map_congr_left hfix

/-- A text without sigmas stands in a text exactly if it stands there once sigmas are not
told apart. -/
theorem infix_map_unfinal (hp : 'σ' ∉ p ∧ 'ς' ∉ p) : p <:+: cs.map unfinal ↔ p <:+: cs := by
  constructor
  · rintro ⟨us, vs, h⟩
    obtain ⟨front, back, rfl, hfront, -⟩ := List.map_eq_append_iff.mp h.symm
    obtain ⟨before, found, rfl, -, rfl⟩ := List.map_eq_append_iff.mp hfront
    have hfix : ∀ c ∈ found, unfinal c = c := by
      intro c hc
      refine if_neg fun hfinal => hp.1 ?_
      have hmem := List.mem_map_of_mem (f := unfinal) hc
      rw [hfinal] at hmem
      exact hmem
    rw [List.map_congr_left hfix, List.map_id']
    exact ⟨before, back, rfl⟩
  · intro h
    have hfix : ∀ c ∈ p, unfinal c = c := by
      intro c hc
      refine if_neg fun hfinal => hp.2 ?_
      rwa [← hfinal]
    have hmap := h.map unfinal
    rwa [List.map_congr_left hfix, List.map_id'] at hmap

/-! ### White space -/

/-- The code points of white space, one by one. -/
def blankPoints : List Nat :=
  [0x09, 0x0A, 0x0B, 0x0C, 0x0D, 0x20, 0x85, 0xA0, 0x1680, 0x2000, 0x2001, 0x2002, 0x2003, 0x2004,
    0x2005, 0x2006, 0x2007, 0x2008, 0x2009, 0x200A, 0x2028, 0x2029, 0x202F, 0x205F, 0x3000]

theorem mem_blankPoints (h : isBlank c = true) : c.toNat ∈ blankPoints := by
  simp only [isBlank, inRanges, blankRanges, List.any_cons, List.any_nil, Bool.or_false,
    Bool.or_eq_true, Bool.and_eq_true, decide_eq_true_eq] at h
  simp only [blankPoints, List.mem_cons, List.not_mem_nil, or_false]
  omega

/-- White space has no other small form. -/
theorem isBlank_of_mem_lowerChar (h : isBlank c = true) (hd : d ∈ lowerChar c) :
    isBlank d = true := by
  have hall : blankPoints.all (fun n => (lowerChar (Char.ofNat n)).all isBlank) = true := by
    decide +kernel
  have hc := List.all_eq_true.mp hall _ (mem_blankPoints h)
  rw [Char.ofNat_toNat] at hc
  exact List.all_eq_true.mp hc d hd

theorem AllBlank.plainLower (h : AllBlank us) : AllBlank (plainLower us) := by
  intro d hd
  obtain ⟨c, hc, hd⟩ := List.mem_flatMap.mp hd
  obtain ⟨e, he, rfl⟩ := List.mem_map.mp hd
  have hblank := isBlank_of_mem_lowerChar (h c hc) he
  have hfinal : e ≠ 'ς' := by
    rintro rfl
    exact absurd hblank (by decide)
  rwa [unfinal, if_neg hfinal]

/-- What shares no character with a text does not help to make it up. -/
theorem infix_append_left (h : ∀ c ∈ us, c ∉ p) : p <:+: us ++ cs ↔ p <:+: cs := by
  refine ⟨?_, fun hp => hp.trans (List.suffix_append us cs).isInfix⟩
  induction us with
  | nil => exact id
  | cons c us ih =>
      obtain ⟨hc, hus⟩ := List.forall_mem_cons.mp h
      intro hp
      rcases List.infix_cons_iff.mp hp with hprefix | hp
      · cases p with
        | nil => exact List.nil_infix
        | cons d p =>
            obtain ⟨rfl, -⟩ := List.cons_prefix_cons.mp hprefix
            exact absurd List.mem_cons_self hc
      · exact ih hus hp

theorem infix_append_right (h : ∀ c ∈ vs, c ∉ p) : p <:+: cs ++ vs ↔ p <:+: cs := by
  rw [← List.reverse_infix, List.reverse_append, infix_append_left, List.reverse_infix]
  simpa only [List.mem_reverse] using h

/-! ### Whole texts -/

/-- Solid ASCII, in which neither sigmas nor white space play a part. -/
structure IsSolidAscii (p : List Char) : Prop where
  ascii : IsAscii p
  solid : ∀ c ∈ p, isBlank c = false

theorem IsSolidAscii.not_sigma (h : IsSolidAscii p) : 'σ' ∉ p ∧ 'ς' ∉ p :=
  ⟨fun hmem => absurd (h.ascii _ hmem) (by decide), fun hmem => absurd (h.ascii _ hmem) (by decide)⟩

/-- Solid ASCII stands in the small form of a text exactly if it stands there when the
small form is made up character by character. -/
theorem IsSolidAscii.infix_toLower (h : IsSolidAscii p) :
    p <:+: toLower cs ↔ p <:+: plainLower cs := by
  rw [← map_unfinal_lowerFrom cs [], infix_map_unfinal h.not_sigma, toLower]

/-- White space around a text does not matter for what stands in its small form. -/
theorem IsSolidAscii.infix_toLower_trim (h : IsSolidAscii p) :
    p <:+: toLower (trim cs) ↔ p <:+: toLower cs := by
  obtain ⟨front, hfront, hfrontBlank⟩ := trimStart_spec cs
  obtain ⟨back, hback, hbackBlank⟩ := trimEnd_spec (trimStart cs)
  have hout : ∀ {us : List Char}, AllBlank us → ∀ c ∈ us, c ∉ p := by
    intro us hus c hc hp
    have hsolid := h.solid c hp
    rw [hus c hc] at hsolid
    cases hsolid
  have hsplit : plainLower cs = plainLower front ++ (plainLower (trim cs) ++ plainLower back) := by
    rw [← plainLower_append, ← plainLower_append, trim, ← hback, ← hfront]
  rw [h.infix_toLower, h.infix_toLower, hsplit, infix_append_left (hout hfrontBlank.plainLower),
    infix_append_right (hout hbackBlank.plainLower)]

end LambdaShell.Text
