/-
How the argument of `groupby` is divided.

The scan for the last gap goes over the text once and decides at the end.  Where it puts a gap
it was outside of all quoted runs, with as many brackets closed as opened: so what is cut off
behind the last arrow is level, and no literal and no bracket is torn apart.  The reverse is
true as well: whenever the text ends in a level operand, white space and a word that is not
a keyword, it is divided there.

The scan counts brackets in 32 bits.  What it tells is therefore whether a text looks level,
that is up to a multiple of `2 ^ 32`, and a text that looks level is so if it has fewer than
`2 ^ 31` characters, for then the count never leaves its range.
-/
import Mathlib
import LambdaShell.Proofs.Command.AggregateWord
import LambdaShell.Proofs.Text.SmallLetters

namespace LambdaShell.Command

open Text

/-! ### Level texts -/

/-- The text falls into quoted runs, each of them closed, and the characters `outside` of
them. -/
inductive Quoting : List Char → List Char → Prop where
  | nil : Quoting [] []
  | bare {c : Char} {cs outside : List Char} (hc : ¬ (c = '"' ∨ c = '\''))
      (h : Quoting cs outside) : Quoting (c :: cs) (c :: outside)
  | run {mark : Char} {body cs outside : List Char} (hmark : mark = '"' ∨ mark = '\'')
      (hbody : Enclosed mark body) (h : Quoting cs outside) :
      Quoting (mark :: (body ++ mark :: cs)) outside

/-- A bracket that opens. -/
def isOpening (c : Char) : Bool := ['(', '{', '['].contains c

/-- A bracket that closes. -/
def isClosing (c : Char) : Bool := [')', '}', ']'].contains c

/-- Every quoted run is closed, and outside of them as many brackets are closed as opened, up to
a multiple of `2 ^ 32`. -/
def LooksLevel (cs : List Char) : Prop :=
  ∃ outside, Quoting cs outside ∧ outside.countP isOpening ≡ outside.countP isClosing [MOD 2 ^ 32]

theorem Quoting.length_le {cs outside : List Char} (h : Quoting cs outside) :
    outside.length ≤ cs.length := by
  induction h with
  | nil => exact Nat.le_refl _
  | bare _ _ ih => exact Nat.succ_le_succ ih
  | run _ _ _ ih =>
      simp only [List.length_cons, List.length_append]
      omega

theorem Quoting.append {us vs outside outside' : List Char} (hus : Quoting us outside)
    (hvs : Quoting vs outside') : Quoting (us ++ vs) (outside ++ outside') := by
  induction hus with
  | nil => exact hvs
  | bare hc _ ih => exact .bare hc ih
  | run hmark hbody _ ih =>
      rw [List.cons_append, List.append_assoc, List.cons_append]
      exact .run hmark hbody ih

theorem enclosed_append {mark : Char} {us vs : List Char} (hus : Enclosed mark us)
    (hvs : Enclosed mark vs) : Enclosed mark (us ++ vs) := by
  induction hus with
  | nil => exact hvs
  | escape c _ ih => exact .escape c ih
  | plain hmark hslash _ ih => exact .plain hmark hslash ih

open GapScan in
theorem sum_bracketDepth (cs : List Char) :
    (cs.map bracketDepth).sum = (cs.countP isOpening : Int) - cs.countP isClosing := by
  induction cs with
  | nil => rfl
  | cons c cs ih =>
      have hc : bracketDepth c = (if isOpening c then 1 else 0) - (if isClosing c then 1 else 0) := by
        unfold bracketDepth isOpening isClosing
        simp only [List.contains_cons, List.contains_nil, Bool.or_false, Bool.or_eq_true, beq_iff_eq]
        by_cases hopening : c = '(' ∨ c = '{' ∨ c = '['
        · have hnot : ¬ (c = ')' ∨ c = '}' ∨ c = ']') := by
            rcases hopening with rfl | rfl | rfl <;> decide
          simp only [if_pos hopening, if_neg hnot, Int.sub_zero]
        · simp only [if_neg hopening]
          split <;> rfl
      rw [List.map_cons, List.sum_cons, ih, hc, List.countP_cons, List.countP_cons]
      push_cast
      ring

/-! ### What the scan is at -/

namespace GapScan

/-- What a scan that has read a text is at: outside of quotes, inside of them, or right
behind a backslash inside of them. -/
inductive IsAt : List Char → GapScan → Prop where
  | outside {cs outside : List Char} {s : GapScan} (hcs : Quoting cs outside)
      (h : s.IsOutside (outside.map bracketDepth).sum) : IsAt cs s
  | inside {cs outside body : List Char} {mark : Char} {s : GapScan} (hcs : Quoting cs outside)
      (hmark : mark = '"' ∨ mark = '\'') (hbody : Enclosed mark body)
      (h : s.IsInside mark (outside.map bracketDepth).sum) : IsAt (cs ++ mark :: body) s
  | escaped {cs outside body : List Char} {mark : Char} {s : GapScan} (hcs : Quoting cs outside)
      (hmark : mark = '"' ∨ mark = '\'') (hbody : Enclosed mark body)
      (h : s.IsInside mark (outside.map bracketDepth).sum) :
      IsAt (cs ++ mark :: (body ++ ['\\'])) (s.next '\\')

variable {s : GapScan} {cs : List Char} {c : Char}

theorem IsAt.next (h : IsAt cs s) (c : Char) : IsAt (cs ++ [c]) (s.next c) := by
  cases h with
  | outside hcs h =>
      by_cases hc : c = '"' ∨ c = '\''
      · exact .inside hcs hc .nil (h.enter hc)
      · refine .outside (hcs.append (.bare hc .nil)) ?_
        rw [List.map_append, List.sum_append, List.map_singleton, List.sum_singleton]
        exact h.next hc
  | @inside cs outside body mark _ hcs hmark hbody h =>
      rw [List.append_assoc, List.cons_append]
      by_cases hslash : c = '\\'
      · rw [hslash]
        exact .escaped hcs hmark hbody h
      by_cases hleave : c = mark
      · have hquoting := hcs.append (.run hmark hbody .nil)
        rw [List.append_nil] at hquoting
        rw [hleave]
        exact .outside hquoting (h.leave (hleave ▸ hslash))
      · exact .inside hcs hmark (enclosed_append hbody (.plain hleave hslash .nil))
          (h.plain hleave hslash)
  | @escaped cs outside body mark _ hcs hmark hbody h =>
      rw [List.append_assoc, List.cons_append, List.append_assoc]
      exact .inside hcs hmark (enclosed_append hbody (.escape c .nil)) (h.escape c)

theorem isAt_run (cs : List Char) : IsAt cs (run cs) := by
  induction cs using List.reverseRecOn with
  | nil => exact .outside .nil ⟨rfl, rfl, rfl⟩
  | append_singleton cs c ih =>
      rw [run_append]
      exact ih.next c

/-- Over closed runs and brackets the scan counts what is outside of the runs. -/
theorem IsOutside.foldl_quoting {outside : List Char} {d : Int} (hcs : Quoting cs outside)
    (h : s.IsOutside d) : (cs.foldl GapScan.next s).IsOutside (d + (outside.map bracketDepth).sum) := by
  induction hcs generalizing s d with
  | nil => rwa [List.map_nil, List.sum_nil, Int.add_zero]
  | bare hc _ ih =>
      rw [List.foldl_cons, List.map_cons, List.sum_cons, ← Int.add_assoc]
      exact ih (h.next hc)
  | @run mark _ _ _ hmark hbody _ ih =>
      have hslash : mark ≠ '\\' := by
        rcases hmark with rfl | rfl <;> decide
      rw [List.foldl_cons, List.foldl_append, List.foldl_cons]
      exact ih ((foldl_enclosed hbody (h.enter hmark)).leave hslash)

/-- Thirty-two bits count to zero at multiples of `2 ^ 32`. -/
theorem ofInt_sum_eq_zero_iff : Int32.ofInt (cs.map bracketDepth).sum = 0 ↔
    cs.countP isOpening ≡ cs.countP isClosing [MOD 2 ^ 32] := by
  rw [Int32.ofInt_eq_iff_bmod_eq_toInt, Nat.ModEq.comm, Nat.modEq_iff_dvd, sum_bracketDepth]
  exact Int.dvd_iff_bmod_eq_zero.symm

/-- The scan is outside all brackets and quotes behind a text that looks level, and only
there. -/
theorem isTop_run_iff : (run cs).isTop = true ↔ LooksLevel cs := by
  constructor
  · intro htop
    have hat := isAt_run cs
    generalize run cs = s at htop hat
    rw [isTop, Bool.and_eq_true, Option.isNone_iff_eq_none, beq_iff_eq] at htop
    obtain ⟨hquote, hdepth⟩ := htop
    cases hat with
    | outside hcs h =>
        exact ⟨_, hcs, ofInt_sum_eq_zero_iff.mp (h.depth_eq.symm.trans hdepth)⟩
    | inside _ _ _ h => cases h.quoted.symm.trans hquote
    | @escaped _ _ _ _ s _ _ _ h =>
        have hquoted : (s.next '\\').quote = s.quote := by
          rw [next_of_inside h.quoted, inside, h.unescaped]
          rfl
        cases (hquoted.trans h.quoted).symm.trans hquote
  · rintro ⟨outside, hcs, hcount⟩
    have hrun : (run cs).IsOutside (0 + (outside.map bracketDepth).sum) :=
      IsOutside.foldl_quoting hcs ⟨rfl, rfl, rfl⟩
    rw [isTop, hrun.unquoted, hrun.depth_eq, Int.zero_add, ofInt_sum_eq_zero_iff.mpr hcount]
    rfl

/-! ### Gaps -/

/-- A gap is put at white space, behind something solid, outside of all brackets and quotes. -/
theorem gap_next {g : Nat} (h : (s.next c).gap = some g) : s.gap = some g ∨
    (s.isTop = true ∧ isBlank s.previous = false ∧ isBlank c = true ∧ g = s.position) := by
  cases hquote : s.quote with
  | some q =>
      rw [next_of_inside hquote] at h
      exact Or.inl (inside_gap s q c ▸ h)
  | none =>
      rw [next_of_outside hquote] at h
      replace h : (s.outside c).gap = some g := h
      unfold outside at h
      split at h
      · exact Or.inl h
      split at h
      · exact Or.inl h
      split at h
      · exact Or.inl h
      split at h
      · rename_i hgap
        cases h
        refine Or.inr ⟨?_, Bool.eq_false_iff.mpr hgap.2.2, hgap.1, rfl⟩
        rw [isTop, hquote, hgap.2.1]
        rfl
      · exact Or.inl h

/-- White space outside of quotes can start a gap and does nothing else. -/
theorem outside_of_isBlank (hc : isBlank c = true) : s.outside c =
    if s.depth = 0 ∧ isBlank s.previous = false then { s with gap := some s.position } else s := by
  have hsolid : ∀ e ∈ ['"', '\'', '(', '{', '[', ')', '}', ']'], isBlank e = false := by
    simp [isBlank, inRanges, blankRanges]
  have hne : ∀ e ∈ ['"', '\'', '(', '{', '[', ')', '}', ']'], c ≠ e := fun e he =>
    ne_of_apply_ne isBlank (by simp [hc, hsolid e he])
  simp only [List.forall_mem_cons] at hne
  simp [outside, hne, hc]

/-- White space behind white space, outside of quotes, starts no gap of its own. -/
theorem foldl_blanks {bs : List Char} (hbs : AllBlank bs) (hquote : s.quote = none)
    (hprevious : isBlank s.previous = true) :
    (bs.foldl GapScan.next s).gap = s.gap ∧ (bs.foldl GapScan.next s).quote = none := by
  induction bs generalizing s with
  | nil => exact ⟨rfl, hquote⟩
  | cons b bs ih =>
      obtain ⟨hb, hbs⟩ := List.forall_mem_cons.mp hbs
      have houtside : s.outside b = s := by
        rw [outside_of_isBlank hb, if_neg fun h => Bool.false_ne_true (h.2.symm.trans hprevious)]
      have hnext : (s.next b).gap = s.gap ∧ (s.next b).quote = none := by
        rw [next_of_outside hquote, houtside]
        exact ⟨rfl, hquote⟩
      rw [List.foldl_cons, ← hnext.1]
      refine ih hbs hnext.2 ?_
      rw [next_of_outside hquote]
      exact hb

end GapScan

variable {body front gap word : List Char} {d : Char}

/-- No operand ends in white space. -/
theorem isBlank_of_endsOperand (h : endsOperand d = true) : isBlank d = false := by
  refine Bool.eq_false_iff.mpr fun hblank => ?_
  have hnone : ∀ n ∈ blankPoints, endsOperand (Char.ofNat n) = false := by decide +kernel
  have hd := hnone _ (mem_blankPoints hblank)
  rw [d.ofNat_toNat, h] at hd
  cases hd

theorem endsOperand_iff : endsOperand d = true ↔
    isAlphanumeric d = true ∨ d ∈ ['_', ')', '}', ']', '"', '\''] := by
  rw [endsOperand, Bool.or_eq_true, List.contains_iff_mem]

theorem ofWord?_eq_none_iff {w : String} :
    Keyword.ofWord? w = none ↔ w ∉ ["true", "false", "null", "new"] := by
  have hfind : Keyword.ofWord? w = none ↔ ∀ k : Keyword, w ≠ k.text := by
    rw [Keyword.ofWord?, List.find?_eq_none]
    refine ⟨fun h k hk => h k (by cases k <;> simp) (beq_iff_eq.mpr hk.symm), fun h k _ hk => ?_⟩
    exact h k (beq_iff_eq.mp hk).symm
  rw [hfind]
  refine ⟨fun h hmem => ?_, fun h k hk => h ?_⟩
  · simp only [List.mem_cons, List.not_mem_nil, or_false] at hmem
    rcases hmem with hw | hw | hw | hw
    · exact h .true hw
    · exact h .false hw
    · exact h .null hw
    · exact h .new hw
  · cases k <;> simp [hk, Keyword.text]

/-- White space and a word behind a text that looks level put the gap where the text ends. -/
theorem IsCut.run_eq (hcut : IsCut body front d gap word) (hlevel : LooksLevel (front ++ [d])) :
    (GapScan.run body).gap = some (front ++ [d]).length ∧ (GapScan.run body).quote = none := by
  have htop := GapScan.isTop_run_iff.mpr hlevel
  rw [GapScan.isTop, Bool.and_eq_true, Option.isNone_iff_eq_none, beq_iff_eq] at htop
  obtain ⟨hquote, hdepth⟩ := htop
  obtain ⟨b, bs, hgap⟩ := List.exists_cons_of_ne_nil hcut.gap_ne
  obtain ⟨hb, hbs⟩ := List.forall_mem_cons.mp (show AllBlank (b :: bs) from hgap ▸ hcut.blank)
  have hposition : (GapScan.run (front ++ [d])).position = (front ++ [d]).length :=
    (GapScan.sees_run _).position
  have hprevious : (GapScan.run (front ++ [d])).previous = d := by
    rw [GapScan.run_append]
    rfl
  rw [hcut.text, hgap, GapScan.run_append, List.cons_append, List.foldl_cons, List.foldl_append]
  generalize GapScan.run (front ++ [d]) = s at hquote hdepth hposition hprevious
  have hnext : (s.next b).gap = some (front ++ [d]).length ∧ (s.next b).quote = none := by
    rw [GapScan.next_of_outside hquote, GapScan.outside_of_isBlank hb,
      if_pos ⟨hdepth, hprevious ▸ hcut.solid⟩, ← hposition]
    exact ⟨rfl, hquote⟩
  have hblank : isBlank (s.next b).previous = true := hb
  obtain ⟨hgap', hquote'⟩ := GapScan.foldl_blanks hbs hnext.2 hblank
  obtain ⟨hgap'', hquote''⟩ := GapScan.foldl_letters hquote' (isPlainWord_iff.mp hcut.word).2.1
  exact ⟨hgap''.trans (hgap'.trans hnext.1), hquote''⟩

theorem IsCut.startsSolid_word (hcut : IsCut body front d gap word) : StartsSolid word := by
  refine Solid.starts fun c hc => not_isBlank_of_isNameChar (isNameChar_of_isAlpha ?_)
  exact (isPlainWord_iff.mp hcut.word).2.1 c hc

section

variable {level level' : List Char → Prop} {text key : List Char}

/-- The text is a key, white space and a word, and the key can end where it does; `level` says
which texts are. -/
structure IsDivision (level : List Char → Prop) (text key gap word : List Char) : Prop where
  text : text = key ++ gap ++ word
  gap_ne : gap ≠ []
  blank : AllBlank gap
  word_ne : word ≠ []
  letters : ∀ c ∈ word, c.isAlpha = true
  plain : String.ofList word ∉ ["true", "false", "null", "new"]
  /-- Behind the last arrow of the text the key is level, and it ends like an operand. -/
  key : ∃ front mid d, key = front ++ "=>".toList ++ (mid ++ [d]) ∧
    ArrowFree (mid ++ [d] ++ (gap ++ word)) ∧ level (mid ++ [d]) ∧
      (isAlphanumeric d = true ∨ d ∈ ['_', ')', '}', ']', '"', '\''])

/-- It only matters which parts of the text are level. -/
theorem IsDivision.imp (himp : ∀ cs, cs.length ≤ text.length → level cs → level' cs)
    (h : IsDivision level text key gap word) : IsDivision level' text key gap word := by
  obtain ⟨front, mid, d, hkey, hfree, hlevel, hd⟩ := h.key
  have hle : (mid ++ [d]).length ≤ text.length := by
    simp only [h.text, hkey, List.length_append]
    omega
  exact { h with key := ⟨front, mid, d, hkey, hfree, himp _ hle hlevel, hd⟩ }

/-- A division of a text is a level cut behind its last arrow. -/
theorem isDivision_iff : IsDivision level text key gap word ↔
    ∃ arrow body front d, cutAtLastArrow? text = some (arrow, body) ∧
      key = arrow ++ (front ++ [d]) ∧ IsCut body front d gap word ∧ level (front ++ [d]) := by
  constructor
  · rintro ⟨rfl, hgap, hblank, hne, hletters, hplain, us, front, d, rfl, hfree, hlevel, hd⟩
    have hoperand := endsOperand_iff.mpr hd
    refine ⟨us ++ ['=', '>'], front ++ [d] ++ (gap ++ word), front, d, ?_, rfl, ?_, hlevel⟩
    · rw [← cutAtLastArrow?_of_arrowFree hfree us]
      simp
    · exact ⟨rfl, hoperand, isBlank_of_endsOperand hoperand, hgap, hblank,
        isPlainWord_iff.mpr ⟨hne, hletters, ofWord?_eq_none_iff.mpr hplain⟩⟩
  · rintro ⟨arrow, body, front, d, harrow, rfl, hcut, hlevel⟩
    obtain ⟨us, rfl, hfree⟩ := arrowFree_of_cutAtLastArrow? harrow
    obtain ⟨hne, hletters, hplain⟩ := isPlainWord_iff.mp hcut.word
    refine ⟨?_, hcut.gap_ne, hcut.blank, hne, hletters, ofWord?_eq_none_iff.mp hplain,
      us, front, d, rfl, hcut.text ▸ hfree, hlevel, endsOperand_iff.mp hcut.operand⟩
    rw [cutAtLastArrow?_eq_some harrow, hcut.text]
    simp only [List.append_assoc]

end

/-- A text that can be divided has more than one word. -/
theorem IsDivision.words {level : List Char → Prop} {text key : List Char}
    (h : IsDivision level text key gap word) (hstart : StartsSolid text) : ∃ w w' ws, words text = w :: w' :: ws := by
  obtain ⟨arrow, body, front, d, -, hkey, hcut, -⟩ := isDivision_iff.mp h
  obtain ⟨blanks, b, hconcat⟩ := (List.eq_nil_or_concat gap).resolve_left h.gap_ne
  obtain rfl := hconcat.trans List.concat_eq_append
  have hb : isBlank b = true := h.blank b (List.mem_append_right _ List.mem_cons_self)
  have htext : text = (key ++ blanks) ++ b :: word := by
    rw [h.text]
    simp only [List.append_assoc, List.cons_append, List.nil_append]
  have hne : key ++ blanks ≠ [] := by
    rw [hkey]
    simp
  rw [htext] at hstart ⊢
  obtain ⟨v, vs, hv⟩ := List.exists_cons_of_ne_nil (words_ne_nil hstart.of_append hne)
  obtain ⟨w, ws, hw⟩ := List.exists_cons_of_ne_nil (words_ne_nil hcut.startsSolid_word h.word_ne)
  rw [words_append hb, hv, hw]
  cases vs with
  | nil => exact ⟨v, w, ws, rfl⟩
  | cons v' vs => exact ⟨v, v', vs ++ w :: ws, rfl⟩

/-- The argument is divided into a key and a word if it can be, and else all of it is the
key. -/
def Divides (level : List Char → Prop) (args : List Char) : Prop :=
  (∃ key gap word, IsDivision level (trim args) key gap word ∧
      splitGroupBy args = (some key, word)) ∨
    ((∀ key gap word, ¬ IsDivision level (trim args) key gap word) ∧
      splitGroupBy args = (some (trim args), "items".toList))

theorem Divides.congr {level level' : List Char → Prop} {args : List Char}
    (hiff : ∀ cs, cs.length ≤ (trim args).length → (level cs ↔ level' cs))
    (h : Divides level args) : Divides level' args := by
  have himp := fun cs hle => (hiff cs hle).mp
  have himp' := fun cs hle => (hiff cs hle).mpr
  rcases h with ⟨key, gap, word, hdivision, hsplit⟩ | ⟨hnone, hsplit⟩
  · exact Or.inl ⟨key, gap, word, hdivision.imp himp, hsplit⟩
  · exact Or.inr ⟨fun key gap word h => hnone key gap word (h.imp himp'), hsplit⟩

end LambdaShell.Command
