/-
The scan for the last gap, token by token.

The scan goes through the characters of a lambda and knows nothing of tokens, but it keeps
in step with the lexer as long as it starts where a token does.  A token that is read from
outside all quotes leaves the scan outside all quotes, as many brackets deeper as the token
opens; inside a string both skip the character behind each backslash, so both see the same
quotation mark at the end.

White space and a word behind that do no more than start a gap, and not even that if
brackets or quotes are still open.
-/
import Mathlib
import LambdaShell.Command.Line
import LambdaShell.Proofs.Expr.Characters

namespace LambdaShell.Command

open Lexer Text

/-! ### Outside and inside quotes -/

namespace GapScan

/-- The scan is outside quotes, and `depth` brackets are open, as far as 32 bits tell. -/
structure IsOutside (depth : Int) (s : GapScan) : Prop where
  unquoted : s.quote = none
  unescaped : s.escaped = false
  depth_eq : s.depth = .ofInt depth

/-- The scan is inside quotes, no backslash just read, and `depth` brackets are open, as far as
32 bits tell. -/
structure IsInside (mark : Char) (depth : Int) (s : GapScan) : Prop where
  quoted : s.quote = some mark
  unescaped : s.escaped = false
  depth_eq : s.depth = .ofInt depth

variable {s : GapScan} {c mark : Char} {d : Int}

theorem next_of_outside (h : s.quote = none) :
    s.next c = { s.outside c with previous := c, position := s.position + 1 } := by
  rw [next, h]

theorem next_of_inside (h : s.quote = some mark) :
    s.next c = { s.inside mark c with previous := c, position := s.position + 1 } := by
  rw [next, h]

/-- The brackets that a character opens, less those that it closes. -/
def bracketDepth (c : Char) : Int :=
  if c = '(' ∨ c = '{' ∨ c = '[' then 1 else if c = ')' ∨ c = '}' ∨ c = ']' then -1 else 0

theorem IsOutside.outside (h : s.IsOutside d) (hc : ¬ (c = '"' ∨ c = '\'')) :
    (s.outside c).IsOutside (d + bracketDepth c) := by
  unfold GapScan.outside bracketDepth
  rw [if_neg hc]
  split
  · refine ⟨h.unquoted, h.unescaped, ?_⟩
    rw [Int32.ofInt_add, ← h.depth_eq]
    rfl
  split
  · refine ⟨h.unquoted, h.unescaped, ?_⟩
    rw [← Int.sub_eq_add_neg, Int32.ofInt_sub, ← h.depth_eq]
    rfl
  rw [Int.add_zero]
  split
  · exact ⟨h.unquoted, h.unescaped, h.depth_eq⟩
  · exact h

theorem IsOutside.next (h : s.IsOutside d) (hc : ¬ (c = '"' ∨ c = '\'')) :
    (s.next c).IsOutside (d + bracketDepth c) := by
  rw [next_of_outside h.unquoted]
  have houtside := h.outside hc
  exact ⟨houtside.unquoted, houtside.unescaped, houtside.depth_eq⟩

theorem IsOutside.foldl {cs : List Char} (hcs : ∀ c ∈ cs, ¬ (c = '"' ∨ c = '\''))
    (h : s.IsOutside d) : (cs.foldl GapScan.next s).IsOutside (d + (cs.map bracketDepth).sum) := by
  induction cs generalizing s d with
  | nil => rwa [List.map_nil, List.sum_nil, Int.add_zero]
  | cons c cs ih =>
      obtain ⟨hc, hcs⟩ := List.forall_mem_cons.mp hcs
      rw [List.foldl_cons, List.map_cons, List.sum_cons, ← Int.add_assoc]
      exact ih hcs (h.next hc)

/-! A string is entered at one quotation mark and left at the next of its kind. -/

theorem IsOutside.enter (h : s.IsOutside d) (hmark : mark = '"' ∨ mark = '\'') :
    (s.next mark).IsInside mark d := by
  rw [next_of_outside h.unquoted, GapScan.outside, if_pos hmark]
  exact ⟨rfl, h.unescaped, h.depth_eq⟩

/-- A backslash takes the character behind it along, whatever it is. -/
theorem IsInside.escape (h : s.IsInside mark d) (c : Char) :
    ((s.next '\\').next c).IsInside mark d := by
  have hslash : s.next '\\' =
      { s with escaped := true, previous := '\\', position := s.position + 1 } := by
    rw [next_of_inside h.quoted, inside, h.unescaped]
    rfl
  have hquoted : (s.next '\\').quote = some mark := by
    rw [hslash]
    exact h.quoted
  rw [next_of_inside hquoted, hslash]
  exact ⟨h.quoted, rfl, h.depth_eq⟩

theorem IsInside.plain (h : s.IsInside mark d) (hmark : c ≠ mark) (hslash : c ≠ '\\') :
    (s.next c).IsInside mark d := by
  rw [next_of_inside h.quoted, inside, h.unescaped, if_neg Bool.false_ne_true, if_neg hslash,
    if_neg hmark]
  exact ⟨h.quoted, h.unescaped, h.depth_eq⟩

theorem IsInside.leave (h : s.IsInside mark d) (hslash : mark ≠ '\\') :
    (s.next mark).IsOutside d := by
  rw [next_of_inside h.quoted, inside, h.unescaped, if_neg Bool.false_ne_true, if_neg hslash,
    if_pos rfl]
  exact ⟨rfl, rfl, h.depth_eq⟩

end GapScan

open GapScan

variable {s : GapScan} {d : Int}

theorem foldl_enclosed {mark : Char} {body : List Char} (hbody : Enclosed mark body)
    (h : s.IsInside mark d) : (body.foldl GapScan.next s).IsInside mark d := by
  induction hbody generalizing s with
  | nil => exact h
  | escape c _ ih => exact ih (h.escape c)
  | plain hmark hslash _ ih => exact ih (h.plain hmark hslash)

/-! ### Tokens -/

theorem not_bracket_of_isNumberChar {c : Char} (h : isNumberChar c = true) :
    ¬ (c = '"' ∨ c = '\'') ∧ bracketDepth c = 0 := by
  have hne : ∀ e : Char, isNumberChar e = false → c ≠ e := fun e he =>
    ne_of_apply_ne isNumberChar (by simp [h, he])
  constructor
  · rintro (hc | hc)
    · exact hne '"' (by decide) hc
    · exact hne '\'' (by decide) hc
  · simp only [bracketDepth, hne '(' rfl, hne '{' rfl, hne '[' rfl, hne ')' rfl, hne '}' rfl,
      hne ']' rfl, or_self, if_false]

theorem foldl_spelled {taken : List Char} {t : Token} (ht : Spelled taken t)
    (h : s.IsOutside d) : (taken.foldl GapScan.next s).IsOutside (d + t.depth) := by
  cases ht with
  | run hrun _ ht =>
      have hchars := fun c hc => not_bracket_of_isNumberChar (hrun.chars c hc)
      have hsum : (taken.map bracketDepth).sum = 0 :=
        List.sum_eq_zero (List.forall_mem_map.mpr fun c hc => (hchars c hc).2)
      rw [Token.depth_of_ne_symbol ht, ← hsum]
      exact h.foldl fun c hc => (hchars c hc).1
  | symbol s =>
      have hdepth : (Token.symbol s).depth = (s.text.toList.map bracketDepth).sum := by
        cases s <;> rfl
      have hmarks : s.text.toList.any (fun c => c = '"' ∨ c = '\'') = false := by
        cases s <;> rfl
      rw [hdepth]
      refine h.foldl fun c hc => ?_
      have hmark := List.any_eq_false.mp hmarks c hc
      rwa [decide_eq_true_iff] at hmark
  | @str mark body _ hmark hbody _ =>
      have hslash : mark ≠ '\\' := by
        rcases hmark with rfl | rfl <;> decide
      rw [List.foldl_cons, List.foldl_append]
      show IsOutside (d + 0) _
      rw [Int.add_zero]
      exact (foldl_enclosed hbody (h.enter hmark)).leave hslash

/-- **The scan keeps in step**: over a row of tokens it stays outside quotes, and the
brackets it counts are those among the tokens. -/
theorem foldl_lexed {cs : List Char} {ts : List (List Char × Token)} (hcs : Lexed cs ts)
    (h : s.IsOutside d) : (cs.foldl GapScan.next s).IsOutside (d + nesting (ts.map (·.2))) := by
  induction hcs generalizing s d with
  | nil => rwa [List.map_nil, nesting_nil, Int.add_zero]
  | @gap c cs ts hc _ ih =>
      have hgap : ¬ (c = '"' ∨ c = '\'') ∧ bracketDepth c = 0 := by
        simp only [isGap, Bool.or_eq_true, beq_iff_eq] at hc
        rcases hc with (((rfl | rfl) | rfl) | rfl) | rfl <;> decide
      have hnext := h.next hgap.1
      rw [hgap.2, Int.add_zero] at hnext
      exact ih hnext
  | @token c more rest t ts _ hscan _ ih =>
      rw [← List.cons_append, List.foldl_append, List.map_cons, nesting_cons, ← Int.add_assoc]
      exact ih (foldl_spelled (spelled_scan hscan) h)

theorem run_isOutside {cs : List Char} {ts : List (List Char × Token)} (h : Lexed cs ts)
    (hts : nesting (ts.map (·.2)) = 0) : (GapScan.run cs).IsOutside 0 := by
  have hrun : (GapScan.run cs).IsOutside (0 + nesting (ts.map (·.2))) :=
    foldl_lexed h ⟨rfl, rfl, rfl⟩
  rwa [hts] at hrun

/-! ### The last character -/

theorem endsOperand_of_isNameChar {c : Char} (h : isNameChar c = true) : endsOperand c = true := by
  have hsmall := toNat_lt_of_isNameChar h
  rw [isNameChar, Bool.or_eq_true, beq_iff_eq] at h
  rcases h with h | rfl
  · rw [endsOperand, Text.isAlphanumeric, if_pos hsmall, h]
    rfl
  · decide +kernel

/-- In a token that an operand can end in, the last character is one too. -/
theorem endsOperand_of_spelled {taken : List Char} {t : Token} (h : Spelled taken t)
    (ht : t.Closes) : ∃ front c, taken = front ++ [c] ∧ endsOperand c = true := by
  cases h with
  | run hrun hne _ =>
      obtain ⟨front, c, hconcat⟩ := (List.eq_nil_or_concat taken).resolve_left hne
      obtain rfl := hconcat.trans List.concat_eq_append
      exact ⟨front, c, rfl, endsOperand_of_isNameChar (hrun.last c List.getLast?_concat)⟩
  | symbol s =>
      rcases ht s rfl with rfl | rfl
      · exact ⟨[], ')', rfl, by decide +kernel⟩
      · exact ⟨[], '}', rfl, by decide +kernel⟩
  | @str mark body _ hmark _ _ =>
      refine ⟨mark :: body, mark, rfl, ?_⟩
      rcases hmark with rfl | rfl <;> decide +kernel

/-! ### A word behind white space -/

namespace GapScan

/-- The scan is outside all brackets and quotes. -/
def isTop (s : GapScan) : Bool := s.quote.isNone && s.depth == 0

variable {s : GapScan} {c mark : Char} {w : List Char}

theorem IsOutside.isTop (h : s.IsOutside 0) : s.isTop = true := by
  rw [GapScan.isTop, h.unquoted, h.depth_eq]
  rfl

theorem run_append (us vs : List Char) : run (us ++ vs) = vs.foldl next (run us) :=
  List.foldl_append

/-- A letter outside quotes changes nothing that matters. -/
theorem next_letter (h : s.quote = none) (hc : c.isAlpha = true) :
    (s.next c).gap = s.gap ∧ (s.next c).quote = none := by
  have houtside : s.outside c = s := by
    have hne : ∀ e : Char, e.isAlpha = false → c ≠ e := fun e he =>
      ne_of_apply_ne Char.isAlpha (by simp [hc, he])
    have hblank := not_isBlank_of_isNameChar (isNameChar_of_isAlpha hc)
    simp [outside, hne, hblank]
  rw [next_of_outside h, houtside]
  exact ⟨rfl, h⟩

theorem foldl_letters (h : s.quote = none) (hw : ∀ c ∈ w, c.isAlpha = true) :
    (w.foldl next s).gap = s.gap ∧ (w.foldl next s).quote = none := by
  induction w generalizing s with
  | nil => exact ⟨rfl, h⟩
  | cons c w ih =>
      obtain ⟨hc, hw⟩ := List.forall_mem_cons.mp hw
      obtain ⟨hgap, hquote⟩ := next_letter h hc
      rw [List.foldl_cons, ← hgap]
      exact ih hquote hw

/-- Quotes stay open until their mark is read. -/
theorem foldl_quoted (h : s.quote = some mark) (hw : mark ∉ w) :
    (w.foldl next s).quote = some mark := by
  induction w generalizing s with
  | nil => exact h
  | cons c w ih =>
      have hc := (List.ne_of_not_mem_cons hw).symm
      refine ih ?_ (List.not_mem_of_not_mem_cons hw)
      rw [next_of_inside h, inside, if_neg hc]
      simp [apply_ite quote, h]

/-- Only a quotation mark opens quotes. -/
theorem next_quote (h : (s.next c).quote = some mark) :
    s.quote = some mark ∨ mark = '"' ∨ mark = '\'' := by
  cases hquote : s.quote with
  | some m =>
      rw [next_of_inside hquote, inside] at h
      have hkept : s.quote = some mark := by
        split at h
        · exact h
        split at h
        · exact h
        split at h
        · cases h
        · exact h
      exact Or.inl (hquote.symm.trans hkept)
  | none =>
      rw [next_of_outside hquote, outside] at h
      by_cases hc : c = '"' ∨ c = '\''
      · rw [if_pos hc] at h
        cases h
        exact Or.inr hc
      · rw [if_neg hc] at h
        simp [apply_ite quote, hquote] at h

theorem mark_of_run {cs : List Char} (h : (run cs).quote = some mark) :
    mark = '"' ∨ mark = '\'' := by
  induction cs using List.reverseRecOn with
  | nil => cases h
  | append_singleton cs c ih =>
      rw [run_append] at h
      exact (next_quote h).elim ih id

/-- A blank and letters behind a text that ends outside quotes. -/
theorem run_word {cs word : List Char} (h : (run cs).quote = none)
    (hword : ∀ c ∈ word, c.isAlpha = true) :
    (run (cs ++ ' ' :: word)).gap = ((run cs).outside ' ').gap ∧
      (run (cs ++ ' ' :: word)).quote = none := by
  have hblank : ((run cs).next ' ').gap = ((run cs).outside ' ').gap ∧
      ((run cs).next ' ').quote = none := by
    rw [next_of_outside h]
    refine ⟨rfl, ?_⟩
    simp [outside, apply_ite quote, h]
  rw [run_append, List.foldl_cons, ← hblank.1]
  exact foldl_letters hblank.2 hword

theorem outside_blank (s : GapScan) : s.outside ' ' =
    if s.depth = 0 ∧ isBlank s.previous = false then { s with gap := some s.position } else s := by
  have hblank : isBlank ' ' = true := by decide
  simp [outside, hblank]

end GapScan

end LambdaShell.Command
