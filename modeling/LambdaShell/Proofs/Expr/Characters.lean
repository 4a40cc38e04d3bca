/-
The characters of tokens.

A token shows in its characters: a word or a number is a run of name characters with a few
marks among them, a symbol is written in one way only, and a string stands between two
quotation marks of a kind, neither of which is missed or found too early by a reader that
skips the character behind each backslash.

An arrow in the text is therefore the arrow of the lambda or stands in a string.  A symbol
holds none, and two tokens that meet in a phrase make none between them; in a string the
two characters stand for themselves, so the text that the string stands for has it too.
-/
import Mathlib.Data.List.Chain
import LambdaShell.Expr.Eval
import LambdaShell.Proofs.Expr.Balance
import LambdaShell.Proofs.Text.Trimming

namespace LambdaShell

open Lexer

/-! ### Words and numbers -/

theorem isNumberChar_of_isNameChar {c : Char} (h : isNameChar c = true) : isNumberChar c = true := by
  rw [isNumberChar, h]
  rfl

theorem toNat_lt_of_isNameChar {c : Char} (h : isNameChar c = true) : c.toNat < 0x80 := by
  rcases isNameChar_iff.mp h with h | h | h | rfl
  · omega
  · omega
  · omega
  · decide

/-- Characters that a number can be written with, the last of them a letter, a digit or an
underscore. -/
structure IsRun (us : List Char) : Prop where
  chars : ∀ c ∈ us, isNumberChar c = true
  last : ∀ c ∈ us.getLast?, isNameChar c = true

namespace IsRun

variable {us vs cs : List Char}

theorem of_names (h : ∀ c ∈ us, isNameChar c = true) : IsRun us where
  chars c hc := isNumberChar_of_isNameChar (h c hc)
  last c hc := h c (List.mem_of_getLast? hc)

theorem nil : IsRun [] := of_names (List.forall_mem_nil _)

theorem append (hus : IsRun us) (hvs : IsRun vs) : IsRun (us ++ vs) where
  chars := List.forall_mem_append.mpr ⟨hus.chars, hvs.chars⟩
  last := by
    intro c hc
    rw [List.getLast?_append, Option.mem_def, Option.or_eq_some_iff] at hc
    rcases hc with hc | ⟨-, hc⟩
    · exact hvs.last c hc
    · exact hus.last c hc

theorem behind (hus : ∀ c ∈ us, isNumberChar c = true) (hvs : IsRun vs) (hne : vs ≠ []) :
    IsRun (us ++ vs) where
  chars := List.forall_mem_append.mpr ⟨hus, hvs.chars⟩
  last := by
    rw [List.getLast?_append_of_ne_nil _ hne]
    exact hvs.last

theorem digits (cs : List Char) : IsRun (Number.leadingDigits cs) :=
  of_names fun _ hc => isNameChar_of_isDigit (List.all_eq_true.mp List.all_takeWhile _ hc)

theorem fraction (h : leadingFraction cs ≠ []) : IsRun ('.' :: leadingFraction cs) := by
  have hdigits : IsRun (leadingFraction cs) := by
    unfold leadingFraction
    split
    · exact digits _
    · exact nil
  have hpoint : ∀ c ∈ ['.'], isNumberChar c = true := by
    intro c hc
    cases List.mem_singleton.mp hc
    rfl
  exact behind hpoint hdigits h

theorem exponent {p : Number.ExponentPart} (h : Number.leadingExponent? cs = some p) :
    IsRun p.chars := by
  have hchars := (NumberFront.exponent h).2
  cases cs with
  | nil => cases h
  | cons mark cs =>
      obtain ⟨⟨-, hdigits⟩, hp⟩ := Option.ite_none_right_eq_some.mp h
      cases hp
      exact behind (List.forall_mem_append.mp hchars).1 (digits _) hdigits

theorem suffix {p : Char → Bool} (h : cs.head?.any p = true)
    (hp : ∀ c, p c = true → isDecimalSuffix c = true ∨ isWholeSuffix c = true) :
    IsRun (cs.take 1) := by
  cases cs with
  | nil => cases h
  | cons c cs =>
      refine of_names fun d hd => ?_
      cases List.mem_singleton.mp hd
      have hletter := hp c h
      simp only [isDecimalSuffix, isWholeSuffix, List.contains_eq_mem, List.mem_cons,
        List.not_mem_nil, or_false, decide_eq_true_eq, Bool.or_eq_true, beq_iff_eq] at hletter
      rcases hletter with (rfl | rfl | rfl | rfl | rfl | rfl) | rfl | rfl <;> decide

theorem word (cs : List Char) : IsRun (scanWord cs).taken :=
  of_names fun _ hc => List.all_eq_true.mp List.all_takeWhile _ hc

theorem number (cs : List Char) : IsRun (scanNumber cs).taken := by
  unfold scanNumber
  extract_lets whole fraction mantissa exponent number next value
  have hmantissa : IsRun mantissa := by
    by_cases hfraction : fraction = []
    · rw [show mantissa = whole from if_pos hfraction]
      exact .digits cs
    · rw [show mantissa = whole ++ '.' :: fraction from if_neg hfraction]
      exact (IsRun.digits cs).append (.fraction hfraction)
  have hnumber : IsRun number := by
    cases hexponent : exponent with
    | none =>
        rw [show number = mantissa by simp only [number, hexponent]]
        exact hmantissa
    | some p =>
        rw [show number = mantissa ++ p.chars by simp only [number, hexponent]]
        exact hmantissa.append (.exponent hexponent)
  by_cases hdecimal : next.head?.any isDecimalSuffix = true
  · rw [if_pos hdecimal]
    exact hnumber.append (.suffix hdecimal fun _ => Or.inl)
  rw [if_neg hdecimal]
  by_cases hreal : fraction ≠ [] ∨ exponent.isSome = true
  · rw [if_pos hreal]
    exact hnumber
  rw [if_neg hreal]
  have htaken : IsRun (if next.head?.any isWholeSuffix = true then number ++ next.take 1
      else number) := by
    by_cases hwhole : next.head?.any isWholeSuffix = true
    · rw [if_pos hwhole]
      exact hnumber.append (.suffix hwhole fun _ => Or.inr)
    · rw [if_neg hwhole]
      exact hnumber
  split <;> exact htaken

end IsRun

/-! ### Strings -/

/-- What stands between two such quotation marks: none of them is inside, unless right
behind a backslash, and no backslash is the last. -/
inductive Enclosed (quote : Char) : List Char → Prop where
  | nil : Enclosed quote []
  | escape (c : Char) {cs : List Char} (h : Enclosed quote cs) : Enclosed quote ('\\' :: c :: cs)
  | plain {c : Char} {cs : List Char} (hquote : c ≠ quote) (hslash : c ≠ '\\')
      (h : Enclosed quote cs) : Enclosed quote (c :: cs)

theorem enclosed_stringBody {quote : Char} {cs : List Char} (h : (stringBody quote cs).2 = true) :
    Enclosed quote (stringBody quote cs).1 := by
  fun_induction stringBody quote cs with
  | case1 => cases h
  | case2 => cases h
  | case3 c cs _ ih => exact .escape c (ih h)
  | case4 => exact .nil
  | case5 => cases h
  | case6 c cs _ hquote hslash ih => exact .plain hquote hslash (ih h)

/-! ### Spellings -/

/-- The characters from which a token is read. -/
inductive Spelled : List Char → Token → Prop where
  | run {taken : List Char} {t : Token} (hrun : IsRun taken) (hne : taken ≠ [])
      (ht : ∀ s, t ≠ .symbol s) : Spelled taken t
  | symbol (s : Symbol) : Spelled s.text.toList (.symbol s)
  | str {quote : Char} {body : List Char} {s : String} (hquote : quote = '"' ∨ quote = '\'')
      (hbody : Enclosed quote body) (hs : unescape body = some s.toList) :
      Spelled (quote :: (body ++ [quote])) (.str s)

theorem spelled_scanString {quote : Char} {cs taken : List Char} {t : Token}
    (hquote : quote = '"' ∨ quote = '\'') (h : scanString quote cs = ⟨.ok t, taken⟩) :
    Spelled taken t := by
  unfold scanString at h
  extract_lets body text flaw at h
  by_cases hclosed : (stringBody quote cs).2 = true
  · rw [if_pos hclosed] at h
    split at h
    · rename_i s hs
      obtain ⟨hresult, htaken⟩ := Scan.mk.inj h
      cases hresult
      rw [← htaken, show text = quote :: body ++ [quote] from if_pos hclosed]
      exact .str hquote (enclosed_stringBody hclosed) (by rw [hs, String.toList_ofList])
    · cases (Scan.mk.inj h).1
  · rw [if_neg hclosed] at h
    cases (Scan.mk.inj h).1

theorem spelled_scan {c : Char} {cs taken : List Char} {t : Token}
    (h : scan c cs = ⟨.ok t, taken⟩) : Spelled taken t := by
  have hstretch : Stretch (scan c cs).taken (c :: cs) := stretch_of_scan (by rw [h])
  rw [h] at hstretch
  unfold scan at h
  split at h
  · obtain ⟨hresult, rfl⟩ := Scan.mk.inj h
    refine .run (.word (c :: cs)) hstretch.ne_nil fun s hs => ?_
    rw [hs] at hresult
    exact wordToken_ne_symbol (Except.ok.inj hresult)
  split at h
  · have hrun := IsRun.number (c :: cs)
    rw [h] at hrun
    refine .run hrun hstretch.ne_nil fun s hs => ?_
    rw [hs] at h
    exact scanNumber_ne_symbol h
  split at h
  · rename_i hquote
    exact spelled_scanString hquote h
  · unfold scanSymbol at h
    split at h
    · cases h
      exact .symbol _
    · cases (Scan.mk.inj h).1

namespace Spelled

variable {taken : List Char} {t : Token}

theorem ne_nil (h : Spelled taken t) : taken ≠ [] := by
  cases h with
  | run _ hne _ => exact hne
  | symbol s => cases s <;> decide
  | str _ _ _ => exact List.cons_ne_nil _ _

/-- No word, number or string begins with `>`. -/
theorem startsWith (h : Spelled taken t) (hhead : taken.head? = some '>') : t.StartsWith '>' := by
  cases h with
  | run hrun _ _ => exact absurd (hrun.chars '>' (List.mem_of_head? hhead)) (by decide)
  | symbol s => exact ⟨s, rfl, hhead⟩
  | str hquote _ _ =>
      cases hhead
      rcases hquote with hquote | hquote <;> cases hquote

/-- No word, number or string ends in `=`. -/
theorem endsIn (h : Spelled taken t) (hlast : taken.getLast? = some '=') : t.EndsIn '=' := by
  cases h with
  | run hrun _ _ => exact absurd (hrun.chars '=' (List.mem_of_getLast? hlast)) (by decide)
  | symbol s => exact ⟨s, rfl, hlast⟩
  | @str quote body _ hquote _ _ =>
      rw [← List.cons_append, List.getLast?_concat] at hlast
      cases hlast
      rcases hquote with hquote | hquote <;> cases hquote

end Spelled

/-! ### Arrows in a text -/

/-- Nowhere in the text does `>` come right behind `=`. -/
def ArrowFree (cs : List Char) : Prop := cs.IsChain fun c d => ¬ (c = '=' ∧ d = '>')

theorem arrowFree_cons {c : Char} {cs : List Char} :
    ArrowFree (c :: cs) ↔ (∀ d ∈ cs.head?, ¬ (c = '=' ∧ d = '>')) ∧ ArrowFree cs :=
  List.isChain_cons

theorem arrowFree_append {us vs : List Char} : ArrowFree (us ++ vs) ↔
    ArrowFree us ∧ ArrowFree vs ∧ ∀ c ∈ us.getLast?, ∀ d ∈ vs.head?, ¬ (c = '=' ∧ d = '>') :=
  List.isChain_append

theorem ArrowFree.cons {c : Char} {cs : List Char} (hc : c ≠ '=') (h : ArrowFree cs) :
    ArrowFree (c :: cs) :=
  arrowFree_cons.mpr ⟨fun _ _ harrow => hc harrow.1, h⟩

theorem arrowFree_of_not_mem {cs : List Char} (h : '=' ∉ cs) : ArrowFree cs := by
  induction cs with
  | nil => exact .nil
  | cons c cs ih =>
      exact (ih (List.not_mem_of_not_mem_cons h)).cons (List.ne_of_not_mem_cons h).symm

theorem arrowFree_of_not_occursIn {cs : List Char} (h : Eval.occursIn ['=', '>'] cs = false) :
    ArrowFree cs := by
  induction cs with
  | nil => exact .nil
  | cons c cs ih =>
      rw [Eval.occursIn, Bool.or_eq_false_iff] at h
      refine arrowFree_cons.mpr ⟨?_, ih h.2⟩
      rintro d hd ⟨rfl, rfl⟩
      obtain ⟨rest, rfl⟩ := List.head?_eq_some_iff.mp hd
      cases h.1

/-! An escaped character is neither `=` nor `>`, and any other stands for itself. -/

theorem unescape_plain {c : Char} {cs vs : List Char} (hc : c ≠ '\\')
    (h : unescape (c :: cs) = some vs) : ∃ ws, unescape cs = some ws ∧ vs = c :: ws := by
  rw [unescape] at h
  · obtain ⟨ws, hws, rfl⟩ := Option.map_eq_some_iff.mp h
    exact ⟨ws, hws, rfl⟩
  · intro d ds heq
    exact absurd heq hc
  · intro heq
    exact absurd heq hc

theorem arrowFree_of_unescape {cs vs : List Char} (h : unescape cs = some vs)
    (hvs : ArrowFree vs) : ArrowFree cs := by
  induction cs using unescape.induct generalizing vs with
  | case1 => exact .nil
  | case2 c cs ih =>
      obtain ⟨d, hd, hmap⟩ := Option.bind_eq_some_iff.mp h
      obtain ⟨ws, hws, rfl⟩ := Option.map_eq_some_iff.mp hmap
      have hc : c ≠ '=' := by
        rintro rfl
        cases hd
      exact ((ih hws (arrowFree_cons.mp hvs).2).cons hc).cons (by decide)
  | case3 => cases h
  | case4 c cs hescape hslash ih =>
      have hc : c ≠ '\\' := by
        rintro rfl
        cases cs with
        | nil => exact hslash rfl rfl
        | cons d ds => exact hescape d ds rfl rfl
      obtain ⟨ws, hws, rfl⟩ := unescape_plain hc h
      obtain ⟨hmeet, hfree⟩ := arrowFree_cons.mp hvs
      refine arrowFree_cons.mpr ⟨?_, ih hws hfree⟩
      rintro d hd ⟨rfl, rfl⟩
      obtain ⟨rest, rfl⟩ := List.head?_eq_some_iff.mp hd
      obtain ⟨_, -, rfl⟩ := unescape_plain (by decide) hws
      exact hmeet '>' rfl ⟨rfl, rfl⟩

theorem Spelled.arrowFree {taken : List Char} {t : Token} (h : Spelled taken t)
    (harrow : t ≠ .symbol .arrow)
    (hstr : ∀ s, t = .str s → Eval.occursIn ['=', '>'] s.toList = false) : ArrowFree taken := by
  cases h with
  | run hrun _ _ => exact arrowFree_of_not_mem fun hmem => absurd (hrun.chars _ hmem) (by decide)
  | symbol s =>
      cases s with
      | arrow => exact absurd rfl harrow
      | _ => exact arrowFree_of_not_occursIn (by decide)
  | @str quote body s hquote _ hs =>
      have hbody : ArrowFree body :=
        arrowFree_of_unescape hs (arrowFree_of_not_occursIn (hstr s rfl))
      have hmark : quote ≠ '=' ∧ quote ≠ '>' := by
        rcases hquote with rfl | rfl <;> decide
      refine .cons hmark.1 (arrowFree_append.mpr ⟨hbody, .singleton quote, ?_⟩)
      rintro _ _ _ ⟨⟩ ⟨-, harrow⟩
      exact hmark.2 harrow

/-! ### Rows of tokens -/

namespace Lexed

variable {cs : List Char} {ts : List (List Char × Token)}

theorem first (h : Lexed cs ts) (hcs : cs.head? = some '>') :
    ∃ t ∈ (ts.map (·.2)).head?, t.StartsWith '>' := by
  cases h with
  | nil => cases hcs
  | gap hc _ =>
      cases hcs
      cases hc
  | @token _ _ _ t _ _ hscan _ => exact ⟨t, rfl, (spelled_scan hscan).startsWith hcs⟩

/-- **Arrows are tokens or stand in strings**: tokens that are spaced and are no arrows make
no arrow in the text, strings apart. -/
theorem arrowFree (h : Lexed cs ts) (hspaced : (ts.map (·.2)).IsChain Token.Spaced)
    (harrow : Token.symbol .arrow ∉ ts.map (·.2))
    (hstr : ∀ s, Token.str s ∈ ts.map (·.2) → Eval.occursIn ['=', '>'] s.toList = false) :
    ArrowFree cs := by
  induction h with
  | nil => exact .nil
  | @gap c _ _ hc _ ih =>
      refine (ih hspaced harrow hstr).cons ?_
      rintro rfl
      cases hc
  | @token c more rest t ts _ hscan hrest ih =>
      obtain ⟨hmeet, hspaced⟩ := List.isChain_cons.mp hspaced
      have hts := ih hspaced (List.not_mem_of_not_mem_cons harrow) fun s hs =>
        hstr s (List.mem_cons_of_mem t hs)
      have hspelled := spelled_scan hscan
      rw [← List.cons_append]
      refine arrowFree_append.mpr ⟨hspelled.arrowFree ?_ ?_, hts, ?_⟩
      · exact (List.ne_of_not_mem_cons harrow).symm
      · rintro s rfl
        exact hstr s List.mem_cons_self
      · -- only a gap keeps `=` and `>` apart, and here there is none: the symbols meet
        rintro c hc d hd ⟨rfl, rfl⟩
        obtain ⟨u, hu, hstarts⟩ := hrest.first hd
        exact hmeet u hu (hspelled.endsIn hc) hstarts

/-- A text divides where its tokens do. -/
theorem split (h : Lexed cs ts) {us vs : List Token} {t : Token}
    (hts : ts.map (·.2) = us ++ t :: vs) :
    ∃ front taken rest more, cs = front ++ (taken ++ rest) ∧ Spelled taken t ∧
      Lexed rest more ∧ more.map (·.2) = vs := by
  induction h generalizing us with
  | nil => exact absurd hts.symm (List.append_ne_nil_of_right_ne_nil us (List.cons_ne_nil t vs))
  | @gap c cs _ _ _ ih =>
      obtain ⟨front, taken, rest, more, rfl, hsplit⟩ := ih hts
      exact ⟨c :: front, taken, rest, more, rfl, hsplit⟩
  | @token c more rest u ts _ hscan hrest ih =>
      cases us with
      | nil =>
          obtain ⟨rfl, hvs⟩ := List.cons.inj hts
          exact ⟨[], c :: more, rest, ts, rfl, spelled_scan hscan, hrest, hvs⟩
      | cons v us =>
          obtain ⟨front, taken, rest', more', rfl, hsplit⟩ := ih (List.cons.inj hts).2
          refine ⟨c :: more ++ front, taken, rest', more', ?_, hsplit⟩
          rw [List.append_assoc, List.cons_append]

theorem isGap_of_nil (h : Lexed cs []) : ∀ c ∈ cs, isGap c = true := by
  generalize hts : ([] : List (List Char × Token)) = ts at h
  induction h with
  | nil => exact List.forall_mem_nil _
  | gap hc _ ih => exact List.forall_mem_cons.mpr ⟨hc, ih hts⟩
  | token _ _ _ _ => cases hts

/-- A text that does not end in white space ends in its last token. -/
theorem last (h : Lexed cs ts) {us : List Token} {t : Token} (hts : ts.map (·.2) = us ++ [t])
    (hend : Text.EndsSolid cs) : ∃ front taken, cs = front ++ taken ∧ Spelled taken t := by
  obtain ⟨front, taken, rest, more, rfl, ht, hrest, hmore⟩ := h.split hts
  rw [List.map_eq_nil_iff.mp hmore] at hrest
  have hnil : rest = [] := by
    refine List.getLast?_eq_none_iff.mp (Option.eq_none_iff_forall_ne_some.mpr fun c hc => ?_)
    have hsolid := hend.of_append.of_append c hc
    rw [isBlank_of_isGap (hrest.isGap_of_nil c (List.mem_of_getLast? hc))] at hsolid
    cases hsolid
  refine ⟨front, taken, ?_, ht⟩
  rw [hnil, List.append_nil]

end Lexed

end LambdaShell
