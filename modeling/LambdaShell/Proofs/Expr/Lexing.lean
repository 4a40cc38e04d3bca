/-
What a text is made of.

`Lexed` says of a text that it is a row of tokens with gaps between them, each token with
the characters it was read from.  Offsets and flaws have no part in it: a text is such a row
as soon as `tokenize` finds no flaw, and then the tokens it finds are those of the row.
Facts about texts are proved by going through the row, one gap or one token at a time.

A token takes a stretch of the text that begins where it begins.  That stretch has no white
space in it unless it is a string, and then it ends in a quotation mark; so white space in
front of a word always divides the word from what stands in front of it.
-/
import LambdaShell.Expr.Lexer

namespace LambdaShell

open Lexer

/-! ### Rows of tokens -/

/-- The text is a row of tokens, each given with the characters it was read from. -/
inductive Lexed : List Char → List (List Char × Token) → Prop where
  | nil : Lexed [] []
  | gap {c : Char} {cs : List Char} {ts : List (List Char × Token)} (hc : isGap c = true)
      (h : Lexed cs ts) : Lexed (c :: cs) ts
  | token {c : Char} {more rest : List Char} {t : Token} {ts : List (List Char × Token)}
      (hc : isGap c = false) (hscan : scan c (more ++ rest) = ⟨.ok t, c :: more⟩)
      (h : Lexed rest ts) : Lexed (c :: (more ++ rest)) ((c :: more, t) :: ts)

theorem pieces_gap {start : Nat} {c : Char} {cs : List Char} (hc : isGap c = true) :
    pieces start (c :: cs) = pieces (start + c.utf8Size) cs := by
  rw [pieces, if_pos hc]

theorem pieces_token {start : Nat} {c : Char} {cs : List Char} (hc : isGap c = false) :
    pieces start (c :: cs) =
      ⟨(scan c cs).result, ⟨start, start + Text.byteLength (scan c cs).taken⟩⟩ ::
        pieces (start + Text.byteLength (scan c cs).taken)
          (cs.drop ((scan c cs).taken.length - 1)) := by
  rw [pieces, if_neg (by rw [hc]; exact Bool.false_ne_true)]

/-- A row of tokens has no flaws, and its tokens are found in it. -/
theorem Lexed.pieces_eq {cs : List Char} {ts : List (List Char × Token)} (h : Lexed cs ts) :
    ∀ start, (pieces start cs).filterMap (·.issue?) = [] ∧
      ((pieces start cs).filterMap (·.lexeme?)).map (·.token) = ts.map (·.2) := by
  induction h with
  | nil =>
      intro start
      rw [pieces]
      exact ⟨rfl, rfl⟩
  | gap hc _ ih =>
      intro start
      rw [pieces_gap hc]
      exact ih _
  | @token c more rest t ts hc hscan _ ih =>
      intro start
      have hdrop : (more ++ rest).drop ((c :: more).length - 1) = rest := List.drop_left
      rw [pieces_token hc, hscan, hdrop]
      exact ⟨(ih _).1, congrArg (t :: ·) (ih _).2⟩

theorem Lexed.tokenize_eq {cs : List Char} {ts : List (List Char × Token)} (h : Lexed cs ts) :
    ∃ ls, tokenize cs = .ok ls ∧ ls.map (·.token) = ts.map (·.2) := by
  obtain ⟨hissues, htokens⟩ := h.pieces_eq 0
  refine ⟨_, ?_, htokens⟩
  unfold tokenize
  dsimp only
  rw [hissues]

/-! ### Characters -/

theorem isNameChar_iff {c : Char} : isNameChar c = true ↔
    (65 ≤ c.toNat ∧ c.toNat ≤ 90) ∨ (97 ≤ c.toNat ∧ c.toNat ≤ 122) ∨
      (48 ≤ c.toNat ∧ c.toNat ≤ 57) ∨ c = '_' := by
  have hchar : isNameChar c = (decide (c.val ≥ 65 ∧ c.val ≤ 90) || c.val ≥ 97 && c.val ≤ 122
      || c.val ≥ 48 && c.val ≤ 57 || c == '_') := rfl
  simp only [hchar, Bool.or_eq_true, Bool.and_eq_true, decide_eq_true_eq, ge_iff_le,
    UInt32.le_iff_toNat_le, beq_iff_eq, or_assoc]
  exact Iff.rfl

theorem isBlank_iff {c : Char} : Text.isBlank c = true ↔ (9 ≤ c.toNat ∧ c.toNat ≤ 13) ∨
    c.toNat = 32 ∨ 133 ≤ c.toNat ∧ Text.isBlank c = true := by
  simp [Text.isBlank, Text.inRanges, Text.blankRanges]
  omega

theorem not_isBlank_of_isNameChar {c : Char} (h : isNameChar c = true) :
    Text.isBlank c = false := by
  rw [Bool.eq_false_iff, Ne, isBlank_iff]
  rcases isNameChar_iff.mp h with h | h | h | rfl
  · omega
  · omega
  · omega
  · decide

theorem isNameChar_of_isDigit {c : Char} (h : c.isDigit = true) : isNameChar c = true := by
  simp [isNameChar, Char.isAlphanum, h]

theorem isNameChar_of_isNameStart {c : Char} (h : isNameStart c = true) :
    isNameChar c = true := by
  rw [isNameStart, Bool.or_eq_true] at h
  simp only [isNameChar, Char.isAlphanum, Bool.or_eq_true]
  exact h.imp_left Or.inl

theorem isBlank_of_isGap {c : Char} (h : isGap c = true) : Text.isBlank c = true := by
  simp only [isGap, Bool.or_eq_true, beq_iff_eq] at h
  rcases h with (((rfl | rfl) | rfl) | rfl) | rfl <;> decide

/-! ### The stretch that a token takes -/

/-- The characters from which a token is read: they come first, there are some, and there is
no white space among them unless they stand between quotation marks. -/
structure Stretch (taken cs : List Char) : Prop where
  front : taken <+: cs
  ne_nil : taken ≠ []
  solid : (∀ d ∈ taken, Text.isBlank d = false) ∨
    ∃ quote body, taken = quote :: (body ++ [quote]) ∧ (quote = '"' ∨ quote = '\'')

theorem Stretch.split {c : Char} {taken cs : List Char} (h : Stretch taken (c :: cs)) :
    ∃ more rest, taken = c :: more ∧ cs = more ++ rest := by
  obtain ⟨rest, hrest⟩ := h.front
  cases taken with
  | nil => exact absurd rfl h.ne_nil
  | cons d more =>
      obtain ⟨rfl, hcs⟩ := List.cons.inj hrest
      exact ⟨more, rest, rfl, hcs.symm⟩

theorem append_front {us vs cs : List Char} (hus : us <+: cs)
    (hvs : vs <+: cs.drop us.length) : us ++ vs <+: cs := by
  obtain ⟨rest, rfl⟩ := hus
  rw [List.drop_left] at hvs
  exact (List.prefix_append_right_inj us).mpr hvs

theorem Stretch.word {c : Char} {cs : List Char} (hc : isNameChar c = true) :
    Stretch (scanWord (c :: cs)).taken (c :: cs) where
  front := List.takeWhile_prefix _
  ne_nil := by
    show (c :: cs).takeWhile isNameChar ≠ []
    rw [List.takeWhile_cons_of_pos hc]
    exact List.cons_ne_nil _ _
  solid := Or.inl fun d hd =>
    not_isBlank_of_isNameChar (List.all_eq_true.mp List.all_takeWhile d hd)

theorem Stretch.symbol {c : Char} {cs : List Char} {t : Token}
    (h : (scanSymbol c cs).result = .ok t) : Stretch (scanSymbol c cs).taken (c :: cs) := by
  unfold scanSymbol at h ⊢
  split at h
  · rename_i s hs
    have hfront := List.find?_some hs
    have hblank : s.text.toList.any Text.isBlank = false := by
      cases s <;> decide
    refine ⟨List.isPrefixOf_iff_prefix.mp hfront, ?_, Or.inl ?_⟩
    · cases s <;> decide
    · exact fun d hd => Bool.eq_false_iff.mpr (List.any_eq_false.mp hblank d hd)
  · cases h

theorem stringBody_eq {quote : Char} {cs : List Char} (h : (stringBody quote cs).2 = true) :
    ∃ rest, cs = (stringBody quote cs).1 ++ quote :: rest := by
  fun_induction stringBody quote cs with
  | case1 => cases h
  | case2 => cases h
  | case3 c cs hc ih =>
      obtain ⟨rest, hrest⟩ := ih h
      exact ⟨rest, by rw [List.cons_append, List.cons_append, ← hrest]⟩
  | case4 => exact ⟨_, rfl⟩
  | case5 => cases h
  | case6 c cs _ _ _ ih =>
      obtain ⟨rest, hrest⟩ := ih h
      exact ⟨rest, by rw [List.cons_append, ← hrest]⟩

theorem Stretch.string {quote : Char} {cs : List Char} {t : Token}
    (hquote : quote = '"' ∨ quote = '\'') (h : (scanString quote cs).result = .ok t) :
    Stretch (scanString quote cs).taken (quote :: cs) := by
  have hclosed : (stringBody quote cs).2 = true := by
    refine Bool.of_not_eq_false fun hopen => ?_
    simp only [scanString, hopen] at h
    cases h
  have htaken : (scanString quote cs).taken = quote :: (stringBody quote cs).1 ++ [quote] := by
    unfold scanString
    simp only [hclosed, if_true]
    split <;> rfl
  obtain ⟨rest, hrest⟩ := stringBody_eq hclosed
  rw [htaken]
  refine ⟨⟨rest, ?_⟩, List.cons_ne_nil _ _, Or.inr ⟨quote, _, rfl, hquote⟩⟩
  rw [List.append_assoc, List.cons_append, List.singleton_append, ← hrest]

/-! A number is digits, a fraction, an exponent and a letter, each behind the others. -/

/-- A character that a number is written with. -/
def isNumberChar (c : Char) : Bool := isNameChar c || c == '.' || c == '+' || c == '-'

theorem not_isBlank_of_isNumberChar {c : Char} (h : isNumberChar c = true) :
    Text.isBlank c = false := by
  simp only [isNumberChar, Bool.or_eq_true, beq_iff_eq] at h
  rcases h with ((h | rfl) | rfl) | rfl
  · exact not_isBlank_of_isNameChar h
  · decide
  · decide
  · decide

/-- A part of a number, in front of the rest of the text. -/
def NumberFront (us cs : List Char) : Prop := us <+: cs ∧ ∀ c ∈ us, isNumberChar c = true

theorem NumberFront.nil {cs : List Char} : NumberFront [] cs :=
  ⟨⟨cs, rfl⟩, List.forall_mem_nil _⟩

theorem NumberFront.append {us vs cs : List Char} (hus : NumberFront us cs)
    (hvs : NumberFront vs (cs.drop us.length)) : NumberFront (us ++ vs) cs :=
  ⟨append_front hus.1 hvs.1, List.forall_mem_append.mpr ⟨hus.2, hvs.2⟩⟩

theorem NumberFront.cons {c : Char} {us cs : List Char} (hc : isNumberChar c = true)
    (h : NumberFront us cs) : NumberFront (c :: us) (c :: cs) :=
  ⟨List.cons_prefix_cons.mpr ⟨rfl, h.1⟩, List.forall_mem_cons.mpr ⟨hc, h.2⟩⟩

theorem NumberFront.digits (cs : List Char) : NumberFront (Number.leadingDigits cs) cs := by
  refine ⟨List.takeWhile_prefix _, fun c hc => ?_⟩
  have hdigit := List.all_eq_true.mp List.all_takeWhile c hc
  simp [isNumberChar, isNameChar_of_isDigit hdigit]

theorem NumberFront.fraction {cs : List Char} (h : leadingFraction cs ≠ []) :
    NumberFront ('.' :: leadingFraction cs) cs := by
  unfold leadingFraction at h ⊢
  split at h
  · exact .cons (by decide) (.digits _)
  · exact absurd rfl h

theorem NumberFront.one {cs : List Char} {p : Char → Bool}
    (hp : ∀ c, p c = true → isNumberChar c = true) : NumberFront ((cs.take 1).filter p) cs := by
  cases cs with
  | nil => exact .nil
  | cons d ds =>
      rw [List.take_succ_cons, List.take_zero]
      by_cases hd : p d = true
      · rw [List.filter_cons_of_pos hd]
        exact .cons (hp d hd) .nil
      · rw [List.filter_cons_of_neg hd]
        exact .nil

theorem NumberFront.exponent {cs : List Char} {p : Number.ExponentPart}
    (h : Number.leadingExponent? cs = some p) : NumberFront p.chars cs := by
  cases cs with
  | nil => cases h
  | cons mark cs =>
      obtain ⟨⟨hmark, -⟩, hp⟩ := Option.ite_none_right_eq_some.mp h
      cases hp
      have hsign : ∀ c : Char, (c == '+' || c == '-') = true → isNumberChar c = true := by
        intro c hc
        rw [isNumberChar, Bool.or_assoc, hc, Bool.or_true]
      have hnumber : isNumberChar mark = true := by
        rcases hmark with rfl | rfl <;> decide
      exact .cons hnumber ((NumberFront.one hsign).append (.digits _))

theorem NumberFront.suffix {cs : List Char} {p : Char → Bool} (h : cs.head?.any p = true)
    (hp : ∀ c, p c = true → isNumberChar c = true) : NumberFront (cs.take 1) cs := by
  cases cs with
  | nil => exact .nil
  | cons c cs => exact .cons (hp c h) .nil

theorem isNumberChar_of_suffix {c : Char}
    (h : isDecimalSuffix c = true ∨ isWholeSuffix c = true) : isNumberChar c = true := by
  simp only [isDecimalSuffix, isWholeSuffix, List.contains_eq_mem, List.mem_cons,
    List.not_mem_nil, or_false, decide_eq_true_eq, Bool.or_eq_true, beq_iff_eq] at h
  rcases h with (rfl | rfl | rfl | rfl | rfl | rfl) | rfl | rfl <;> decide

theorem NumberFront.stretch {c : Char} {us cs : List Char} (h : NumberFront us (c :: cs))
    (hne : us ≠ []) : Stretch us (c :: cs) :=
  ⟨h.1, hne, Or.inl fun d hd => not_isBlank_of_isNumberChar (h.2 d hd)⟩

theorem Stretch.number {c : Char} {cs : List Char} (hc : c.isDigit = true) :
    Stretch (scanNumber (c :: cs)).taken (c :: cs) := by
  unfold scanNumber
  extract_lets whole fraction mantissa exponent number next value
  have hwhole : whole ≠ [] := by
    show (c :: cs).takeWhile Char.isDigit ≠ []
    rw [List.takeWhile_cons_of_pos hc]
    exact List.cons_ne_nil _ _
  have hmantissa : NumberFront mantissa (c :: cs) ∧ mantissa ≠ [] := by
    by_cases hfraction : fraction = []
    · rw [show mantissa = whole from if_pos hfraction]
      exact ⟨.digits _, hwhole⟩
    · rw [show mantissa = whole ++ '.' :: fraction from if_neg hfraction]
      refine ⟨(NumberFront.digits _).append (.fraction hfraction), ?_⟩
      exact List.append_ne_nil_of_left_ne_nil hwhole _
  have hnumber : NumberFront number (c :: cs) ∧ number ≠ [] := by
    cases hexponent : exponent with
    | none =>
        rw [show number = mantissa by simp only [number, hexponent]]
        exact hmantissa
    | some p =>
        rw [show number = mantissa ++ p.chars by simp only [number, hexponent]]
        refine ⟨hmantissa.1.append (.exponent hexponent), ?_⟩
        exact List.append_ne_nil_of_left_ne_nil hmantissa.2 _
  have hsuffixed : ∀ p : Char → Bool, next.head?.any p = true →
      (∀ d, p d = true → isDecimalSuffix d = true ∨ isWholeSuffix d = true) →
        Stretch (number ++ next.take 1) (c :: cs) := by
    intro p hp hsuffix
    have hletter := NumberFront.suffix hp fun d hd => isNumberChar_of_suffix (hsuffix d hd)
    exact (hnumber.1.append hletter).stretch (List.append_ne_nil_of_left_ne_nil hnumber.2 _)
  have hplain := hnumber.1.stretch hnumber.2
  by_cases hdecimal : next.head?.any isDecimalSuffix = true
  · rw [if_pos hdecimal]
    exact hsuffixed _ hdecimal fun _ => Or.inl
  rw [if_neg hdecimal]
  by_cases hreal : fraction ≠ [] ∨ exponent.isSome = true
  · rw [if_pos hreal]
    exact hplain
  rw [if_neg hreal]
  have htaken : Stretch (if next.head?.any isWholeSuffix = true then number ++ next.take 1
      else number) (c :: cs) := by
    by_cases hwholeSuffix : next.head?.any isWholeSuffix = true
    · rw [if_pos hwholeSuffix]
      exact hsuffixed _ hwholeSuffix fun _ => Or.inr
    · rw [if_neg hwholeSuffix]
      exact hplain
  split <;> exact htaken

/-- Whatever starts a token, the token is read from a stretch of the text. -/
theorem stretch_of_scan {c : Char} {cs : List Char} {t : Token}
    (h : (scan c cs).result = .ok t) : Stretch (scan c cs).taken (c :: cs) := by
  unfold scan at h ⊢
  by_cases hname : isNameStart c = true
  · rw [if_pos hname]
    exact .word (isNameChar_of_isNameStart hname)
  rw [if_neg hname] at h ⊢
  by_cases hdigit : c.isDigit = true
  · rw [if_pos hdigit]
    exact .number hdigit
  rw [if_neg hdigit] at h ⊢
  by_cases hquote : c = '"' ∨ c = '\''
  · rw [if_pos hquote] at h ⊢
    exact .string hquote h
  · rw [if_neg hquote] at h ⊢
    exact .symbol h

/-- A text that splits into tokens is a row of them. -/
theorem lexed_of_pieces {start : Nat} {cs : List Char} :
    (pieces start cs).filterMap (·.issue?) = [] →
      ∃ ts, Lexed cs ts ∧ ((pieces start cs).filterMap (·.lexeme?)).map (·.token) = ts.map (·.2) := by
  fun_induction pieces start cs with
  | case1 => exact fun _ => ⟨[], .nil, rfl⟩
  | case2 start c cs hc ih =>
      intro h
      obtain ⟨ts, hts, htokens⟩ := ih h
      exact ⟨ts, .gap hc hts, htokens⟩
  | case3 start c cs hc s stop ih =>
      intro h
      cases hresult : s.result with
      | error cause =>
          rw [List.filterMap_cons] at h
          simp only [Piece.issue?, hresult] at h
          cases h
      | ok t =>
          have hstretch := stretch_of_scan hresult
          obtain ⟨more, rest, htaken, rfl⟩ := hstretch.split
          have hdrop : (more ++ rest).drop (s.taken.length - 1) = rest := by
            show (more ++ rest).drop ((scan c (more ++ rest)).taken.length - 1) = rest
            rw [htaken]
            exact List.drop_left
          rw [List.filterMap_cons] at h
          simp only [Piece.issue?, hresult, hdrop] at h
          rw [hdrop] at ih
          obtain ⟨ts, hts, htokens⟩ := ih h
          have hscan : scan c (more ++ rest) = ⟨.ok t, c :: more⟩ := by
            rw [← hresult, ← htaken]
          refine ⟨_, .token (Bool.eq_false_iff.mpr hc) hscan hts, ?_⟩
          rw [List.filterMap_cons]
          simp only [Piece.lexeme?, hdrop]
          exact congrArg (t :: ·) htokens

/-- The tokens of a text are those of its row. -/
theorem lexed_of_tokenize {cs : List Char} {ls : List Lexeme} (h : tokenize cs = .ok ls) :
    ∃ ts, Lexed cs ts ∧ ls.map (·.token) = ts.map (·.2) := by
  unfold tokenize at h
  dsimp only at h
  split at h
  · rename_i hissues
    cases h
    exact lexed_of_pieces hissues
  · cases h

/-! ### The tokens of a row -/

/-- Every token of a row was read where its characters begin. -/
theorem Lexed.scan_of_mem {cs : List Char} {ts : List (List Char × Token)} (h : Lexed cs ts)
    {taken : List Char} {t : Token} (hmem : (taken, t) ∈ ts) :
    ∃ c more rest, scan c rest = ⟨.ok t, c :: more⟩ ∧ taken = c :: more := by
  induction h with
  | nil => cases hmem
  | gap _ _ ih => exact ih hmem
  | token _ hscan _ ih =>
      rcases List.mem_cons.mp hmem with heq | hmem
      · cases heq
        exact ⟨_, _, _, hscan, rfl⟩
      · exact ih hmem

theorem wordToken_ne_symbol {w : String} {s : Symbol} : wordToken w ≠ .symbol s := by
  unfold wordToken
  split
  · exact nofun
  · exact nofun

theorem decimalScan_ne_symbol {x : Number.Scientific} {cs taken : List Char} {s : Symbol} :
    decimalScan x cs ≠ ⟨.ok (.symbol s), taken⟩ := by
  intro h
  have hresult := (Scan.mk.inj h).1
  split at hresult
  · cases hresult
  · cases hresult

theorem scanNumber_ne_symbol {cs taken : List Char} {s : Symbol} :
    scanNumber cs ≠ ⟨.ok (.symbol s), taken⟩ := by
  intro h
  unfold scanNumber at h
  extract_lets whole fraction mantissa exponent number next value at h
  split at h
  · exact decimalScan_ne_symbol h
  split at h
  · exact decimalScan_ne_symbol h
  split at h
  · cases (Scan.mk.inj h).1
  · cases (Scan.mk.inj h).1

theorem scanString_ne_symbol {c : Char} {cs taken : List Char} {s : Symbol} :
    scanString c cs ≠ ⟨.ok (.symbol s), taken⟩ := by
  intro h
  unfold scanString at h
  extract_lets body text flaw at h
  split at h
  · split at h
    · cases (Scan.mk.inj h).1
    · cases (Scan.mk.inj h).1
  · cases (Scan.mk.inj h).1

/-- A symbol is read from the characters it is written with. -/
theorem taken_symbol {c : Char} {cs taken : List Char} {s : Symbol}
    (h : scan c cs = ⟨.ok (.symbol s), taken⟩) : taken = s.text.toList := by
  unfold scan at h
  split at h
  · exact absurd (Except.ok.inj (Scan.mk.inj h).1) wordToken_ne_symbol
  split at h
  · exact absurd h scanNumber_ne_symbol
  split at h
  · exact absurd h scanString_ne_symbol
  unfold scanSymbol at h
  split at h
  · cases h
    rfl
  · cases (Scan.mk.inj h).1

/-! ### Lexemes with given tokens -/

theorem lexemes_cons {ts : List Lexeme} {t : Token} {us : List Token}
    (h : ts.map (·.token) = t :: us) :
    ∃ q vs, ts = ⟨t, q⟩ :: vs ∧ vs.map (·.token) = us := by
  obtain ⟨⟨t, q⟩, vs, rfl, rfl, hvs⟩ := List.map_eq_cons_iff.mp h
  exact ⟨q, vs, rfl, hvs⟩

theorem lexemes_one {ts : List Lexeme} {t : Token} (h : ts.map (·.token) = [t]) :
    ∃ q, ts = [⟨t, q⟩] := by
  obtain ⟨q, vs, rfl, hvs⟩ := lexemes_cons h
  exact ⟨q, by rw [List.map_eq_nil_iff.mp hvs]⟩

theorem lexemes_last {ts : List Lexeme} {us : List Token} {t : Token}
    (h : ts.map (·.token) = us ++ [t]) :
    ∃ vs q, ts = vs ++ [⟨t, q⟩] ∧ vs.map (·.token) = us := by
  obtain ⟨vs, ws, rfl, hvs, hws⟩ := List.map_eq_append_iff.mp h
  obtain ⟨q, rfl⟩ := lexemes_one hws
  exact ⟨vs, q, rfl, hvs⟩

theorem lexemes_middle {ts : List Lexeme} {us vs : List Token} {t : Token}
    (h : ts.map (·.token) = us ++ t :: vs) :
    ∃ fs q bs, ts = fs ++ ⟨t, q⟩ :: bs ∧ fs.map (·.token) = us ∧ bs.map (·.token) = vs := by
  obtain ⟨fs, ws, rfl, hfs, hws⟩ := List.map_eq_append_iff.mp h
  obtain ⟨q, bs, rfl, hbs⟩ := lexemes_cons hws
  exact ⟨fs, q, bs, rfl, hfs, hbs⟩

end LambdaShell
