/-
A token is read from its own characters.

The lexer looks past what it reads only to see that it does not go on.  Where the text is cut
off behind that, or later, there is less that could go on: each part of a token is the longest
of its kind, and a shorter text that still has this part in front has no longer one.  So the
same is read from the same characters, be it a token or a flaw.
-/
import Mathlib
import LambdaShell.Proofs.Sliced.Lambdas

namespace LambdaShell

open Lexer Number

variable {us cs : List Char}

/-! ### Runs of characters -/

theorem takeWhile_front {p : Char → Bool} (hus : us <+: cs) :
    us.takeWhile p <+: cs.takeWhile p := by
  induction us generalizing cs with
  | nil => exact List.nil_prefix
  | cons c us ih =>
      obtain ⟨rest, rfl⟩ := hus
      by_cases hc : p c = true
      · simp only [List.cons_append, List.takeWhile_cons, hc, if_true]
        exact (List.prefix_cons_inj c).mpr (ih (List.prefix_append us rest))
      · simp [hc]

theorem takeWhile_of_front {p : Char → Bool} (hus : us <+: cs) (hrun : cs.takeWhile p <+: us) :
    us.takeWhile p = cs.takeWhile p := by
  have hback : (cs.takeWhile p).takeWhile p <+: us.takeWhile p := takeWhile_front hrun
  rw [List.takeWhile_idem] at hback
  exact (takeWhile_front hus).eq_of_length_le hback.length_le

/-! ### Numbers -/

theorem leadingFraction_of_front (hus : us <+: cs)
    (hfraction : leadingFraction cs ≠ [] → '.' :: leadingFraction cs <+: us) :
    leadingFraction us = leadingFraction cs := by
  cases us with
  | nil =>
      by_contra hne
      exact absurd (hfraction (Ne.symm hne)) (by simp)
  | cons d us =>
      obtain ⟨rest, rfl⟩ := hus
      by_cases hd : d = '.'
      · subst hd
        show leadingDigits us = leadingDigits (us ++ rest)
        by_cases hdigits : leadingDigits (us ++ rest) = []
        · have hshort : leadingDigits us <+: leadingDigits (us ++ rest) :=
            takeWhile_front (List.prefix_append us rest)
          rw [hdigits] at hshort ⊢
          exact List.prefix_nil.mp hshort
        · exact takeWhile_of_front (List.prefix_append us rest)
            ((List.prefix_cons_inj '.').mp (hfraction hdigits))
      · have hnone : ∀ vs, leadingFraction (d :: vs) = [] := by
          intro vs
          unfold leadingFraction
          split
          · rename_i heq
            exact absurd (List.cons.inj heq).1 hd
          · rfl
        rw [hnone us, List.cons_append, hnone]

/-- The exponent that a mark and what comes behind it spell, the sign given. -/
theorem leadingExponent?_cons (mark : Char) (vs : List Char) :
    ∃ sign, (vs.take 1).filter (fun c => c == '+' || c == '-') = sign ∧
      sign ++ vs.drop sign.length = vs ∧
      leadingExponent? (mark :: vs) =
        if (mark = 'e' ∨ mark = 'E') ∧ leadingDigits (vs.drop sign.length) ≠ [] then
          some ⟨mark, sign, leadingDigits (vs.drop sign.length)⟩ else none := by
  refine ⟨_, rfl, ?_, rfl⟩
  cases vs with
  | nil => rfl
  | cons d vs =>
      rw [List.take_succ_cons, List.take_zero, List.filter_singleton]
      cases d == '+' || d == '-' <;> rfl

theorem leadingExponent?_of_front (hus : us <+: cs)
    (hexponent : ∀ p, leadingExponent? cs = some p → p.chars <+: us) :
    leadingExponent? us = leadingExponent? cs := by
  obtain ⟨rest, rfl⟩ := hus
  cases us with
  | nil =>
      cases hcs : leadingExponent? ([] ++ rest) with
      | none => rfl
      | some p => exact absurd (hexponent p hcs) (by simp [ExponentPart.chars])
  | cons mark us =>
      obtain ⟨sign, hsign, hus, heq⟩ := leadingExponent?_cons mark us
      obtain ⟨sign', hsign', hcs, heq'⟩ := leadingExponent?_cons mark (us ++ rest)
      rw [List.cons_append] at hexponent ⊢
      cases us with
      | nil =>
          -- the mark alone leaves no room for digits
          cases hsome : leadingExponent? (mark :: ([] ++ rest)) with
          | none => rw [heq]; simp [leadingDigits]
          | some p =>
              have hshort := hexponent p hsome
              obtain ⟨⟨-, hdigits⟩, hp⟩ := Option.ite_none_right_eq_some.mp (heq'.symm.trans hsome)
              cases hp
              simp [ExponentPart.chars] at hshort
              exact absurd hshort.2 hdigits
      | cons d us =>
          have hsame : sign' = sign := hsign'.symm.trans hsign
          subst hsame
          have hdrop : (d :: us).drop sign'.length <+: (d :: us ++ rest).drop sign'.length :=
            (List.prefix_append _ _).drop _
          suffices hdigits : mark = 'e' ∨ mark = 'E' → leadingDigits ((d :: us).drop sign'.length) =
              leadingDigits ((d :: us ++ rest).drop sign'.length) by
            rw [heq, heq']
            by_cases hmark : mark = 'e' ∨ mark = 'E'
            · rw [hdigits hmark]
            · simp [hmark]
          intro hmark
          by_cases hnone : leadingDigits ((d :: us ++ rest).drop sign'.length) = []
          · have hshort := takeWhile_front (p := Char.isDigit) hdrop
            rw [leadingDigits] at hnone
            rw [hnone] at hshort
            exact (List.prefix_nil.mp hshort).trans hnone.symm
          · have hchars := hexponent _ (heq'.trans (if_pos ⟨hmark, hnone⟩))
            have hbehind : sign' ++ leadingDigits ((d :: us ++ rest).drop sign'.length) <+: sign' ++
                (d :: us).drop sign'.length := by
              rw [hus]
              exact (List.prefix_cons_inj mark).mp hchars
            exact takeWhile_of_front hdrop ((List.prefix_append_right_inj sign').mp hbehind)

/-- A number without its exponent, as it is written. -/
def mantissaText (whole fraction : List Char) : List Char :=
  if fraction = [] then whole else whole ++ '.' :: fraction

/-- A number without a letter behind it, as it is written. -/
def numberText (whole fraction : List Char) (exponent : Option ExponentPart) : List Char :=
  match exponent with
  | some p => mantissaText whole fraction ++ p.chars
  | none => mantissaText whole fraction

/-- What is read when the parts of a number are known and `next` comes behind them. -/
def closeNumber (whole fraction : List Char) (exponent : Option ExponentPart)
    (next : List Char) : Scan :=
  let number := numberText whole fraction exponent
  let value := Scientific.ofParts whole fraction ((exponent.map (·.value)).getD 0)
  if next.head?.any isDecimalSuffix then decimalScan value (number ++ next.take 1)
  else if fraction ≠ [] ∨ exponent.isSome then decimalScan value number
  else
    let taken := if next.head?.any isWholeSuffix then number ++ next.take 1 else number
    match readInt64? whole with
    | some i => ⟨.ok (.int i), taken⟩
    | none => ⟨.error (.badNumber (String.ofList taken)), taken⟩

theorem scanNumber_eq {whole fraction : List Char} {exponent : Option ExponentPart}
    (hwhole : leadingDigits cs = whole)
    (hfraction : leadingFraction (cs.drop whole.length) = fraction)
    (hexponent : leadingExponent? (cs.drop (mantissaText whole fraction).length) = exponent) :
    scanNumber cs =
      closeNumber whole fraction exponent (cs.drop (numberText whole fraction exponent).length) := by
  subst hwhole hfraction hexponent
  rfl

section Close

variable {whole fraction next : List Char} {exponent : Option ExponentPart}

theorem mantissa_front : whole <+: mantissaText whole fraction := by
  unfold mantissaText
  split
  · exact List.prefix_refl whole
  · exact List.prefix_append whole _

theorem number_front : mantissaText whole fraction <+: numberText whole fraction exponent := by
  cases exponent with
  | none => exact List.prefix_refl _
  | some p => exact List.prefix_append _ _

theorem number_front_taken :
    numberText whole fraction exponent <+: (closeNumber whole fraction exponent next).taken := by
  unfold closeNumber
  extract_lets number value taken
  have htaken : number <+: taken := by
    show number <+: if _ then _ else _
    split
    · exact List.prefix_append number _
    · exact List.prefix_refl number
  split
  · exact List.prefix_append number _
  split
  · exact List.prefix_refl number
  split
  · exact htaken
  · exact htaken

/-- What comes behind a number counts only with the letter that is taken along. -/
theorem closeNumber_of_front {next' : List Char} (hnext : next' <+: next)
    (htaken : (closeNumber whole fraction exponent next).taken <+:
      numberText whole fraction exponent ++ next') :
    closeNumber whole fraction exponent next' = closeNumber whole fraction exponent next := by
  cases next' with
  | cons d next' =>
      obtain ⟨rest, rfl⟩ := hnext
      rfl
  | nil =>
      cases next with
      | nil => rfl
      | cons d next =>
          have hlong : ¬ numberText whole fraction exponent ++ [d] <+:
              numberText whole fraction exponent ++ [] := fun h => by
            have hlength := h.length_le
            simp at hlength
          by_cases hdecimal : isDecimalSuffix d = true
          · refine absurd ?_ hlong
            simpa [closeNumber, hdecimal, decimalScan] using htaken
          by_cases hreal : fraction ≠ [] ∨ exponent.isSome = true
          · simp [closeNumber, hdecimal, hreal]
          by_cases hwhole : isWholeSuffix d = true
          · refine absurd ?_ hlong
            simp only [closeNumber, List.head?_cons, Option.any_some, hdecimal, if_neg hreal, hwhole,
              Bool.false_eq_true, if_true, if_false] at htaken
            split at htaken <;> exact htaken
          · simp [closeNumber, hdecimal, hreal, hwhole]

end Close

theorem front_behind {as bs : List Char} (h : as ++ bs <+: us) : bs <+: us.drop as.length := by
  have hdrop := h.drop as.length
  rwa [List.drop_left] at hdrop

theorem scanNumber_of_front (hus : us <+: cs) (htaken : (scanNumber cs).taken <+: us) :
    scanNumber us = scanNumber cs := by
  generalize hwhole : leadingDigits cs = whole
  generalize hfraction : leadingFraction (cs.drop whole.length) = fraction
  generalize hexponent :
    leadingExponent? (cs.drop (mantissaText whole fraction).length) = exponent
  have heq := scanNumber_eq hwhole hfraction hexponent
  rw [heq] at htaken
  have hnumber : numberText whole fraction exponent <+: us := number_front_taken.trans htaken
  have hmantissa : mantissaText whole fraction <+: us := number_front.trans hnumber
  have hdigits : leadingDigits cs <+: us := by
    rw [hwhole]
    exact mantissa_front.trans hmantissa
  have hwhole' : leadingDigits us = whole := (takeWhile_of_front hus hdigits).trans hwhole
  have hfraction' : leadingFraction (us.drop whole.length) = fraction := by
    rw [← hfraction]
    refine leadingFraction_of_front (hus.drop _) fun hne => ?_
    rw [hfraction] at hne ⊢
    rw [mantissaText, if_neg hne] at hmantissa
    exact front_behind hmantissa
  have hexponent' :
      leadingExponent? (us.drop (mantissaText whole fraction).length) = exponent := by
    rw [← hexponent]
    refine leadingExponent?_of_front (hus.drop _) fun p hp => ?_
    rw [hexponent.symm.trans hp] at hnumber
    exact front_behind hnumber
  rw [heq, scanNumber_eq hwhole' hfraction' hexponent']
  refine closeNumber_of_front (hus.drop _) ?_
  obtain ⟨rest, hrest⟩ := hnumber
  rw [← hrest, List.drop_left, hrest]
  exact htaken

/-! ### Strings -/

theorem stringBody_of_front {quote : Char} (hslash : quote ≠ '\\') (hus : us <+: cs)
    (hbody : (stringBody quote cs).1 ++ (if (stringBody quote cs).2 then [quote] else []) <+: us) :
    stringBody quote us = stringBody quote cs := by
  have hlone : stringBody quote ['\\'] = ([], false) := by
    rw [stringBody]
    · rw [if_neg (Ne.symm hslash), if_pos rfl]
    · simp
  fun_induction stringBody quote cs generalizing us with
  | case1 => rw [List.prefix_nil.mp hus, stringBody]
  | case2 cs =>
      rcases List.prefix_cons_iff.mp hus with rfl | ⟨vs, rfl, hvs⟩
      · rw [stringBody]
      rcases List.prefix_cons_iff.mp hvs with rfl | ⟨ws, rfl, -⟩
      · exact hlone
      · rw [stringBody, if_pos rfl]
  | case3 c cs hc ih =>
      obtain ⟨vs, rfl, hvs⟩ := List.cons_prefix_iff.mp hbody
      obtain ⟨ws, rfl, hws⟩ := List.cons_prefix_iff.mp hvs
      have hfront : ws <+: cs := (List.prefix_cons_inj c).mp ((List.prefix_cons_inj '\\').mp hus)
      rw [stringBody, if_neg hc, ih hfront hws]
  | case4 cs hescape =>
      obtain ⟨vs, rfl, -⟩ := List.cons_prefix_iff.mp hbody
      rw [stringBody, if_pos rfl]
      exact fun _ _ heq => absurd heq hslash
  | case5 cs hescape hquote =>
      have hcs : cs = [] := by
        cases cs with
        | nil => rfl
        | cons d ds => exact absurd rfl (hescape d ds rfl)
      subst hcs
      rcases List.prefix_cons_iff.mp hus with rfl | ⟨vs, rfl, hvs⟩
      · rw [stringBody]
      · rw [List.prefix_nil.mp hvs]
        exact hlone
  | case6 c cs hescape hquote hc ih =>
      obtain ⟨vs, rfl, hvs⟩ := List.cons_prefix_iff.mp hbody
      have hfront : vs <+: cs := (List.prefix_cons_inj c).mp hus
      rw [stringBody, if_neg hquote, if_neg hc, ih hfront hvs]
      exact fun _ _ heq => absurd heq hc

theorem scanString_of_front {quote : Char} (hquote : quote = '"' ∨ quote = '\'') (hus : us <+: cs)
    (htaken : (scanString quote cs).taken <+: quote :: us) :
    scanString quote us = scanString quote cs := by
  have hslash : quote ≠ '\\' := by
    rintro rfl
    simp at hquote
  have hbody : (stringBody quote cs).1 ++ (if (stringBody quote cs).2 then [quote] else []) <+: us := by
    refine (List.prefix_cons_inj quote).mp ?_
    rw [Sliced.taken_string] at htaken
    by_cases hclosed : (stringBody quote cs).2 = true
    · rwa [if_pos hclosed] at htaken ⊢
    · rw [if_neg hclosed] at htaken ⊢
      rwa [List.append_nil]
  unfold scanString
  rw [stringBody_of_front hslash hus hbody]

/-! ### Symbols -/

theorem scanSymbol_of_front {c : Char} (hus : us <+: cs)
    (htaken : (scanSymbol c cs).taken <+: c :: us) : scanSymbol c us = scanSymbol c cs := by
  have hfits : ∀ s : Symbol, s.text.toList.isPrefixOf (c :: us) = true →
      s.text.toList.isPrefixOf (c :: cs) = true := by
    intro s hs
    rw [List.isPrefixOf_iff_prefix] at hs ⊢
    exact hs.trans ((List.prefix_cons_inj c).mpr hus)
  suffices hfind : Symbol.all.find? (·.text.toList.isPrefixOf (c :: us)) =
      Symbol.all.find? (·.text.toList.isPrefixOf (c :: cs)) by
    unfold scanSymbol
    rw [hfind]
  cases hfound : Symbol.all.find? (·.text.toList.isPrefixOf (c :: cs)) with
  | none =>
      rw [List.find?_eq_none] at hfound ⊢
      exact fun s hs hfit => hfound s hs (hfits s hfit)
  | some s =>
      have hown : (scanSymbol c cs).taken = s.text.toList := by
        unfold scanSymbol
        rw [hfound]
      rw [List.find?_eq_some_iff_append] at hfound ⊢
      obtain ⟨-, before, behind, hall, hbefore⟩ := hfound
      refine ⟨List.isPrefixOf_iff_prefix.mpr (hown ▸ htaken), before, behind, hall, fun a ha => ?_⟩
      have hnot := hbefore a ha
      rw [Bool.not_eq_true'] at hnot ⊢
      refine Bool.eq_false_iff.mpr fun hfit => ?_
      rw [hfits a hfit] at hnot
      cases hnot

/-! ### Whatever is read -/

theorem scan_of_front {c : Char} (hus : us <+: cs) (htaken : (scan c cs).taken <+: c :: us) :
    scan c us = scan c cs := by
  have hcons : c :: us <+: c :: cs := (List.prefix_cons_inj c).mpr hus
  unfold scan at htaken ⊢
  by_cases hname : isNameStart c = true
  · rw [if_pos hname] at htaken ⊢
    rw [if_pos hname]
    unfold scanWord
    rw [takeWhile_of_front hcons htaken]
  rw [if_neg hname] at htaken ⊢
  rw [if_neg hname]
  by_cases hdigit : c.isDigit = true
  · rw [if_pos hdigit] at htaken ⊢
    rw [if_pos hdigit]
    exact scanNumber_of_front hcons htaken
  rw [if_neg hdigit] at htaken ⊢
  rw [if_neg hdigit]
  by_cases hquote : c = '"' ∨ c = '\''
  · rw [if_pos hquote] at htaken ⊢
    rw [if_pos hquote]
    exact scanString_of_front hquote hus htaken
  · rw [if_neg hquote] at htaken ⊢
    rw [if_neg hquote]
    exact scanSymbol_of_front hus htaken

end LambdaShell
