/-
The aggregate of a `groupby` line.

A word behind a lambda is taken for the aggregate if the scan for the last gap, which starts
behind the last arrow of the text, is outside all brackets and quotes when it comes to the
end of the lambda.  If the last arrow is the arrow of the lambda, it is: there the scan
starts where a token does, keeps in step with the lexer, and the body of a lambda closes
what it opens.

The last arrow need not be the arrow of the lambda.  If a string has an arrow in it, the
scan starts inside the string, and quotation marks and brackets mean something else to it
than to the lexer.  It may still come out right; where it does not, the word is lost and
becomes part of the key.
-/
import Mathlib
import LambdaShell.Proofs.Command.GroupBy
import LambdaShell.Proofs.Command.Scanning
import LambdaShell.Proofs.Text.SmallLetters

namespace LambdaShell

open Lexer Text

/-! ### Names of aggregates -/

theorem Command.isPlainWord_iff {word : List Char} : Command.isPlainWord word = true ↔
    word ≠ [] ∧ (∀ c ∈ word, c.isAlpha = true) ∧ Keyword.ofWord? (String.ofList word) = none := by
  rw [Command.isPlainWord, Bool.and_eq_true, Bool.and_eq_true, decide_eq_true_iff, List.all_eq_true,
    Option.isNone_iff_eq_none, and_assoc]

/-- Keywords are written in small letters. -/
theorem Keyword.lower_text (k : Keyword) : k.text.toList.map Char.toLower = k.text.toList := by
  cases k <;> decide

namespace Aggregate

/-- The names of an aggregate, in small letters. -/
def names : Aggregate → List String
  | count => ["count"]
  | sum => ["sum"]
  | average => ["avg", "average"]
  | min => ["min"]
  | max => ["max"]
  | items => ["items"]

/-- The word is a name of the aggregate, in any case of its letters. -/
def IsNamed (a : Aggregate) (word : List Char) : Prop :=
  ∃ n ∈ a.names, eqIgnoringAsciiCase word n.toList = true

variable {a : Aggregate} {n : String} {word : List Char}

theorem plain_of_mem_names (h : n ∈ a.names) :
    Command.isPlainWord n.toList = true ∧ n.toList.map Char.toLower = n.toList := by
  cases a <;> simp only [names, List.mem_cons, List.not_mem_nil, or_false] at h
  case average => rcases h with rfl | rfl <;> decide +kernel
  all_goals subst h; decide +kernel

namespace IsNamed

theorem lower (h : a.IsNamed word) : ∃ n ∈ a.names, word.map Char.toLower = n.toList := by
  obtain ⟨n, hn, heq⟩ := h
  refine ⟨n, hn, ?_⟩
  rw [← (plain_of_mem_names hn).2]
  exact eq_of_beq heq

theorem letters (h : a.IsNamed word) : ∀ c ∈ word, c.isAlpha = true := by
  obtain ⟨n, hn, hlower⟩ := h.lower
  refine letters_of_map_toLower ?_
  rw [hlower]
  exact (Command.isPlainWord_iff.mp (plain_of_mem_names hn).1).2.1

theorem ne_nil (h : a.IsNamed word) : word ≠ [] := by
  rintro rfl
  obtain ⟨n, hn, hlower⟩ := h.lower
  exact (Command.isPlainWord_iff.mp (plain_of_mem_names hn).1).1 hlower.symm

/-- No keyword is the name of an aggregate. -/
theorem isPlainWord (h : a.IsNamed word) : Command.isPlainWord word = true := by
  refine Command.isPlainWord_iff.mpr ⟨h.ne_nil, h.letters, ?_⟩
  refine Option.eq_none_iff_forall_ne_some.mpr fun k hk => ?_
  have hword : k.text = String.ofList word :=
    eq_of_beq <| List.find?_some (p := fun k : Keyword => k.text == String.ofList word) hk
  obtain ⟨n, hn, hlower⟩ := h.lower
  have hfree := (Command.isPlainWord_iff.mp (plain_of_mem_names hn).1).2.2
  rw [← hlower, ← String.toList_ofList (l := word), ← hword, k.lower_text, String.ofList_toList,
    hword, hk] at hfree
  cases hfree

theorem solid (h : a.IsNamed word) : StartsSolid word ∧ EndsSolid word := by
  have hsolid : Solid word := fun c hc =>
    not_isBlank_of_isNameChar (isNameChar_of_isAlpha (h.letters c hc))
  exact ⟨hsolid.starts, hsolid.ends⟩

end IsNamed

end Aggregate

/-- **Names are read**: each aggregate is read from its names. -/
theorem Aggregate.IsNamed.ofName {a : Aggregate} {word : List Char} (h : a.IsNamed word) :
    Aggregate.ofName word = a := by
  obtain ⟨n, hn, hlower⟩ := h.lower
  rw [Aggregate.ofName, trim_eq_self h.solid.1 h.solid.2, toLower_of_letters h.letters, hlower,
    String.ofList_toList]
  cases a <;> simp only [names, List.mem_cons, List.not_mem_nil, or_false] at hn
  case average => rcases hn with rfl | rfl <;> rfl
  all_goals subst hn; rfl

namespace Command

/-! ### The last arrow -/

theorem cutAtLastArrow?_eq_none {cs : List Char} (h : ArrowFree cs) : cutAtLastArrow? cs = none := by
  induction cs with
  | nil => rfl
  | cons c cs ih =>
      obtain ⟨hmeet, hfree⟩ := arrowFree_cons.mp h
      rw [cutAtLastArrow?, ih hfree]
      exact if_neg fun harrow => hmeet '>' harrow.2 ⟨harrow.1, rfl⟩

theorem cutAtLastArrow?_of_arrowFree {vs : List Char} (h : ArrowFree vs) (us : List Char) :
    cutAtLastArrow? (us ++ '=' :: '>' :: vs) = some (us ++ ['=', '>'], vs) := by
  induction us with
  | nil =>
      have hbehind : cutAtLastArrow? ('>' :: vs) = none :=
        cutAtLastArrow?_eq_none (h.cons (by decide))
      rw [List.nil_append, cutAtLastArrow?, hbehind]
      rfl
  | cons c us ih => rw [List.cons_append, cutAtLastArrow?, ih, List.cons_append]

theorem arrowFree_of_cutAtLastArrow? {cs front body : List Char}
    (h : cutAtLastArrow? cs = some (front, body)) :
    ∃ us, front = us ++ ['=', '>'] ∧ ArrowFree body := by
  induction cs generalizing front with
  | nil => cases h
  | cons c cs ih =>
      rw [cutAtLastArrow?] at h
      cases hcut : cutAtLastArrow? cs with
      | some p =>
          obtain ⟨front', body'⟩ := p
          rw [hcut] at h
          cases h
          obtain ⟨us, rfl, hfree⟩ := ih hcut
          exact ⟨c :: us, rfl, hfree⟩
      | none =>
          have hfree := arrowFree_of_not_occursIn (not_occursIn_of_cutAtLastArrow? hcut)
          rw [hcut] at h
          obtain ⟨-, hp⟩ := Option.ite_none_right_eq_some.mp h
          cases hp
          refine ⟨[], rfl, ?_⟩
          rw [List.drop_one]
          exact hfree.tail

/-- Text without an arrow behind a text does not change where its last arrow is. -/
theorem cutAtLastArrow?_append {cs front body tail : List Char}
    (h : cutAtLastArrow? cs = some (front, body)) (htail : ArrowFree (body ++ tail)) :
    cutAtLastArrow? (cs ++ tail) = some (front, body ++ tail) := by
  obtain ⟨us, rfl, -⟩ := arrowFree_of_cutAtLastArrow? h
  rw [cutAtLastArrow?_eq_some h, List.append_assoc, List.append_assoc]
  exact cutAtLastArrow?_of_arrowFree htail us

/-! ### Where the lambda ends -/

theorem aggregateGap?_of_quoted {cs : List Char} {mark : Char}
    (h : (GapScan.run cs).quote = some mark) : aggregateGap? cs = none := by
  refine Option.filter_eq_none_iff.mpr fun g _ hends => ?_
  rw [h, Option.isNone_some, Bool.and_false] at hends
  cases hends

/-- Where there is white space between two words, there is no plain word. -/
theorem not_isPlainWord_of_blank {us word : List Char} {d : Char} (hd : isBlank d = false)
    (hne : word ≠ []) (hword : EndsSolid word) :
    isPlainWord (trim (us ++ [d] ++ ' ' :: word)) = false := by
  have hstart : trimStart (us ++ [d]) ≠ [] := by
    intro hnil
    have hblank := List.dropWhile_eq_nil_iff.mp hnil d (List.mem_append_right _ List.mem_cons_self)
    rw [hd] at hblank
    cases hblank
  have hbehind : EndsSolid ([' '] ++ word) := hword.append hne
  have hend : EndsSolid (trimStart (us ++ [d]) ++ ' ' :: word) :=
    hbehind.append (List.cons_ne_nil ' ' word)
  rw [trim, trimStart_append_of_ne_nil hstart, trimEnd_eq_self hend]
  refine Bool.eq_false_iff.mpr fun hplain => ?_
  have hspace := (isPlainWord_iff.mp hplain).2.1 ' ' (by simp)
  cases hspace

variable {front word : List Char} {d : Char}

theorem trim_blank (h : StartsSolid word ∧ EndsSolid word) : trim (' ' :: word) = word := by
  have hblank : trimStart (' ' :: word) = trimStart word := rfl
  rw [trim, hblank, trimStart_eq_self h.1, trimEnd_eq_self h.2]

theorem aggregateGap?_of_top (hd : endsOperand d = true) (hsolid : isBlank d = false)
    (hplain : isPlainWord word = true) (hword : trim (' ' :: word) = word)
    (hquote : (GapScan.run (front ++ [d])).quote = none)
    (hdepth : (GapScan.run (front ++ [d])).depth = 0) :
    aggregateGap? (front ++ [d] ++ ' ' :: word) = some (front ++ [d]).length := by
  have hletters := (isPlainWord_iff.mp hplain).2.1
  obtain ⟨hgap, hquote'⟩ := GapScan.run_word hquote hletters
  have hprevious : (GapScan.run (front ++ [d])).previous = d := by
    rw [GapScan.run_append]
    rfl
  rw [GapScan.outside_blank, hprevious, if_pos ⟨hdepth, hsolid⟩] at hgap
  have hlength : (GapScan.run (front ++ [d])).position = (front ++ [d]).length :=
    (GapScan.sees_run _).position
  refine Option.filter_eq_some_iff.mpr ⟨hgap.trans (congrArg some hlength), ?_⟩
  rw [List.take_left, List.drop_left, hword, hplain, hquote', trimEnd_eq_self (endsSolid_concat hsolid),
    List.getLast?_concat, Option.any_some, hd]
  rfl

theorem aggregateGap?_of_nested (hsolid : isBlank d = false) (hplain : isPlainWord word = true)
    (hword : EndsSolid word) (hquote : (GapScan.run (front ++ [d])).quote = none)
    (hdepth : (GapScan.run (front ++ [d])).depth ≠ 0) :
    aggregateGap? (front ++ [d] ++ ' ' :: word) = none := by
  obtain ⟨hne, hletters, -⟩ := isPlainWord_iff.mp hplain
  obtain ⟨hgap, -⟩ := GapScan.run_word hquote hletters
  rw [GapScan.outside_blank, if_neg fun h => hdepth h.1] at hgap
  -- an older gap leaves more than one word behind it
  refine Option.filter_eq_none_iff.mpr fun g hg hends => ?_
  obtain ⟨us, b, rest, htext, rfl, -⟩ := (GapScan.sees_run (front ++ [d])).gap g (hgap.symm.trans hg)
  obtain ⟨mid, hmid, -⟩ := append_last htext.symm (List.cons_ne_nil b rest)
  rw [htext, List.append_assoc, List.drop_left, hmid, not_isPlainWord_of_blank hsolid hne hword,
    Bool.and_false, Bool.false_and] at hends
  cases hends

/-- **A word is found from the top**: a plain word behind white space is the aggregate if the
scan is outside all brackets and quotes in front of it, and otherwise there is none. -/
theorem aggregateGap?_word (hd : endsOperand d = true) (hsolid : isBlank d = false)
    (hplain : isPlainWord word = true) (hword : StartsSolid word ∧ EndsSolid word) :
    aggregateGap? (front ++ [d] ++ ' ' :: word) =
      if (GapScan.run (front ++ [d])).isTop then some (front ++ [d]).length else none := by
  obtain ⟨hne, hletters, -⟩ := isPlainWord_iff.mp hplain
  cases hquote : (GapScan.run (front ++ [d])).quote with
  | some mark =>
      have hmark : mark ∉ ' ' :: word := by
        rintro (_ | ⟨_, hmem⟩)
        · exact absurd (GapScan.mark_of_run hquote) (by decide)
        · have hletter := hletters mark hmem
          rcases GapScan.mark_of_run hquote with rfl | rfl <;> cases hletter
      have hrun : (GapScan.run (front ++ [d] ++ ' ' :: word)).quote = some mark := by
        rw [GapScan.run_append]
        exact GapScan.foldl_quoted hquote hmark
      rw [aggregateGap?_of_quoted hrun, GapScan.isTop, hquote]
      rfl
  | none =>
      by_cases hdepth : (GapScan.run (front ++ [d])).depth = 0
      · rw [aggregateGap?_of_top hd hsolid hplain (trim_blank hword) hquote hdepth, GapScan.isTop,
          hquote, hdepth]
        rfl
      · rw [aggregateGap?_of_nested hsolid hplain hword.2 hquote hdepth, GapScan.isTop, hquote,
          beq_eq_false_iff_ne.mpr hdepth]
        rfl

/-! ### The line -/

/-- The scan from the last arrow on is outside all brackets and quotes at the end. -/
def surfaces (source : List Char) : Bool :=
  (cutAtLastArrow? source).any fun p => (GapScan.run p.2).isTop

variable {source arrow : List Char} {a : Aggregate}

theorem solid_behind (hstart : StartsSolid source) (hne : source ≠ []) (hword : a.IsNamed word) :
    StartsSolid (source ++ ' ' :: word) ∧ EndsSolid (source ++ ' ' :: word) := by
  have hbehind : EndsSolid ([' '] ++ word) := hword.solid.2.append hword.ne_nil
  refine ⟨fun c hc => ?_, hbehind.append (List.cons_ne_nil ' ' word)⟩
  rw [List.head?_append_of_ne_nil _ hne] at hc
  exact hstart c hc

theorem words_behind (hstart : StartsSolid source) (hne : source ≠ []) (hword : a.IsNamed word) :
    ∃ w w' ws, words (source ++ ' ' :: word) = w :: w' :: ws := by
  rw [words_append (by decide)]
  obtain ⟨w, ws, hw⟩ := List.exists_cons_of_ne_nil (words_ne_nil hstart hne)
  obtain ⟨w', ws', hw'⟩ := List.exists_cons_of_ne_nil (words_ne_nil hword.solid.1 hword.ne_nil)
  rw [hw, hw']
  cases ws with
  | nil => exact ⟨w, w', ws', rfl⟩
  | cons v vs => exact ⟨w, v, vs ++ w' :: ws', rfl⟩

theorem arrowFree_behind {body : List Char} (h : ArrowFree body) (hword : a.IsNamed word) :
    ArrowFree (body ++ ' ' :: word) := by
  have hequals : '=' ∉ word := fun hmem => by cases hword.letters '=' hmem
  refine arrowFree_append.mpr ⟨h, .cons (by decide) (arrowFree_of_not_mem hequals), ?_⟩
  rintro _ _ _ ⟨⟩ ⟨-, hblank⟩
  cases hblank

/-- The argument of `groupby` is divided in front of the word, or not at all. -/
theorem readGroupBy_word (hstart : StartsSolid source) (hend : EndsSolid source)
    (hcut : cutAtLastArrow? source = some (arrow, front ++ [d])) (hd : endsOperand d = true)
    (hword : a.IsNamed word) :
    readGroupBy (source ++ ' ' :: word) =
      .ok (if surfaces source then .groupBy (String.ofList source) a
        else .groupBy (String.ofList (source ++ ' ' :: word)) .items) := by
  have hsource := cutAtLastArrow?_eq_some hcut
  have hsolid : isBlank d = false := by
    rw [hsource, ← List.append_assoc] at hend
    exact hend d List.getLast?_concat
  have hne : source ≠ [] := by
    rw [hsource, ← List.append_assoc]
    exact List.append_ne_nil_of_right_ne_nil _ (List.cons_ne_nil d [])
  obtain ⟨hstart', hend'⟩ := solid_behind hstart hne hword
  obtain ⟨w, w', ws, hwords⟩ := words_behind hstart hne hword
  obtain ⟨_, -, hbody⟩ := arrowFree_of_cutAtLastArrow? hcut
  unfold readGroupBy splitGroupBy
  dsimp only
  rw [trim_eq_self hstart' hend', hwords]
  dsimp only
  rw [cutAtLastArrow?_append hcut (arrowFree_behind hbody hword)]
  dsimp only
  rw [aggregateGap?_word hd hsolid hword.isPlainWord hword.solid, surfaces, hcut, Option.any_some]
  cases (GapScan.run (front ++ [d])).isTop with
  | true =>
      have hkey : trim (arrow ++ (front ++ [d])) = source := by
        rw [← hsource, trim_eq_self hstart hend]
      have hname : trim (' ' :: word) = word := trim_blank hword.solid
      simp only [if_true, List.take_left, List.drop_left, hkey, hname, hword.ofName]
  | false => simp only [Bool.false_eq_true, if_false, ofName_default]

/-! ### Lambdas -/

/-- A lambda is a row of tokens with an operand behind the arrow. -/
theorem lexed_of_parseLambda {expr : LambdaExpr} (h : parseLambda source = .ok expr) :
    ∃ ls ts ps body, tokenize source = .ok ls ∧ ls.map (·.token) = ps ++ .symbol .arrow :: body ∧
      Lexed source ts ∧ ts.map (·.2) = ps ++ .symbol .arrow :: body ∧ IsOperand body := by
  obtain ⟨ls, hls, hread⟩ := parseLambda_eq_ok.mp h
  obtain ⟨ts, hlexed, htokens⟩ := lexed_of_tokenize hls
  obtain ⟨ps, body, hbody, hoperand⟩ := (readLambda_sound hread).isOperand
  exact ⟨ls, ts, ps, body, hls, hbody, hlexed, htokens ▸ hbody, hoperand⟩

/-- A lambda ends in an operand. -/
theorem ends_in_operand {expr : LambdaExpr} (h : parseLambda source = .ok expr)
    (hend : EndsSolid source) : ∃ front d, source = front ++ [d] ∧ endsOperand d = true := by
  obtain ⟨-, ts, ps, body, -, -, hlexed, hbody, hoperand⟩ := lexed_of_parseLambda h
  obtain ⟨front, t, rfl, ht⟩ := hoperand.closes
  rw [← List.cons_append, ← List.append_assoc] at hbody
  obtain ⟨us, taken, rfl, htaken⟩ := hlexed.last hbody hend
  obtain ⟨vs, d, rfl, hd⟩ := endsOperand_of_spelled htaken ht
  exact ⟨us ++ vs, d, (List.append_assoc us vs [d]).symm, hd⟩

/-- Behind the last arrow of a lambda stands something that ends like an operand. -/
theorem cutAtLastArrow?_eq_operand {expr : LambdaExpr} (h : parseLambda source = .ok expr)
    (harrow : Eval.occursIn ['=', '>'] source = true) (hend : EndsSolid source) :
    ∃ arrow front d, cutAtLastArrow? source = some (arrow, front ++ [d]) ∧
      endsOperand d = true := by
  cases hcut : cutAtLastArrow? source with
  | none =>
      rw [not_occursIn_of_cutAtLastArrow? hcut] at harrow
      cases harrow
  | some p =>
      obtain ⟨arrow, body⟩ := p
      obtain ⟨us, rfl, -⟩ := arrowFree_of_cutAtLastArrow? hcut
      obtain ⟨front, d, hsource, hd⟩ := ends_in_operand h hend
      rw [cutAtLastArrow?_eq_some hcut] at hsource
      have hbody : body ≠ [] := by
        rintro rfl
        have hlast := congrArg List.getLast? hsource
        rw [List.append_nil, List.getLast?_append, List.getLast?_concat] at hlast
        cases hlast
        exact absurd hd (by decide +kernel)
      obtain ⟨mid, rfl, -⟩ := append_last hsource hbody
      exact ⟨us ++ ['=', '>'], mid, d, rfl, hd⟩

/-- A string of the lambda has an arrow in it. -/
def HasQuotedArrow (source : List Char) : Prop :=
  ∃ ls s q, tokenize source = .ok ls ∧ (⟨.str s, q⟩ : Lexeme) ∈ ls ∧
    Eval.occursIn ['=', '>'] s.toList = true

/-- If no string has an arrow in it, the last arrow is the arrow of the lambda. -/
theorem surfaces_of_not_hasQuotedArrow {expr : LambdaExpr} (h : parseLambda source = .ok expr)
    (hstr : ¬ HasQuotedArrow source) : surfaces source = true := by
  obtain ⟨ls, ts, ps, body, hls, htokens, hlexed, hbody, hoperand⟩ := lexed_of_parseLambda h
  obtain ⟨front, taken, rest, more, rfl, htaken, hrest, hmore⟩ := hlexed.split hbody
  have harrow : taken = ['=', '>'] := by
    cases htaken with
    | run _ _ ht => exact absurd rfl (ht .arrow)
    | symbol => rfl
  have hfree : ArrowFree rest := by
    refine hrest.arrowFree (hmore ▸ hoperand.spaced) (hmore ▸ hoperand.arrowless) fun s hs => ?_
    rw [hmore] at hs
    refine Bool.eq_false_iff.mpr fun hoccurs => hstr ?_
    have hmem : Token.str s ∈ ls.map (·.token) := by
      rw [htokens]
      exact List.mem_append_right _ (List.mem_cons_of_mem _ hs)
    obtain ⟨⟨_, q⟩, hl, rfl⟩ := List.mem_map.mp hmem
    exact ⟨ls, s, q, hls, hl, hoccurs⟩
  have hrun : (GapScan.run rest).IsOutside 0 := run_isOutside hrest (hmore ▸ hoperand.nesting)
  rw [surfaces, harrow]
  show (cutAtLastArrow? (front ++ '=' :: '>' :: rest)).any _ = true
  rw [cutAtLastArrow?_of_arrowFree hfree]
  exact hrun.isTop

/-- **A named aggregate is found unless a string hides it.**  A `groupby` line with a lambda
that compiles and a name of an aggregate behind it groups by the lambda and summarises by
that aggregate, if the scan from the last arrow on comes out of all brackets and quotes at
the end of the lambda; otherwise it takes the whole line for the key and lists the items.
Only an arrow in a string of the lambda can make it do so. -/
theorem groupBy_aggregate_iff_surfaces {lambda : Lambda} (htrim : trim source = source)
    (h : Lambda.compile source .any = .ok lambda) (hword : a.IsNamed word) :
    ofLine ("groupby ".toList ++ (source ++ ' ' :: word)) =
        .ok (if surfaces source then .groupBy (String.ofList source) a
          else .groupBy (String.ofList (source ++ ' ' :: word)) .items) ∧
      (surfaces source = false → HasQuotedArrow source) := by
  obtain ⟨-, harrow, hread, -, -, -⟩ := Lambda.comesFrom_of_compile h
  rw [htrim] at harrow hread
  obtain ⟨hstart, hend⟩ := solid_of_trim htrim
  obtain ⟨arrow, front, d, hcut, hd⟩ := cutAtLastArrow?_eq_operand hread harrow hend
  have hne : source ≠ [] := by
    rintro rfl
    cases harrow
  obtain ⟨hstart', hend'⟩ := solid_behind hstart hne hword
  rw [ofLine_groupBy hstart' hend']
  refine ⟨readGroupBy_word hstart hend hcut hd hword, fun hhidden => ?_⟩
  by_contra hstr
  rw [surfaces_of_not_hasQuotedArrow hread hstr] at hhidden
  cases hhidden

/-- A lambda with brackets and quotation marks inside a string. -/
def strayMarks : Lambda where
  source := "x => x ?? \"(it's\""
  goal := .any
  expr := ⟨"x", .binary ⟨5, 17⟩ .coalesce (.name ⟨5, 6⟩ "x") (.literal ⟨10, 17⟩ (.str "(it's"))⟩

/-- What is inside the quotes does not hide the aggregate, whatever the case of its letters. -/
theorem strayMarks_surfaces :
    trim strayMarks.source.toList = strayMarks.source.toList ∧
      Lambda.compile strayMarks.source.toList .any = .ok strayMarks ∧
      Aggregate.average.IsNamed "AvG".toList ∧
      ofLine ("groupby ".toList ++ (strayMarks.source.toList ++ ' ' :: "AvG".toList)) =
        .ok (if surfaces strayMarks.source.toList then
            .groupBy (String.ofList strayMarks.source.toList) .average
          else .groupBy (String.ofList (strayMarks.source.toList ++ ' ' :: "AvG".toList)) .items) ∧
      (surfaces strayMarks.source.toList = false → HasQuotedArrow strayMarks.source.toList) := by
  have hcompile : Lambda.compile strayMarks.source.toList .any = .ok strayMarks := by cbv
  have hnamed : Aggregate.average.IsNamed "AvG".toList := ⟨"avg", by decide, by decide⟩
  exact ⟨rfl, hcompile, hnamed, groupBy_aggregate_iff_surfaces rfl hcompile hnamed⟩

/-- A string with an arrow in it can hide the aggregate. -/
theorem arrowInString_hides : ¬ ∀ (source word : List Char) (lambda : Lambda) (a : Aggregate),
    trim source = source → Lambda.compile source .any = .ok lambda → a.IsNamed word →
      ofLine ("groupby ".toList ++ (source ++ ' ' :: word)) =
        .ok (.groupBy (String.ofList source) a) := by
  intro h
  have hcompile : Lambda.compile "x => \"a => b\"".toList .any = .ok ⟨"x => \"a => b\"", .any,
      ⟨"x", .literal ⟨5, 13⟩ (.str "a => b")⟩⟩ := by cbv
  have hnamed : Aggregate.count.IsNamed "count".toList := ⟨"count", by decide, by decide⟩
  have hread : readGroupBy "x => \"a => b\" count".toList =
      .ok (.groupBy "x => \"a => b\" count" .items) := by cbv
  have hargs : "x => \"a => b\"".toList ++ ' ' :: "count".toList =
      "x => \"a => b\" count".toList := rfl
  obtain ⟨hstart, hend⟩ := solid_of_trim (show trim "x => \"a => b\" count".toList = _ from rfl)
  have hline := h _ _ _ _ rfl hcompile hnamed
  rw [hargs, ofLine_groupBy hstart hend, hread] at hline
  injection hline with hline
  injection hline with hkey
  exact absurd hkey (by decide)

end Command

end LambdaShell
