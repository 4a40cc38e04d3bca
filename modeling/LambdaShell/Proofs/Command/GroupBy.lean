/-
The key of a `groupby` line.

Where the key ends and the aggregate begins is decided on the characters of the line, while
the key is read with a lexer and a grammar of its own.  The two agree as long as only
operands end in a character that can end an operand.  There is one thing in the grammar that
looks like the end of an operand and is not: the closing parenthesis of a cast.  A key that
ends in a cast of a bare word, with white space between the two, loses the word, and that
is the only way for a key to be cut.
-/
import Mathlib
import LambdaShell.Proofs.Command.Line
import LambdaShell.Proofs.Expr.Endings
import LambdaShell.Proofs.Expr.Sentences
import LambdaShell.Proofs.Lambda

namespace LambdaShell.Command

open Text

/-! ### The last arrow -/

theorem cutAtLastArrow?_eq_some {cs front body : List Char}
    (h : cutAtLastArrow? cs = some (front, body)) : cs = front ++ body := by
  induction cs generalizing front with
  | nil => cases h
  | cons c cs ih =>
      rw [cutAtLastArrow?] at h
      cases hcut : cutAtLastArrow? cs with
      | some p =>
          obtain ⟨front', body'⟩ := p
          rw [hcut] at h
          cases h
          rw [List.cons_append, ← ih hcut]
      | none =>
          rw [hcut] at h
          obtain ⟨⟨rfl, hnext⟩, hp⟩ := Option.ite_none_right_eq_some.mp h
          cases hp
          cases cs with
          | nil => cases hnext
          | cons d ds =>
              cases hnext
              rfl

theorem not_occursIn_of_cutAtLastArrow? {cs : List Char} (h : cutAtLastArrow? cs = none) :
    Eval.occursIn ['=', '>'] cs = false := by
  induction cs with
  | nil => rfl
  | cons c cs ih =>
      rw [cutAtLastArrow?] at h
      cases hcut : cutAtLastArrow? cs with
      | some p =>
          rw [hcut] at h
          cases h
      | none =>
          rw [hcut] at h
          rw [Eval.occursIn, ih hcut, Bool.or_false]
          refine Bool.eq_false_iff.mpr fun harrow => ?_
          obtain ⟨rest, hrest⟩ := List.isPrefixOf_iff_prefix.mp harrow
          cases hrest
          have hfound : (if '=' = '=' ∧ some '>' = some '>' then some (['=', '>'], rest) else none)
              = none := h
          rw [if_pos ⟨rfl, rfl⟩] at hfound
          cases hfound

/-! ### The last gap -/

namespace GapScan

/-- The scan knows how much it has read, and its gap begins with white space. -/
structure Sees (s : GapScan) (read : List Char) : Prop where
  position : s.position = read.length
  gap : ∀ g, s.gap = some g → ∃ front b rest,
    read = front ++ b :: rest ∧ front.length = g ∧ isBlank b = true

theorem inside_gap (s : GapScan) (q c : Char) : (s.inside q c).gap = s.gap := by
  simp [inside, apply_ite gap]

/-- A character outside quotes starts a gap only if it is white space. -/
theorem outside_gap {s : GapScan} {c : Char} {g : Nat} (h : (s.outside c).gap = some g) :
    s.gap = some g ∨ (g = s.position ∧ isBlank c = true) := by
  unfold outside at h
  split at h
  · exact Or.inl h
  split at h
  · exact Or.inl h
  split at h
  · exact Or.inl h
  split at h
  · rename_i hgap
    cases h
    exact Or.inr ⟨rfl, hgap.1⟩
  · exact Or.inl h

theorem Sees.next {s : GapScan} {read : List Char} (h : s.Sees read) (c : Char) :
    (s.next c).Sees (read ++ [c]) := by
  have hold : ∀ g, s.gap = some g → ∃ front b rest,
      read ++ [c] = front ++ b :: rest ∧ front.length = g ∧ isBlank b = true := by
    intro g hg
    obtain ⟨front, b, rest, rfl, hfront, hb⟩ := h.gap g hg
    exact ⟨front, b, rest ++ [c], by rw [List.append_assoc, List.cons_append], hfront, hb⟩
  unfold GapScan.next
  cases s.quote with
  | some q =>
      refine ⟨?_, fun g hg => hold g ?_⟩
      · show s.position + 1 = _
        rw [h.position, List.length_append, List.length_singleton]
      · rw [← inside_gap s q c]
        exact hg
  | none =>
      refine ⟨?_, fun g hg => ?_⟩
      · show s.position + 1 = _
        rw [h.position, List.length_append, List.length_singleton]
      · rcases outside_gap hg with hg | ⟨rfl, hc⟩
        · exact hold g hg
        · exact ⟨read, c, [], rfl, h.position.symm, hc⟩

theorem sees_run (cs : List Char) : (run cs).Sees cs := by
  have hfold : ∀ (cs read : List Char) (s : GapScan), s.Sees read →
      (cs.foldl GapScan.next s).Sees (read ++ cs) := by
    intro cs
    induction cs with
    | nil =>
        intro read s h
        rwa [List.append_nil]
    | cons c cs ih =>
        intro read s h
        have hnext := ih (read ++ [c]) (s.next c) (h.next c)
        rwa [List.append_assoc] at hnext
  exact hfold cs [] start ⟨rfl, nofun⟩

end GapScan

/-- Where an aggregate is taken to begin, white space stands between an operand, of which `d`
is the last character, and a word. -/
structure IsCut (body front : List Char) (d : Char) (gap word : List Char) : Prop where
  text : body = front ++ [d] ++ (gap ++ word)
  operand : endsOperand d = true
  solid : isBlank d = false
  gap_ne : gap ≠ []
  blank : AllBlank gap
  word : isPlainWord word = true

theorem aggregateGap?_eq_some {body : List Char} {g : Nat} (hend : EndsSolid body)
    (h : aggregateGap? body = some g) :
    ∃ front d gap word, IsCut body front d gap word ∧ trimEnd (body.take g) = front ++ [d] ∧
      trim (body.drop g) = word := by
  obtain ⟨hgap, hends⟩ := Option.filter_eq_some_iff.mp h
  obtain ⟨us, b, vs, rfl, rfl, hb⟩ := (GapScan.sees_run body).gap g hgap
  rw [List.take_left, List.drop_left, Bool.and_eq_true, Bool.and_eq_true] at hends
  obtain ⟨⟨hoperand, hword⟩, -⟩ := hends
  obtain ⟨d, hd, hoperand⟩ := (Option.any_eq_true _ _).mp hoperand
  obtain ⟨front, hfront⟩ := List.getLast?_eq_some_iff.mp hd
  obtain ⟨bs, hus, hbs⟩ := trimEnd_spec us
  obtain ⟨cs, hvs, hcs⟩ := trimStart_spec (b :: vs)
  have hsolid : isBlank d = false := endsSolid_trimEnd us d hd
  have hne : cs ≠ [] := by
    rintro rfl
    rw [List.nil_append] at hvs
    have hfirst := startsSolid_trimStart (b :: vs) b (by rw [← hvs]; rfl)
    rw [hb] at hfirst
    cases hfirst
  have htrim : trim (b :: vs) = trimStart (b :: vs) := by
    have hwhole := hend.of_append
    rw [hvs] at hwhole
    exact trimEnd_eq_self hwhole.of_append
  rw [htrim] at hword
  refine ⟨front, d, bs ++ cs, trimStart (b :: vs), ⟨?_, hoperand, hsolid, ?_, hbs.append hcs, hword⟩,
    ?_, ?_⟩
  · rw [← hfront, List.append_assoc bs, ← hvs, ← List.append_assoc, ← hus]
  · exact List.append_ne_nil_of_right_ne_nil bs hne
  · rw [List.take_left, hfront]
  · rw [List.drop_left, htrim]

/-! ### The line -/

theorem ofLine_groupBy {source : List Char} (hstart : StartsSolid source)
    (hend : EndsSolid source) :
    ofLine ("groupby ".toList ++ source) = readGroupBy source := by
  have hword : Solid "groupby".toList := by decide
  have hgap : AllBlank [' '] := by decide
  have hnone : AllBlank [] := by decide
  have hlower : toLower "groupby".toList = "groupby".toList := by decide +kernel
  have hline := ofLine_written hnone hword (by decide) hgap hstart hend (Or.inr (by decide)) hnone
  rw [hlower, List.append_nil] at hline
  exact hline

theorem ofName_default : Aggregate.ofName defaultAggregate = .items := by decide +kernel

/-- A cut behind the arrow is a cut of the whole argument. -/
theorem IsCut.behind {arrow body front gap word : List Char} {d : Char}
    (h : IsCut body front d gap word) : IsCut (arrow ++ body) (arrow ++ front) d gap word where
  text := by simp only [h.text, List.append_assoc]
  operand := h.operand
  solid := h.solid
  gap_ne := h.gap_ne
  blank := h.blank
  word := h.word

/-- The key of a cut argument is what stands in front of the gap. -/
theorem trim_key {arrow body front : List Char} {d : Char} {g : Nat}
    (hstart : StartsSolid (arrow ++ body)) (hkey : trimEnd (body.take g) = front ++ [d]) :
    trim (arrow ++ body.take g) = arrow ++ front ++ [d] := by
  have hfront : StartsSolid (arrow ++ body.take g) := by
    rw [← List.take_append_drop g body, ← List.append_assoc] at hstart
    exact hstart.of_append
  have hne : trimEnd (body.take g) ≠ [] := by
    rw [hkey]
    exact List.append_ne_nil_of_right_ne_nil _ (List.cons_ne_nil d [])
  rw [trim, trimStart_eq_self hfront, trimEnd_append_of_ne_nil hne, hkey, List.append_assoc]

/-- The key is the whole argument, or it is cut at a gap between an operand and a word. -/
theorem readGroupBy_cases {source : List Char} (hstart : StartsSolid source)
    (hend : EndsSolid source) (harrow : Eval.occursIn ['=', '>'] source = true) :
    readGroupBy source = .ok (.groupBy (String.ofList source) .items) ∨
      ∃ front d gap word, IsCut source front d gap word ∧
        readGroupBy source = .ok (.groupBy (String.ofList (front ++ [d])) (Aggregate.ofName word)) := by
  have hne : source ≠ [] := by
    rintro rfl
    cases harrow
  unfold readGroupBy splitGroupBy
  rw [trim_eq_self hstart hend, ← ofName_default]
  dsimp only
  cases hwords : words source with
  | nil => exact absurd hwords (words_ne_nil hstart hne)
  | cons w ws =>
      cases ws with
      | nil => exact Or.inl rfl
      | cons w' ws =>
          cases hcut : cutAtLastArrow? source with
          | none =>
              rw [not_occursIn_of_cutAtLastArrow? hcut] at harrow
              cases harrow
          | some p =>
              obtain ⟨arrow, body⟩ := p
              obtain rfl := cutAtLastArrow?_eq_some hcut
              dsimp only
              cases hgap : aggregateGap? body with
              | none => exact Or.inl rfl
              | some g =>
                  obtain ⟨front, d, gap, word, hbody, hkey, hword⟩ :=
                    aggregateGap?_eq_some hend.of_append hgap
                  refine Or.inr ⟨arrow ++ front, d, gap, word, hbody.behind, ?_⟩
                  dsimp only
                  rw [trim_key hstart hkey, hword]

/-! ### The cut and the grammar -/

/-- The tokens of the text end in a cast of a bare word. -/
def EndsInCast (source word : List Char) : Prop :=
  ∃ front n t p q r s, tokenize source = .ok (front ++ [⟨.symbol .openParen, p⟩, ⟨.name n, q⟩,
    ⟨.symbol .closeParen, r⟩, ⟨.name (String.ofList word), s⟩]) ∧ CastType.ofName? n = some t

/-- No operand ends in the last character of an operator. -/
theorem last_symbol (s : Symbol) (hparen : s ≠ .closeParen) (hbrace : s ≠ .closeBrace) :
    ∃ us c, s.text.toList = us ++ [c] ∧ isBlank c = false ∧ endsOperand c = false := by
  have hlast : ∃ c, s.text.toList.getLast? = some c ∧ isBlank c = false ∧
      endsOperand c = false := by
    cases s with
    | closeParen => exact absurd rfl hparen
    | closeBrace => exact absurd rfl hbrace
    | _ => exact ⟨_, rfl, by decide, by decide +kernel⟩
  obtain ⟨c, hc, hblank, hoperand⟩ := hlast
  obtain ⟨us, hus⟩ := List.getLast?_eq_some_iff.mp hc
  exact ⟨us, c, hus, hblank, hoperand⟩

variable {source front gap word : List Char} {d : Char}

/-- In front of white space, no operator ends where an operand does. -/
theorem not_endsOperand_of_symbol {cs taken us gaps : List Char} {s : Symbol}
    {ts : List (List Char × Token)} (hlexed : Lexed cs ts) (hmem : (taken, .symbol s) ∈ ts)
    (hparen : s ≠ .closeParen) (hbrace : s ≠ .closeBrace)
    (h : front ++ [d] ++ gap = us ++ (taken ++ gaps)) (hd : isBlank d = false)
    (hgap : AllBlank gap) (hgaps : ∀ c ∈ gaps, Lexer.isGap c = true) : endsOperand d = false := by
  obtain ⟨c, more, rest, hscan, rfl⟩ := hlexed.scan_of_mem hmem
  obtain ⟨vs, e, hlast, hsolid, hoperand⟩ := last_symbol s hparen hbrace
  rw [taken_symbol hscan, hlast, ← List.append_assoc, ← List.append_assoc] at h
  rwa [last_solid h hd hsolid hgap fun c hc => isBlank_of_isGap (hgaps c hc)]

/-- The word behind a cut is the last token, and where the white space begins the token in
front of it ends. -/
theorem IsCut.tokens {ts : List (List Char × Token)} (hcut : IsCut source front d gap word)
    (hlexed : Lexed source ts) :
    ∃ us blanks, ts = us ++ [(word, .name (String.ofList word))] ∧ AllBlank blanks ∧
      EndsWith (front ++ [d] ++ blanks) us := by
  have hword := hcut.word
  simp only [isPlainWord, Bool.and_eq_true, decide_eq_true_eq, Option.isNone_iff_eq_none] at hword
  obtain ⟨⟨hne, hletters⟩, hkeyword⟩ := hword
  obtain ⟨blanks, b, hconcat⟩ := (List.eq_nil_or_concat gap).resolve_left hcut.gap_ne
  obtain rfl := hconcat.trans List.concat_eq_append
  have hblanks : AllBlank blanks := fun c hc => hcut.blank c (List.mem_append_left _ hc)
  have hb : isBlank b = true := hcut.blank b (List.mem_append_right _ List.mem_cons_self)
  have htext : source = (front ++ [d] ++ blanks) ++ b :: word := by
    rw [hcut.text]
    simp only [List.append_assoc, List.cons_append, List.nil_append]
  obtain ⟨us, rfl, hends⟩ := hlexed.cut htext hb hne (List.all_eq_true.mp hletters)
  refine ⟨us, blanks, ?_, hblanks, hends⟩
  rw [Lexer.wordToken, hkeyword]

/-- What ends in an operand does not end in an operator. -/
theorem IsCut.not_symbol {us more : List (List Char × Token)} {fs : List Lexeme} {s : Symbol}
    {q : Span} {blanks : List Char} (hcut : IsCut source front d gap word)
    (hlexed : Lexed source (us ++ more)) (hblanks : AllBlank blanks)
    (hends : EndsWith (front ++ [d] ++ blanks) us)
    (hus : (fs ++ [(⟨.symbol s, q⟩ : Lexeme)]).map (·.token) = us.map (·.2))
    (hparen : s ≠ .closeParen) (hbrace : s ≠ .closeBrace) : False := by
  rw [List.map_append] at hus
  generalize htext : front ++ [d] ++ blanks = cs at hends
  cases hends with
  | nothing hgaps => exact List.append_ne_nil_of_right_ne_nil _ (List.cons_ne_nil _ _) hus
  | @token vs taken gaps t ts hgaps =>
      rw [List.map_append] at hus
      obtain ⟨-, hlast⟩ := List.append_inj' hus rfl
      cases hlast
      have hmem : (taken, Token.symbol s) ∈ ts ++ [(taken, .symbol s)] ++ more :=
        List.mem_append_left _ (List.mem_append_right _ List.mem_cons_self)
      have hoperand := hcut.operand
      rw [not_endsOperand_of_symbol hlexed hmem hparen hbrace htext hcut.solid hblanks hgaps]
        at hoperand
      cases hoperand

/-- **Only a cast is cut**: in front of a word that ends a lambda, the one thing that looks
like an operand is a cast. -/
theorem endsInCast_of_isCut {lambda : LambdaExpr} (h : parseLambda source = .ok lambda)
    (hcut : IsCut source front d gap word) : EndsInCast source word := by
  obtain ⟨ls, hls, hread⟩ := parseLambda_eq_ok.mp h
  obtain ⟨ts, hlexed, htokens⟩ := lexed_of_tokenize hls
  obtain ⟨us, blanks, rfl, hblanks, hends⟩ := hcut.tokens hlexed
  rw [List.map_append, List.map_singleton] at htokens
  obtain ⟨fs, q, rfl, hfs⟩ := lexemes_last htokens
  obtain ⟨hawaits, hfront⟩ := (readLambda_sound hread).awaits
  cases hawaits with
  | nothing => exact absurd rfl hfront
  | symbol hparen hbrace => exact (hcut.not_symbol hlexed hblanks hends hfs hparen hbrace).elim
  | @cast fs n t p q' r ht =>
      rw [List.append_assoc] at hls
      exact ⟨fs, n, t, p, q', r, q, hls, ht⟩

/-! ### Keys -/

/-- **A key is cut at a cast or not at all.**  A `groupby` line with a lambda that compiles
groups by the whole of it and lists the items, unless the lambda ends in a cast of a bare
word with white space between the two: then it may group by what is in front of the white
space, and take the word for the aggregate. -/
theorem groupBy_whole_or_cut_at_cast {lambda : Lambda} (htrim : trim source = source)
    (h : Lambda.compile source .any = .ok lambda) :
    ofLine ("groupby ".toList ++ source) = .ok (.groupBy (String.ofList source) .items) ∨
      ∃ front d gap word, IsCut source front d gap word ∧ EndsInCast source word ∧
        ofLine ("groupby ".toList ++ source)
          = .ok (.groupBy (String.ofList (front ++ [d])) (Aggregate.ofName word)) := by
  obtain ⟨-, harrow, hread, -, -, -⟩ := Lambda.comesFrom_of_compile h
  rw [htrim] at harrow hread
  obtain ⟨hstart, hend⟩ := solid_of_trim htrim
  rw [ofLine_groupBy hstart hend]
  rcases readGroupBy_cases hstart hend harrow with hwhole | ⟨front, d, gap, word, hcut, hline⟩
  · exact Or.inl hwhole
  · exact Or.inr ⟨front, d, gap, word, hcut, endsInCast_of_isCut hread hcut, hline⟩

/-- A lambda with an arrow, a cast, white space and a word inside quotes. -/
def quotedCast : Lambda where
  source := "x => x ?? \"=> (int) count\""
  goal := .any
  expr := ⟨"x", .binary ⟨5, 26⟩ .coalesce (.name ⟨5, 6⟩ "x")
    (.literal ⟨10, 26⟩ (.str "=> (int) count"))⟩

/-- What is inside the quotes is not where a key is cut. -/
theorem quotedCast_whole_or_cut_at_cast :
    trim quotedCast.source.toList = quotedCast.source.toList ∧
      Lambda.compile quotedCast.source.toList .any = .ok quotedCast ∧
      (ofLine ("groupby ".toList ++ quotedCast.source.toList)
          = .ok (.groupBy (String.ofList quotedCast.source.toList) .items) ∨
        ∃ front d gap word, IsCut quotedCast.source.toList front d gap word ∧
          EndsInCast quotedCast.source.toList word ∧
          ofLine ("groupby ".toList ++ quotedCast.source.toList)
            = .ok (.groupBy (String.ofList (front ++ [d])) (Aggregate.ofName word))) := by
  have hcompile : Lambda.compile quotedCast.source.toList .any = .ok quotedCast := by cbv
  exact ⟨rfl, hcompile, groupBy_whole_or_cut_at_cast rfl hcompile⟩

/-- A lambda that ends in a cast compiles and loses the word of the cast. -/
theorem castOfItem_cut : ¬ ∀ (source : List Char) (lambda : Lambda), trim source = source →
    Lambda.compile source .any = .ok lambda →
      ofLine ("groupby ".toList ++ source) = .ok (.groupBy (String.ofList source) .items) := by
  intro h
  have hcompile : Lambda.compile "x => (int) x".toList .any = .ok ⟨"x => (int) x", .any,
      ⟨"x", .cast ⟨5, 12⟩ .int (.name ⟨11, 12⟩ "x")⟩⟩ := by cbv
  have hcut : readGroupBy "x => (int) x".toList = .ok (.groupBy "x => (int)" .items) := by cbv
  obtain ⟨hstart, hend⟩ := solid_of_trim (show trim "x => (int) x".toList = _ from rfl)
  have hwhole := h _ _ rfl hcompile
  rw [ofLine_groupBy hstart hend, hcut] at hwhole
  injection hwhole with hwhole
  injection hwhole with hkey
  exact absurd hkey (by decide)

end LambdaShell.Command
