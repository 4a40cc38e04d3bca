/-
Parentheses around the body of a lambda.

They change nothing but spans, and cost one level of the budget.  There is one exception, and
the grammar knows nothing of it: three tokens `( type )` are taken for a cast whatever comes
behind them, so a body that is the name of a type cannot be put in parentheses.

Two things are shown on the way.  The text in front of the arrow and the text behind it are
read alike whatever stands next to them, and the grammar sees nothing of a token but the
token: with other spans, the same tokens derive the same tree.
-/
import Mathlib
import LambdaShell.Proofs.Expr.Characters
import LambdaShell.Proofs.Expr.Confined
import LambdaShell.Proofs.Expr.Printing
import LambdaShell.Proofs.Expr.Sentences

namespace LambdaShell

open Lexer LambdaShell.Expr

/-! ### The same tokens in other places -/

/-- Whether an expression suggests a name does not depend on its span. -/
theorem impliedName?_of_bare {d e : Expr} (h : d.bare = e.bare) :
    d.impliedName? = e.impliedName? := by
  cases d <;> cases e <;> simp_all [bare, impliedName?]

/-- A single name stays a single name. -/
theorem one_of_tokens {ts us : List Lexeme} {n : String} {s : Span}
    (h : us.map (·.token) = ts.map (·.token)) (hus : us = [⟨.name n, s⟩]) :
    ∃ q, ts = [⟨.name n, q⟩] := by
  subst hus
  exact lexemes_one h.symm

mutual

/-- With other spans, the same tokens derive the same tree. -/
theorem Derives.restores {p : Phrase} {ts us : List Lexeme} {e : Expr} :
    Derives p ts e → us.map (·.token) = ts.map (·.token) → Restores p us e
  | .conditional htest hyes hno, h => by
      rw [List.map_append, List.map_cons, List.map_append, List.map_cons] at h
      obtain ⟨xs, q, ws, rfl, hxs, hws⟩ := lexemes_middle h
      obtain ⟨ys, r, zs, rfl, hys, hzs⟩ := lexemes_middle hws
      obtain ⟨test, htest, htest'⟩ := htest.restores hxs
      obtain ⟨yes, hyes, hyes'⟩ := hyes.restores hys
      obtain ⟨no, hno, hno'⟩ := hno.restores hzs
      exact ⟨_, .conditional htest hyes hno, by rw [bare, bare, htest', hyes', hno']⟩
  | .expr hd, h => (hd.restores h).imp fun _ hd => ⟨.expr hd.1, hd.2⟩
  | .orElse hlhs hrhs, h => by
      rw [List.map_append, List.map_cons] at h
      obtain ⟨xs, q, ys, rfl, hxs, hys⟩ := lexemes_middle h
      obtain ⟨lhs, hlhs, hlhs'⟩ := hlhs.restores hxs
      obtain ⟨rhs, hrhs, hrhs'⟩ := hrhs.restores hys
      exact ⟨_, .orElse hlhs hrhs, by rw [Rules.binary, bare, Rules.binary, bare, hlhs', hrhs']⟩
  | .coalesce hd, h => (hd.restores h).imp fun _ hd => ⟨.coalesce hd.1, hd.2⟩
  | .infixed hop hlhs hrhs, h => by
      rw [List.map_append, List.map_cons] at h
      obtain ⟨xs, q, ys, rfl, hxs, hys⟩ := lexemes_middle h
      obtain ⟨lhs, hlhs, hlhs'⟩ := hlhs.restores hxs
      obtain ⟨rhs, hrhs, hrhs'⟩ := hrhs.restores hys
      exact ⟨_, .infixed hop hlhs hrhs, by rw [Rules.binary, bare, Rules.binary, bare, hlhs', hrhs']⟩
  | .operand hd, h => (hd.restores h).imp fun _ hd => ⟨.operand hd.1, hd.2⟩
  | .prefixed hd, h => by
      obtain ⟨q, xs, rfl, hxs⟩ := lexemes_cons h
      obtain ⟨d, hd, hd'⟩ := hd.restores hxs
      exact ⟨_, .prefixed hd, by rw [bare, bare, hd']⟩
  | .cast ht hd, h => by
      obtain ⟨q, vs, rfl, hvs⟩ := lexemes_cons h
      obtain ⟨r, ws, rfl, hws⟩ := lexemes_cons hvs
      obtain ⟨s, xs, rfl, hxs⟩ := lexemes_cons hws
      obtain ⟨d, hd, hd'⟩ := hd.restores hxs
      exact ⟨_, .cast ht hd, by rw [bare, bare, hd']⟩
  | .unary hd, h => (hd.restores h).imp fun _ hd => ⟨.unary hd.1, hd.2⟩
  | .member hd hmath, h => by
      rw [List.map_append] at h
      obtain ⟨xs, ys, rfl, hxs, hys⟩ := List.map_eq_append_iff.mp h
      obtain ⟨q, zs, rfl, hzs⟩ := lexemes_cons hys
      obtain ⟨r, rfl⟩ := lexemes_one hzs
      obtain ⟨d, hd, hd'⟩ := hd.restores hxs
      refine ⟨_, .member hd fun s hs => ?_, by rw [bare, bare, hd']⟩
      obtain ⟨q, hq⟩ := one_of_tokens hxs hs
      exact hmath q hq
  | .method hd hmath hargs, h => by
      rw [List.map_append] at h
      obtain ⟨xs, ys, rfl, hxs, hys⟩ := List.map_eq_append_iff.mp h
      obtain ⟨q, us, rfl, hus⟩ := lexemes_cons hys
      obtain ⟨r, vs, rfl, hvs⟩ := lexemes_cons hus
      obtain ⟨s, ws, rfl, hws⟩ := lexemes_cons hvs
      rw [List.map_append] at hws
      obtain ⟨zs, t, rfl, hzs⟩ := lexemes_last hws
      obtain ⟨d, hd, hd'⟩ := hd.restores hxs
      obtain ⟨ds, hargs, hargs'⟩ := hargs.restores hzs
      refine ⟨_, .method hd (fun s hs => ?_) hargs, by rw [bare, bare, hd', hargs']⟩
      obtain ⟨q, hq⟩ := one_of_tokens hxs hs
      exact hmath q hq
  | .access hd, h => (hd.restores h).imp fun _ hd => ⟨.access hd.1, hd.2⟩
  | .literal hv, h => by
      obtain ⟨q, rfl⟩ := lexemes_one h
      exact ⟨_, .literal hv, by rw [bare, bare]⟩
  | .name, h => by
      obtain ⟨q, rfl⟩ := lexemes_one h
      exact ⟨_, .name, by rw [bare, bare]⟩
  | .paren hd hcast, h => by
      obtain ⟨q, ws, rfl, hws⟩ := lexemes_cons h
      rw [List.map_append] at hws
      obtain ⟨xs, r, rfl, hxs⟩ := lexemes_last hws
      obtain ⟨d, hd, hd'⟩ := hd.restores hxs
      refine ⟨_, .paren hd fun n s hs => ?_, by rw [bare_withSpan, bare_withSpan, hd']⟩
      obtain ⟨q, hq⟩ := one_of_tokens hxs hs
      exact hcast n q hq
  | .record hms, h => by
      obtain ⟨q, vs, rfl, hvs⟩ := lexemes_cons h
      obtain ⟨r, ws, rfl, hws⟩ := lexemes_cons hvs
      rw [List.map_append] at hws
      obtain ⟨xs, s, rfl, hxs⟩ := lexemes_last hws
      obtain ⟨ms, hms, hms'⟩ := hms.restores hxs
      exact ⟨_, .record hms, by rw [bare, bare, hms']⟩
  | .math hargs, h => by
      obtain ⟨q, ts, rfl, hts⟩ := lexemes_cons h
      obtain ⟨r, us, rfl, hus⟩ := lexemes_cons hts
      obtain ⟨s, vs, rfl, hvs⟩ := lexemes_cons hus
      obtain ⟨t, ws, rfl, hws⟩ := lexemes_cons hvs
      rw [List.map_append] at hws
      obtain ⟨xs, u, rfl, hxs⟩ := lexemes_last hws
      obtain ⟨ds, hargs, hargs'⟩ := hargs.restores hxs
      exact ⟨_, .math hargs, by rw [bare, bare, hargs']⟩

theorem DerivesArgs.restores {ts us : List Lexeme} {es : List Expr} :
    DerivesArgs ts es → us.map (·.token) = ts.map (·.token) →
      ∃ ds, DerivesArgs us ds ∧ bareArgs ds = bareArgs es
  | .none, h => by
      rw [List.map_eq_nil_iff.mp h]
      exact ⟨[], .none, rfl⟩
  | .one hd, h => by
      obtain ⟨d, hd, hd'⟩ := hd.restores h
      exact ⟨[d], .one hd, congrArg (· :: []) hd'⟩
  | .more hd hmore, h => by
      rw [List.map_append, List.map_cons] at h
      obtain ⟨xs, q, ys, rfl, hxs, hys⟩ := lexemes_middle h
      obtain ⟨d, hd, hd'⟩ := hd.restores hxs
      obtain ⟨ds, hmore, hmore'⟩ := hmore.restores hys
      cases ds with
      | nil => cases hmore'
      | cons d' ds =>
          refine ⟨d :: d' :: ds, .more hd hmore, ?_⟩
          rw [bareArgs_cons, hd', hmore', ← bareArgs_cons]

theorem DerivesMember.restores {ts us : List Lexeme} {m : String × Expr} :
    DerivesMember ts m → us.map (·.token) = ts.map (·.token) →
      ∃ d, DerivesMember us (m.1, d) ∧ d.bare = m.2.bare
  | .named hd, h => by
      obtain ⟨q, ws, rfl, hws⟩ := lexemes_cons h
      obtain ⟨r, xs, rfl, hxs⟩ := lexemes_cons hws
      obtain ⟨d, hd, hd'⟩ := hd.restores hxs
      exact ⟨d, .named hd, hd'⟩
  | .suggested hd hn, h => by
      obtain ⟨d, hd, hd'⟩ := hd.restores h
      exact ⟨d, .suggested hd ((impliedName?_of_bare hd').trans hn), hd'⟩

theorem DerivesMembers.restores {ts us : List Lexeme} {ms : List (String × Expr)} :
    DerivesMembers ts ms → us.map (·.token) = ts.map (·.token) →
      ∃ ds, DerivesMembers us ds ∧ bareMembers ds = bareMembers ms
  | .none, h => by
      rw [List.map_eq_nil_iff.mp h]
      exact ⟨[], .none, rfl⟩
  | .last hm, h => by
      obtain ⟨d, hd, hd'⟩ := hm.restores h
      exact ⟨[(_, d)], .last hd, congrArg (fun b => [(_, b)]) hd'⟩
  | .more hm hmore, h => by
      rw [List.map_append, List.map_cons] at h
      obtain ⟨xs, q, ys, rfl, hxs, hys⟩ := lexemes_middle h
      obtain ⟨d, hd, hd'⟩ := hm.restores hxs
      obtain ⟨ds, hmore, hmore'⟩ := hmore.restores hys
      refine ⟨(_, d) :: ds, .more hd hmore, ?_⟩
      rw [bareMembers_cons, hd', hmore', ← bareMembers_cons]

end

/-! ### Text next to other text -/

variable {c d : Char} {us vs cs taken : List Char} {t : Token}

theorem front_of_not_mem (h : taken <+: us ++ d :: vs) (hd : d ∉ taken) : taken <+: us := by
  rcases List.prefix_or_prefix_of_prefix h (List.prefix_append us (d :: vs)) with hfront | ⟨ws, rfl⟩
  · exact hfront
  · cases ws with
    | nil => simp
    | cons e ws =>
        obtain ⟨rfl, -⟩ := List.cons_prefix_cons.mp ((List.prefix_append_right_inj us).mp h)
        exact absurd (List.mem_append_right us List.mem_cons_self) hd

/-- Words and numbers are read from a run of characters. -/
theorem isRun_scan (hc : isNameStart c = true ∨ c.isDigit = true) : IsRun (scan c cs).taken := by
  unfold scan
  by_cases hname : isNameStart c = true
  · rw [if_pos hname]
    exact .word _
  · rw [if_neg hname, if_pos (hc.resolve_left hname)]
    exact .number _

/-- A word or a number ends in front of a character that no number is written with. -/
theorem scan_run_behind (hc : isNameStart c = true ∨ c.isDigit = true)
    (hd : isNumberChar d = false) (us vs : List Char) : scan c (us ++ d :: vs) = scan c us := by
  have htaken : (scan c (us ++ d :: vs)).taken <+: c :: us := by
    refine front_of_not_mem (Sliced.taken_front c (us ++ d :: vs)).1 fun hmem => ?_
    rw [(isRun_scan hc).chars d hmem] at hd
    cases hd
  exact (scan_of_front (List.prefix_append us _) htaken).symm

theorem stringBody_append {quote : Char} (hslash : quote ≠ '\\')
    (h : (stringBody quote us).2 = true) (vs : List Char) :
    stringBody quote (us ++ vs) = stringBody quote us := by
  fun_induction stringBody quote us with
  | case1 => cases h
  | case2 => cases h
  | case3 c cs hc ih =>
      rw [List.cons_append, List.cons_append, stringBody, if_neg hc, ih h]
  | case4 cs hescape =>
      rw [List.cons_append, stringBody, if_pos rfl]
      exact fun _ _ heq => absurd heq hslash
  | case5 => cases h
  | case6 c cs hescape hquote hc ih =>
      rw [List.cons_append, stringBody, if_neg hquote, if_neg hc, ih h]
      exact fun _ _ heq => absurd heq hc

/-- A string that ends is read alike whatever comes behind it. -/
theorem scanString_append {quote : Char} (hquote : quote = '"' ∨ quote = '\'')
    (h : (scanString quote us).result = .ok t) (vs : List Char) :
    scanString quote (us ++ vs) = scanString quote us := by
  have hslash : quote ≠ '\\' := by
    rcases hquote with rfl | rfl <;> decide
  have hclosed : (stringBody quote us).2 = true := by
    refine Bool.of_not_eq_false fun hopen => ?_
    simp only [scanString, hopen] at h
    cases h
  unfold scanString
  rw [stringBody_append hslash hclosed]

/-- No symbol but the closing parenthesis ends in one. -/
theorem scanSymbol_close : scanSymbol c (us ++ [')']) = scanSymbol c us := by
  refine (scanSymbol_of_front (List.prefix_append us [')']) ?_).symm
  unfold scanSymbol
  split
  · rename_i s hs
    have hfits := List.find?_some hs
    have hfront : s.text.toList <+: (c :: us) ++ [')'] := List.isPrefixOf_iff_prefix.mp hfits
    rw [List.prefix_concat_iff] at hfront
    refine hfront.resolve_left fun hwhole => ?_
    have hone : s.text.toList.getLast? = some ')' → s.text.toList.length = 1 := by
      cases s <;> decide
    rw [hwhole, List.getLast?_concat, List.length_append] at hone
    cases hone rfl
  · exact List.prefix_append [c] us

/-- A token at the end of a text is read alike in front of a closing parenthesis. -/
theorem scan_close (h : (scan c us).result = .ok t) : scan c (us ++ [')']) = scan c us := by
  by_cases hrun : isNameStart c = true ∨ c.isDigit = true
  · exact scan_run_behind hrun rfl us []
  obtain ⟨hname, hdigit⟩ := not_or.mp hrun
  unfold scan at h ⊢
  rw [if_neg hname, if_neg hdigit] at h
  rw [if_neg hname, if_neg hdigit, if_neg hname, if_neg hdigit]
  by_cases hquote : c = '"' ∨ c = '\''
  · rw [if_pos hquote] at h
    rw [if_pos hquote, if_pos hquote, scanString_append hquote h]
  · rw [if_neg hquote, if_neg hquote, scanSymbol_close]

theorem scan_closeParen (cs : List Char) : scan ')' cs = ⟨.ok (.symbol .closeParen), [')']⟩ := rfl

theorem scan_openParen (cs : List Char) : scan '(' cs = ⟨.ok (.symbol .openParen), ['(']⟩ := rfl

theorem scan_arrow (cs : List Char) : scan '=' ('>' :: cs) = ⟨.ok (.symbol .arrow), ['=', '>']⟩ := rfl

/-- A closing parenthesis at the end of a text is one more token. -/
theorem Lexed.close {ts : List (List Char × Token)} (h : Lexed cs ts) :
    Lexed (cs ++ [')']) (ts ++ [([')'], .symbol .closeParen)]) := by
  induction h with
  | nil => exact @Lexed.token ')' [] [] _ [] rfl (scan_closeParen []) .nil
  | gap hc _ ih => exact .gap hc ih
  | @token c more rest t ts hc hscan _ ih =>
      rw [List.cons_append, List.append_assoc]
      refine .token hc ?_ ih
      have hresult : (scan c (more ++ rest)).result = .ok t := by rw [hscan]
      rw [← List.append_assoc, scan_close hresult, hscan]

theorem scanString_str {quote : Char} (h : scanString quote cs = ⟨.ok t, taken⟩) :
    ∃ s, t = .str s := by
  unfold scanString at h
  extract_lets body text flaw at h
  split at h
  · split at h
    · cases (Scan.mk.inj h).1
      exact ⟨_, rfl⟩
    · cases (Scan.mk.inj h).1
  · cases (Scan.mk.inj h).1

/-- A name is read where a word or a number begins. -/
theorem starts_of_scan_name {n : String} (h : scan c cs = ⟨.ok (.name n), taken⟩) :
    isNameStart c = true ∨ c.isDigit = true := by
  by_contra hrun
  obtain ⟨hname, hdigit⟩ := not_or.mp hrun
  unfold scan at h
  rw [if_neg hname, if_neg hdigit] at h
  split at h
  · obtain ⟨s, hs⟩ := scanString_str h
    cases hs
  · unfold scanSymbol at h
    split at h
    · cases (Scan.mk.inj h).1
    · cases (Scan.mk.inj h).1

/-- A symbol is read where its first character stands. -/
theorem first_of_scan_symbol {s : Symbol} (h : scan c cs = ⟨.ok (.symbol s), taken⟩) :
    s.text.toList.head? = some c := by
  obtain ⟨more, -, htaken, -⟩ := Sliced.taken_cons c cs
  obtain rfl : taken = c :: more := by
    rw [← htaken, h]
  rw [← taken_symbol h, List.head?_cons]

/-- A token that a parameter is written with. -/
def Token.InParam (t : Token) : Prop :=
  (∃ n, t = .name n) ∨ t = .symbol .openParen ∨ t = .symbol .closeParen

/-- Such a token is read alike whatever stands behind the arrow. -/
theorem scan_inParam (ht : t.InParam) (h : scan c (us ++ '=' :: vs) = ⟨.ok t, taken⟩)
    (ws : List Char) : scan c (us ++ '=' :: ws) = ⟨.ok t, taken⟩ ∧ '=' ∉ taken := by
  rcases ht with ⟨n, rfl⟩ | rfl | rfl
  · have hc := starts_of_scan_name h
    refine ⟨?_, fun hmem => ?_⟩
    · have hequals : isNumberChar '=' = false := rfl
      rw [scan_run_behind hc hequals, ← scan_run_behind hc hequals us vs, h]
    · have hrun : IsRun (scan c (us ++ '=' :: vs)).taken := isRun_scan hc
      rw [h] at hrun
      exact absurd (hrun.chars '=' hmem) (by decide)
  · obtain rfl : '(' = c := Option.some.inj (first_of_scan_symbol h)
    rw [taken_symbol h, scan_openParen]
    exact ⟨rfl, by decide⟩
  · obtain rfl : ')' = c := Option.some.inj (first_of_scan_symbol h)
    rw [taken_symbol h, scan_closeParen]
    exact ⟨rfl, by decide⟩

/-- **The parameter does not see the body**: whatever comes behind the arrow, the tokens in
front of it are the same. -/
theorem Lexed.change_body {ps bs : List Token} {front body : List Char}
    {ts : List (List Char × Token)} (h : Lexed (front ++ '=' :: '>' :: body) ts)
    (hts : ts.map (·.2) = ps ++ .symbol .arrow :: bs) (hps : ∀ t ∈ ps, t.InParam)
    (hfree : ArrowFree front) :
    ∃ us, Lexed body us ∧ us.map (·.2) = bs ∧ ∀ body' vs, Lexed body' vs →
      ∃ ws, Lexed (front ++ '=' :: '>' :: body') ws ∧
        ws.map (·.2) = ps ++ .symbol .arrow :: vs.map (·.2) := by
  generalize htext : front ++ '=' :: '>' :: body = text at h
  induction h generalizing front ps with
  | nil => exact absurd htext (by simp)
  | @gap c cs ts hc h ih =>
      cases front with
      | nil =>
          cases htext
          cases hc
      | cons d front =>
          obtain ⟨rfl, rfl⟩ := List.cons.inj htext
          obtain ⟨us, hus, hbs, hchange⟩ := ih hts hps (arrowFree_cons.mp hfree).2 rfl
          refine ⟨us, hus, hbs, fun body' vs hvs => ?_⟩
          obtain ⟨ws, hws, hmap⟩ := hchange body' vs hvs
          exact ⟨ws, .gap hc hws, hmap⟩
  | @token c more rest t ts hc hscan h ih =>
      cases ps with
      | nil =>
          obtain ⟨rfl, hbs⟩ := List.cons.inj hts
          obtain ⟨rfl, rfl⟩ : c = '=' ∧ more = ['>'] := List.cons.inj (taken_symbol hscan)
          cases front with
          | nil =>
              cases htext
              refine ⟨ts, h, hbs, fun body' vs hvs => ⟨(['=', '>'], .symbol .arrow) :: vs, ?_, rfl⟩⟩
              exact @Lexed.token '=' ['>'] body' _ vs rfl (scan_arrow body') hvs
          | cons d front =>
              -- an arrow that begins earlier is an arrow in the front
              obtain ⟨rfl, htail⟩ := List.cons.inj htext
              cases front with
              | nil => cases htail
              | cons e front =>
                  obtain ⟨rfl, -⟩ := List.cons.inj htail
                  exact absurd ⟨rfl, rfl⟩ ((arrowFree_cons.mp hfree).1 '>' rfl)
      | cons u ps =>
          obtain ⟨htoken, hmore⟩ := List.cons.inj hts
          obtain ⟨hu, hparam⟩ := List.forall_mem_cons.mp hps
          obtain rfl : t = u := htoken
          cases front with
          | nil =>
              obtain ⟨rfl, htail⟩ := List.cons.inj htext
              rw [← htail, scan_arrow] at hscan
              rcases hu with ⟨n, rfl⟩ | rfl | rfl <;> cases hscan
          | cons d front =>
              obtain ⟨rfl, htail⟩ := List.cons.inj htext
              have hwhole : front ++ '=' :: '>' :: body = more ++ rest := htail
              rw [← hwhole] at hscan
              have hequals := List.not_mem_of_not_mem_cons (scan_inParam hu hscan []).2
              obtain ⟨front, rfl⟩ := front_of_not_mem ⟨rest, hwhole.symm⟩ hequals
              rw [List.append_assoc] at hwhole
              obtain ⟨us, hus, hbs, hchange⟩ :=
                ih hmore hparam (arrowFree_append.mp (arrowFree_cons.mp hfree).2).2.1
                  (List.append_cancel_left hwhole)
              refine ⟨us, hus, hbs, fun body' vs hvs => ?_⟩
              obtain ⟨ws, hws, hmap⟩ := hchange body' vs hvs
              refine ⟨(d :: more, t) :: ws, ?_, congrArg (t :: ·) hmap⟩
              rw [List.cons_append, List.append_assoc]
              refine .token hc ?_ hws
              rw [← List.append_assoc]
              exact (scan_inParam hu hscan _).1

/-! ### Lambdas -/

/-- A lambda with its body in parentheses. -/
def inParens (front body : List Char) : List Char :=
  front ++ "=> (".toList ++ body ++ ")".toList

/-- The text is the name of a type and nothing else. -/
def IsTypeName (text : List Char) : Prop :=
  ∃ n t s, tokenize text = .ok [⟨.name n, s⟩] ∧ CastType.ofName? n = some t

theorem DerivesParam.inParam {ps : List Lexeme} {n : String} (h : DerivesParam ps n) :
    ∀ t ∈ ps.map (·.token), t.InParam := by
  cases h with
  | bare => simp [Token.InParam]
  | paren => simp [Token.InParam]

/-- With other spans, the same tokens are the same parameter. -/
theorem DerivesParam.restores {ps us : List Lexeme} {n : String} (h : DerivesParam ps n)
    (hus : us.map (·.token) = ps.map (·.token)) : DerivesParam us n := by
  cases h with
  | bare =>
      obtain ⟨q, rfl⟩ := lexemes_one hus
      exact .bare
  | paren =>
      obtain ⟨p, vs, rfl, hvs⟩ := lexemes_cons hus
      obtain ⟨q, ws, rfl, hws⟩ := lexemes_cons hvs
      obtain ⟨r, rfl⟩ := lexemes_one hws
      exact .paren

variable {front body : List Char} {lambda : LambdaExpr}

theorem Lexed.enclosed {us : List (List Char × Token)} (h : Lexed body us) :
    Lexed (' ' :: '(' :: (body ++ [')']))
      ((['('], .symbol .openParen) :: (us ++ [([')'], .symbol .closeParen)])) :=
  .gap rfl (@Lexed.token '(' [] _ _ _ rfl (scan_openParen _) h.close)

/-- The tokens of a lambda with its body in parentheses are those of the lambda and two more. -/
theorem tokenize_inParens (hfree : ArrowFree front)
    (h : parseLambda (front ++ "=>".toList ++ body) = .ok lambda) :
    ∃ ps a o ts c us, DerivesParam ps lambda.param ∧ Restores .expr ts lambda.body ∧
      tokenize (inParens front body) = .ok (ps ++ ⟨.symbol .arrow, a⟩ :: ⟨.symbol .openParen, o⟩ ::
        (ts ++ [⟨.symbol .closeParen, c⟩])) ∧
      tokenize body = .ok us ∧ us.map (·.token) = ts.map (·.token) := by
  obtain ⟨ls, hls, hread⟩ := parseLambda_eq_ok.mp h
  obtain ⟨ts, hlexed, htokens⟩ := lexed_of_tokenize hls
  have hsentence := readLambda_sound hread
  cases hsentence with
  | @lambda ps bs param e a hparam hbody =>
      rw [List.map_append, List.map_cons] at htokens
      have htext : front ++ "=>".toList ++ body = front ++ '=' :: '>' :: body :=
        List.append_assoc front _ body
      rw [htext] at hlexed
      obtain ⟨us, hus, hmap, hchange⟩ := hlexed.change_body htokens.symm hparam.inParam hfree
      obtain ⟨ws, hws, hwhole⟩ := hchange _ _ hus.enclosed
      have htext' : inParens front body = front ++ '=' :: '>' :: ' ' :: '(' :: (body ++ [')']) := by
        rw [inParens, List.append_assoc, List.append_assoc]
        rfl
      rw [← htext'] at hws
      obtain ⟨ls, hls, hnew⟩ := hws.tokenize_eq
      rw [hwhole, List.map_cons, List.map_append] at hnew
      obtain ⟨ps', a', rest, rfl, hps', hrest⟩ := lexemes_middle hnew
      obtain ⟨o, rest, rfl, hrest'⟩ := lexemes_cons hrest
      obtain ⟨bs', c, rfl, hbs'⟩ := lexemes_last hrest'
      obtain ⟨vs, hvs, hbody'⟩ := hus.tokenize_eq
      exact ⟨ps', a', o, bs', c, vs, hparam.restores hps', hbody.restores (hbs'.trans hmap), hls, hvs,
        hbody'.trans hbs'.symm⟩

theorem Rules.expr_of_unary_error {stop : Nat} {R : Rules} {ts : List Lexeme} {issue : Issue}
    (h : unaryAt stop R ts = .error issue) : exprAt stop R ts = .error issue := by
  have hlevel : ∀ tiers, levelAt stop R tiers ts = .error issue := by
    intro tiers
    induction tiers with
    | nil => exact h
    | cons t tiers ih =>
        show (levelAt stop R tiers ts >>= _) = _
        rw [ih]
        rfl
  have hcoalesce : coalesceAt stop R ts = .error issue := by
    show (levelAt stop R Tier.all ts >>= _) = _
    rw [hlevel]
    rfl
  show (coalesceAt stop R ts >>= _) = _
  rw [hcoalesce]
  rfl

/-- Three tokens `( type )` are the beginning of a cast, and there is nothing to cast. -/
theorem expr_of_lone_type {n : String} {t : CastType} {o s c : Span} {stop : Nat}
    (ht : CastType.ofName? n = some t) :
    (Rules.ofBudget stop maxDepth).expr
        [⟨.symbol .openParen, o⟩, ⟨.name n, s⟩, ⟨.symbol .closeParen, c⟩]
      = .error ⟨stop, .expected .expression none⟩ := by
  have hlead : Lead.next? [⟨.symbol .openParen, o⟩, ⟨.name n, s⟩, ⟨.symbol .closeParen, c⟩]
      = some (.cast t, []) := by
    rw [Lead.next?, ht]
    rfl
  refine Rules.expr_of_unary_error ?_
  unfold Rules.unaryAt
  rw [hlead]
  rfl

/-- **Parentheses around a body change nothing**, unless the body is the name of a type.  The
lambda has the same parameter and, spans apart, the same tree, or it needs more levels than
there are.  The name of a type in parentheses is taken for a cast of what is not there. -/
theorem parseLambda_inParens (hfree : ArrowFree front)
    (h : parseLambda (front ++ "=>".toList ++ body) = .ok lambda) :
    (¬ IsTypeName body →
      (∃ e, parseLambda (inParens front body) = .ok ⟨lambda.param, e⟩ ∧ e.bare = lambda.body.bare) ∨
        ∃ offset, parseLambda (inParens front body) = .error [⟨offset, .tooDeep⟩]) ∧
      (IsTypeName body → parseLambda (inParens front body) =
        .error [⟨Text.byteLength (inParens front body), .expected .expression none⟩]) := by
  obtain ⟨ps, a, o, ts, c, us, hparam, ⟨e, he, hbare⟩, hls, hus, htokens⟩ := tokenize_inParens hfree h
  constructor
  · intro htype
    have hbody : Derives .expr (⟨.symbol .openParen, o⟩ :: (ts ++ [⟨.symbol .closeParen, c⟩]))
        (e.withSpan ⟨o.start, c.stop⟩) := by
      refine (Derives.paren he fun n s hts => ?_).weaken (by decide)
      refine Option.eq_none_iff_forall_ne_some.mpr fun t ht => htype ?_
      rw [hts] at htokens
      obtain ⟨q, rfl⟩ := lexemes_one htokens
      exact ⟨n, t, q, hus, ht⟩
    have hsentence := Sentence.lambda (a := a) hparam hbody
    rcases hsentence.upToDepth with hread | ⟨offset, hread⟩
    · refine Or.inl ⟨_, parseLambda_eq_ok.mpr ⟨_, hls, hread⟩, ?_⟩
      rw [bare_withSpan, hbare]
    · refine Or.inr ⟨offset, ?_⟩
      unfold parseLambda
      rw [hls]
      dsimp only
      rw [hread]
  · rintro ⟨n, t, s, hname, ht⟩
    cases hus.symm.trans hname
    obtain ⟨q, rfl⟩ := lexemes_one htokens.symm
    rw [List.singleton_append] at hls
    have hread : readLambda (Text.byteLength (inParens front body)) (ps ++ ⟨.symbol .arrow, a⟩ ::
          [⟨.symbol .openParen, o⟩, ⟨.name n, q⟩, ⟨.symbol .closeParen, c⟩])
        = .error ⟨Text.byteLength (inParens front body), .expected .expression none⟩ := by
      show (readParam _ _ >>= _) = _
      rw [hparam.complete]
      show ((Rules.ofBudget _ maxDepth).expr _ >>= _) = _
      rw [expr_of_lone_type ht]
      rfl
    unfold parseLambda
    rw [hls]
    dsimp only
    rw [hread]

/-- A sum survives parentheses, and the name of a type does not. -/
theorem sum_and_type_inParens :
    ArrowFree "x ".toList ∧
      parseLambda ("x ".toList ++ "=>".toList ++ " x + 1".toList) =
        .ok ⟨"x", .binary ⟨5, 10⟩ .add (.name ⟨5, 6⟩ "x") (.literal ⟨9, 10⟩ (.int 1))⟩ ∧
      ((∃ e, parseLambda "x => ( x + 1)".toList = .ok ⟨"x", e⟩ ∧ e.bare =
          .binary ⟨0, 0⟩ .add (.name ⟨0, 0⟩ "x") (.literal ⟨0, 0⟩ (.int 1))) ∨
        ∃ offset, parseLambda "x => ( x + 1)".toList = .error [⟨offset, .tooDeep⟩]) ∧
      ArrowFree "int ".toList ∧
      parseLambda ("int ".toList ++ "=>".toList ++ "int".toList) = .ok ⟨"int", .name ⟨6, 9⟩ "int"⟩ ∧
      parseLambda "int => (int)".toList = .error [⟨12, .expected .expression none⟩] := by
  have hx : ArrowFree "x ".toList := arrowFree_of_not_occursIn (by decide)
  have hint : ArrowFree "int ".toList := arrowFree_of_not_occursIn (by decide)
  have hsum : parseLambda ("x ".toList ++ "=>".toList ++ " x + 1".toList) =
      .ok ⟨"x", .binary ⟨5, 10⟩ .add (.name ⟨5, 6⟩ "x") (.literal ⟨9, 10⟩ (.int 1))⟩ := by cbv
  have hname : parseLambda ("int ".toList ++ "=>".toList ++ "int".toList) =
      .ok ⟨"int", .name ⟨6, 9⟩ "int"⟩ := by cbv
  have hthree : ¬ IsTypeName " x + 1".toList := by
    rintro ⟨n, t, s, htokens, -⟩
    have hlength : (tokenize " x + 1".toList).map List.length = .ok 3 := by cbv
    rw [htokens] at hlength
    cases hlength
  have htype : IsTypeName "int".toList := ⟨"int", .int, ⟨0, 3⟩, by cbv, rfl⟩
  exact ⟨hx, hsum, (parseLambda_inParens hx hsum).1 hthree, hint, hname,
    (parseLambda_inParens hint hname).2 htype⟩

/-- Parentheses around the name of a type do change something. -/
theorem type_not_inParens : ¬ ∀ (front body : List Char) (lambda : LambdaExpr), ArrowFree front →
    parseLambda (front ++ "=>".toList ++ body) = .ok lambda →
      (∃ e, parseLambda (inParens front body) = .ok ⟨lambda.param, e⟩ ∧ e.bare = lambda.body.bare) ∨
        ∃ offset, parseLambda (inParens front body) = .error [⟨offset, .tooDeep⟩] := by
  intro h
  have hfree : ArrowFree "int ".toList := arrowFree_of_not_occursIn (by decide)
  have hname : parseLambda ("int ".toList ++ "=>".toList ++ "int".toList) =
      .ok ⟨"int", .name ⟨6, 9⟩ "int"⟩ := by cbv
  have hparens : parseLambda (inParens "int ".toList "int".toList) =
      .error [⟨12, .expected .expression none⟩] := by cbv
  rcases h _ _ _ hfree hname with ⟨e, he, -⟩ | ⟨offset, hdeep⟩
  · cases hparens.symm.trans he
  · cases hparens.symm.trans hdeep

end LambdaShell
