/-
How a lambda can end in a name.

In front of a name that ends a sentence stands something that asks for an operand: an
operator, a point, the arrow, or the closing parenthesis of a cast.  The cast is the odd one
out, because that parenthesis looks like the end of an operand.

In the text, white space in front of a last word divides the tokens where it divides the
text: the word is the last token, and what ends in front of the white space is the last
character of the token before it.
-/
import LambdaShell.Proofs.Expr.Completeness
import LambdaShell.Proofs.Expr.Lexing

namespace LambdaShell

/-! ### Tokens -/

/-- The tokens leave off where an operand is wanted. -/
inductive Awaits : List Lexeme → Prop where
  | nothing : Awaits []
  | symbol {front : List Lexeme} {s : Symbol} {q : Span} (hparen : s ≠ .closeParen)
      (hbrace : s ≠ .closeBrace) : Awaits (front ++ [⟨.symbol s, q⟩])
  | cast {front : List Lexeme} {n : String} {t : CastType} {p q r : Span}
      (ht : CastType.ofName? n = some t) :
      Awaits (front ++ [⟨.symbol .openParen, p⟩, ⟨.name n, q⟩, ⟨.symbol .closeParen, r⟩])

theorem Awaits.append {us ts : List Lexeme} (h : Awaits ts) (hus : Awaits us) :
    Awaits (us ++ ts) := by
  cases h with
  | nothing => rwa [List.append_nil]
  | symbol hparen hbrace =>
      rw [← List.append_assoc]
      exact .symbol hparen hbrace
  | cast ht =>
      rw [← List.append_assoc]
      exact .cast ht

theorem Awaits.behind {us ts : List Lexeme} {s : Symbol} {q : Span} (h : Awaits ts)
    (hparen : s ≠ .closeParen) (hbrace : s ≠ .closeBrace) :
    Awaits (us ++ ⟨.symbol s, q⟩ :: ts) := by
  have hus : Awaits (us ++ [⟨.symbol s, q⟩]) := .symbol hparen hbrace
  have happend := h.append hus
  rwa [List.append_assoc] at happend

/-- The last of some tokens behind others is the last of them all. -/
theorem append_last {α : Type} {us vs front : List α} {l : α} (h : us ++ vs = front ++ [l])
    (hvs : vs ≠ []) : ∃ mid, vs = mid ++ [l] ∧ front = us ++ mid := by
  rw [← List.dropLast_concat_getLast hvs, ← List.append_assoc] at h
  obtain ⟨hfront, hlast⟩ := List.append_inj' h rfl
  cases hlast
  exact ⟨vs.dropLast, (List.dropLast_concat_getLast hvs).symm, hfront.symm⟩

theorem Opens.ne_nil {ts : List Lexeme} (h : Opens ts) : ts ≠ [] := by
  cases h with
  | name _ => exact List.cons_ne_nil _ _
  | other _ _ _ => exact List.cons_ne_nil _ _

theorem ne_append_name (us vs : List Lexeme) {front : List Lexeme} {s : Symbol} {r q : Span} {n : String} :
    us ++ (vs ++ [⟨.symbol s, r⟩]) ≠ front ++ [⟨.name n, q⟩] := by
  intro h
  rw [← List.append_assoc] at h
  cases (List.append_inj' h rfl).2

theorem BinaryOp.symbol_ne_close (op : BinaryOp) :
    op.symbol ≠ .closeParen ∧ op.symbol ≠ .closeBrace := by
  cases op <;> exact ⟨nofun, nofun⟩

theorem UnaryOp.symbol_ne_close (op : UnaryOp) :
    op.symbol ≠ .closeParen ∧ op.symbol ≠ .closeBrace := by
  cases op <;> exact ⟨nofun, nofun⟩

/-- What follows an operator leaves off where an operand is wanted, and so does all of it. -/
theorem awaits_behind (us : List Lexeme) {vs front : List Lexeme} {s : Symbol} {r : Span} {l : Lexeme}
    (h : us ++ ⟨.symbol s, r⟩ :: vs = front ++ [l]) (hvs : Opens vs)
    (hs : s ≠ .closeParen ∧ s ≠ .closeBrace)
    (hrest : ∀ mid, vs = mid ++ [l] → Awaits mid) : Awaits front := by
  rw [← List.singleton_append, ← List.append_assoc] at h
  obtain ⟨mid, hmid, rfl⟩ := append_last h hvs.ne_nil
  rw [List.append_assoc]
  exact (hrest mid hmid).behind hs.1 hs.2

/-- In front of a name that ends a phrase, an operand is wanted. -/
theorem Derives.awaits {p : Phrase} {ts : List Lexeme} {e : Expr} {front : List Lexeme}
    {n : String} {q : Span} : Derives p ts e → ts = front ++ [⟨.name n, q⟩] → Awaits front
  | .conditional _ _ hno, hts => by
      rw [← List.cons_append, ← List.append_assoc] at hts
      exact awaits_behind _ hts hno.opens ⟨nofun, nofun⟩ fun _ => hno.awaits
  | .expr h, hts => h.awaits hts
  | .orElse _ hrhs, hts => awaits_behind _ hts hrhs.opens ⟨nofun, nofun⟩ fun _ => hrhs.awaits
  | .coalesce h, hts => h.awaits hts
  | @Derives.infixed _ op _ _ _ _ _ _ _ hrhs, hts =>
      awaits_behind _ hts hrhs.opens op.symbol_ne_close fun _ => hrhs.awaits
  | .operand h, hts => h.awaits hts
  | @Derives.prefixed op _ _ _ h, hts =>
      awaits_behind [] hts h.opens op.symbol_ne_close fun _ => h.awaits
  | @Derives.cast k t ts _ p q r ht h, hts => by
      have hsplit : [⟨.symbol .openParen, p⟩, ⟨.name k, q⟩, ⟨.symbol .closeParen, r⟩] ++ ts
        = front ++ [⟨.name n, _⟩] := hts
      obtain ⟨mid, hmid, rfl⟩ := append_last hsplit h.opens.ne_nil
      have hcast : Awaits ([] ++ [⟨.symbol .openParen, p⟩, ⟨.name k, q⟩,
        ⟨.symbol .closeParen, r⟩]) := .cast ht
      exact (h.awaits hmid).append hcast
  | .unary h, hts => h.awaits hts
  | @Derives.member k us _ d r _ _, hts => by
      have hsplit : us ++ ([⟨.symbol .dot, d⟩] ++ [⟨.name k, r⟩]) = front ++ [⟨.name n, q⟩] := hts
      rw [← List.append_assoc] at hsplit
      obtain ⟨rfl, -⟩ := List.append_inj' hsplit rfl
      exact .symbol nofun nofun
  | @Derives.method _ us vs _ _ _ _ _ _ _ _ _, hts =>
      absurd hts (ne_append_name us (_ :: _ :: _ :: vs))
  | .access h, hts => h.awaits hts
  | .literal hv, hts => by
      obtain ⟨-, hlast⟩ := List.append_inj' (show [] ++ [_] = front ++ [_] from hts) rfl
      cases hlast
      cases hv
  | .name, hts => by
      obtain ⟨rfl, -⟩ := List.append_inj' (show [] ++ [_] = front ++ [_] from hts) rfl
      exact .nothing
  | @Derives.paren us _ _ _ _ _, hts =>
      absurd hts (ne_append_name [] (_ :: us))
  | @Derives.record us _ _ _ _ _, hts =>
      absurd hts (ne_append_name [] (_ :: _ :: us))
  | @Derives.math _ us _ _ _ _ _ _ _, hts =>
      absurd hts (ne_append_name [] (_ :: _ :: _ :: _ :: us))

/-- In front of a name that ends a sentence, an operand is wanted, and something is there. -/
theorem Sentence.awaits {front : List Lexeme} {n : String} {q : Span} {lambda : LambdaExpr}
    (h : Sentence (front ++ [⟨.name n, q⟩]) lambda) : Awaits front ∧ front ≠ [] := by
  generalize hts : front ++ [⟨.name n, q⟩] = ts at h
  cases h with
  | @lambda ps us param body a _ hbody =>
      refine ⟨awaits_behind _ hts.symm hbody.opens ⟨nofun, nofun⟩ fun _ => hbody.awaits, ?_⟩
      rintro rfl
      have hlength := congrArg List.length hts
      have hpos := List.length_pos_iff.mpr hbody.opens.ne_nil
      simp only [List.nil_append, List.length_nil, List.length_append,
        List.length_cons] at hlength
      omega

/-! ### Characters -/

open Lexer

/-- The characters end with the last of the tokens, gaps apart. -/
inductive EndsWith : List Char → List (List Char × Token) → Prop where
  | nothing {gaps : List Char} (hgaps : ∀ c ∈ gaps, isGap c = true) : EndsWith gaps []
  | token (front : List Char) {taken gaps : List Char} {t : Token}
      (ts : List (List Char × Token)) (hgaps : ∀ c ∈ gaps, isGap c = true) :
      EndsWith (front ++ (taken ++ gaps)) (ts ++ [(taken, t)])

theorem EndsWith.gap {c : Char} {cs : List Char} {ts : List (List Char × Token)}
    (h : EndsWith cs ts) (hc : isGap c = true) : EndsWith (c :: cs) ts := by
  cases h with
  | nothing hgaps => exact .nothing (List.forall_mem_cons.mpr ⟨hc, hgaps⟩)
  | token front _ hgaps => exact .token (c :: front) _ hgaps

theorem EndsWith.behind {cs : List Char} {ts : List (List Char × Token)} (h : EndsWith cs ts)
    (taken : List Char) (t : Token) : EndsWith (taken ++ cs) ((taken, t) :: ts) := by
  cases h with
  | nothing hgaps => exact .token [] [] hgaps
  | token front ts hgaps =>
      rw [← List.append_assoc]
      exact .token _ ((taken, t) :: ts) hgaps

theorem isNameChar_of_isAlpha {c : Char} (h : c.isAlpha = true) : isNameChar c = true := by
  simp [isNameChar, Char.isAlphanum, h]

/-- Where a token starts, or anywhere in a name, there is no white space. -/
theorem not_isBlank_of_scan {c : Char} {cs more : List Char} {t : Token}
    (h : scan c cs = ⟨.ok t, c :: more⟩) : Text.isBlank c = false := by
  have hstretch : Stretch (scan c cs).taken (c :: cs) := stretch_of_scan (by rw [h])
  rw [h] at hstretch
  rcases hstretch.solid with hsolid | ⟨quote, body, heq, hquote⟩
  · exact hsolid c List.mem_cons_self
  · obtain ⟨rfl, -⟩ := List.cons.inj heq
    rcases hquote with rfl | rfl <;> decide

/-- A token does not reach from in front of white space into a word behind it. -/
theorem not_crossing {c b : Char} {cs front more w : List Char} {t : Token}
    (h : scan c cs = ⟨.ok t, c :: more⟩) (hmore : more = front ++ b :: w)
    (hb : Text.isBlank b = true) (hletters : ∀ d ∈ w, d.isAlpha = true) : False := by
  have hstretch : Stretch (scan c cs).taken (c :: cs) := stretch_of_scan (by rw [h])
  rw [h, hmore] at hstretch
  rcases hstretch.solid with hsolid | ⟨quote, body, heq, hquote⟩
  · have hsolid := hsolid b (by simp)
    rw [hb] at hsolid
    cases hsolid
  · -- the last character is the white space or a letter, and no quotation mark
    have hlast : quote ∈ b :: w := by
      have hends := congrArg List.getLast? (List.cons.inj heq).2
      rw [List.getLast?_append, List.getLast?_concat, List.getLast?_cons, Option.some_or] at hends
      exact List.mem_of_getLast? (List.getLast?_cons.trans hends)
    rcases List.mem_cons.mp hlast with rfl | hmem
    · rcases hquote with rfl | rfl <;> cases hb
    · have hletter := hletters quote hmem
      rcases hquote with rfl | rfl <;> cases hletter

/-- A text of letters is a single word. -/
theorem Lexed.word {w : List Char} {ts : List (List Char × Token)} (h : Lexed w ts)
    (hw : w ≠ []) (hletters : ∀ c ∈ w, c.isAlpha = true) :
    ts = [(w, wordToken (String.ofList w))] := by
  cases h with
  | nil => exact absurd rfl hw
  | @gap c cs _ hc _ =>
      have hname := isNameChar_of_isAlpha (hletters c List.mem_cons_self)
      have hblank := not_isBlank_of_isNameChar hname
      rw [isBlank_of_isGap hc] at hblank
      cases hblank
  | @token c more rest t ts _ hscan hrest =>
      have hstart : isNameStart c = true := by
        rw [isNameStart, hletters c List.mem_cons_self]
        rfl
      have htake : (c :: (more ++ rest) ++ []).takeWhile isNameChar = c :: (more ++ rest) ++ [] :=
        List.takeWhile_append_of_pos fun d hd => isNameChar_of_isAlpha (hletters d hd)
      rw [List.append_nil] at htake
      rw [scan, if_pos hstart, scanWord, htake] at hscan
      obtain ⟨hresult, htaken⟩ := Scan.mk.inj hscan
      have hnil : rest = [] := by
        have hlength := congrArg List.length htaken
        simp only [List.length_cons, List.length_append] at hlength
        exact List.length_eq_zero_iff.mp (by omega)
      subst hnil
      cases hrest
      cases hresult
      rw [List.append_nil]

/-- **White space divides**: in front of it the tokens end where the text does, and behind it
the last word is the last token. -/
theorem Lexed.cut {cs front w : List Char} {b : Char} {ts : List (List Char × Token)}
    (h : Lexed cs ts) (hcs : cs = front ++ b :: w) (hb : Text.isBlank b = true) (hw : w ≠ [])
    (hletters : ∀ c ∈ w, c.isAlpha = true) :
    ∃ us, ts = us ++ [(w, wordToken (String.ofList w))] ∧ EndsWith front us := by
  induction h generalizing front with
  | nil =>
      have hlength := congrArg List.length hcs
      simp at hlength
  | @gap c cs ts hc h ih =>
      cases front with
      | nil =>
          obtain ⟨rfl, rfl⟩ := List.cons.inj hcs
          exact ⟨[], h.word hw hletters, .nothing (List.forall_mem_nil _)⟩
      | cons d front =>
          obtain ⟨rfl, hrest⟩ := List.cons.inj hcs
          obtain ⟨us, hus, hends⟩ := ih hrest
          exact ⟨us, hus, hends.gap hc⟩
  | @token c more rest t ts hc hscan h ih =>
      cases front with
      | nil =>
          obtain ⟨rfl, -⟩ := List.cons.inj hcs
          have hblank := not_isBlank_of_scan hscan
          rw [hb] at hblank
          cases hblank
      | cons d front =>
          obtain ⟨rfl, hrest⟩ := List.cons.inj hcs
          rcases List.append_eq_append_iff.mp hrest with ⟨mid, rfl, hmid⟩ | ⟨mid, hmore, hmid⟩
          · obtain ⟨us, rfl, hends⟩ := ih hmid
            exact ⟨(c :: more, t) :: us, rfl, hends.behind (c :: more) t⟩
          · cases mid with
            | nil =>
                obtain ⟨us, rfl, hends⟩ := ih (show rest = [] ++ b :: w from hmid.symm)
                rw [List.append_nil] at hmore
                subst hmore
                have hbehind := hends.behind (c :: more) t
                rw [List.append_nil] at hbehind
                exact ⟨(c :: more, t) :: us, rfl, hbehind⟩
            | cons e mid =>
                obtain ⟨rfl, rfl⟩ := List.cons.inj hmid
                have hmidletters : ∀ d ∈ mid, d.isAlpha = true := fun d hd =>
                  hletters d (List.mem_append_left _ hd)
                exact (not_crossing hscan hmore hb hmidletters).elim

end LambdaShell
