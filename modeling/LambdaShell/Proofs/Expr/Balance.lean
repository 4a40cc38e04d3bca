/-
What the tokens of a phrase look like from outside.

A phrase closes the brackets that it opens, begins like an operand and ends like one.  From
that follows what a reader of the bare characters has to know of it: an operator that ends
in `=` has an operand behind it, so `>` never comes next and no two tokens of a phrase can
be taken for an arrow between them.

Rows are the common ground: a row is bracketed and spaced as a phrase is, but may be empty
or end in a comma, as what stands between brackets does.
-/
import Mathlib.Data.List.Chain
import LambdaShell.Proofs.Expr.Endings

namespace LambdaShell

/-! ### Tokens -/

/-- The brackets that a token opens, less those that it closes. -/
def Token.depth : Token → Int
  | .symbol .openParen | .symbol .openBrace => 1
  | .symbol .closeParen | .symbol .closeBrace => -1
  | _ => 0

/-- The brackets that tokens open, less those that they close. -/
def nesting : List Token → Int
  | [] => 0
  | t :: ts => t.depth + nesting ts

@[simp] theorem nesting_nil : nesting [] = 0 := rfl

@[simp] theorem nesting_cons (t : Token) (ts : List Token) :
    nesting (t :: ts) = t.depth + nesting ts := rfl

@[simp] theorem nesting_append (ts us : List Token) :
    nesting (ts ++ us) = nesting ts + nesting us := by
  induction ts with
  | nil => exact (Int.zero_add _).symm
  | cons t ts ih => rw [List.cons_append, nesting_cons, nesting_cons, ih, Int.add_assoc]

namespace Token

/-- The token is a symbol that is written with this character first. -/
def StartsWith (c : Char) (t : Token) : Prop :=
  ∃ s, t = .symbol s ∧ s.text.toList.head? = some c

/-- The token is a symbol that is written with this character last. -/
def EndsIn (c : Char) (t : Token) : Prop :=
  ∃ s, t = .symbol s ∧ s.text.toList.getLast? = some c

/-- An operand can end in the token. -/
def Closes (t : Token) : Prop := ∀ s, t = .symbol s → s = .closeParen ∨ s = .closeBrace

/-- The two tokens, one right behind the other, are not an arrow where they meet. -/
def Spaced (t u : Token) : Prop := t.EndsIn '=' → ¬ u.StartsWith '>'

theorem startsWith_symbol {c : Char} {s : Symbol} :
    (Token.symbol s).StartsWith c ↔ s.text.toList.head? = some c := by
  constructor
  · rintro ⟨_, ⟨⟩, h⟩
    exact h
  · exact fun h => ⟨s, rfl, h⟩

theorem endsIn_symbol {c : Char} {s : Symbol} :
    (Token.symbol s).EndsIn c ↔ s.text.toList.getLast? = some c := by
  constructor
  · rintro ⟨_, ⟨⟩, h⟩
    exact h
  · exact fun h => ⟨s, rfl, h⟩

theorem closes_of_ne_symbol {t : Token} (h : ∀ s, t ≠ .symbol s) : t.Closes :=
  fun s hs => absurd hs (h s)

theorem Closes.not_endsIn {t : Token} (h : t.Closes) : ¬ t.EndsIn '=' := by
  rintro ⟨s, rfl, hs⟩
  rcases h s rfl with rfl | rfl
  · exact absurd hs (by decide)
  · exact absurd hs (by decide)

theorem depth_of_ne_symbol {t : Token} (h : ∀ s, t ≠ .symbol s) : t.depth = 0 := by
  cases t with
  | symbol s => exact absurd rfl (h s)
  | _ => rfl

end Token

open Token

/-! ### Rows -/

/-- Every bracket is closed, no arrow is among the tokens, and none comes about where two
tokens meet, be it with what stands in front or behind. -/
structure IsRow (ts : List Token) : Prop where
  nesting : nesting ts = 0
  arrowless : Token.symbol .arrow ∉ ts
  first : ∀ t ∈ ts.head?, ¬ t.StartsWith '>'
  last : ∀ t ∈ ts.getLast?, ¬ t.EndsIn '='
  spaced : ts.IsChain Spaced

namespace IsRow

variable {ts us vs : List Token} {s : Symbol}

theorem nil : IsRow [] where
  nesting := rfl
  arrowless := List.not_mem_nil
  first := nofun
  last := nofun
  spaced := .nil

theorem single {t : Token} (hdepth : t.depth = 0) (harrow : t ≠ .symbol .arrow)
    (hfirst : ¬ t.StartsWith '>') (hlast : ¬ t.EndsIn '=') : IsRow [t] where
  nesting := by rw [nesting_cons, hdepth, nesting_nil, Int.add_zero]
  arrowless := fun h => harrow (List.mem_singleton.mp h).symm
  first := by
    rintro _ ⟨⟩
    exact hfirst
  last := by
    rintro _ ⟨⟩
    exact hlast
  spaced := .singleton t

/-- Operators that neither begin with `>` nor end in `=` are rows of their own. -/
theorem symbol (hdepth : (Token.symbol s).depth = 0) (harrow : s ≠ .arrow)
    (hfirst : s.text.toList.head? ≠ some '>') (hlast : s.text.toList.getLast? ≠ some '=') :
    IsRow [.symbol s] :=
  single hdepth (fun h => harrow (Token.symbol.inj h)) (mt startsWith_symbol.mp hfirst)
    (mt endsIn_symbol.mp hlast)

theorem comma : IsRow [.symbol .comma] := symbol rfl nofun (by decide) (by decide)

theorem dot : IsRow [.symbol .dot] := symbol rfl nofun (by decide) (by decide)

theorem append (hus : IsRow us) (hvs : IsRow vs) : IsRow (us ++ vs) where
  nesting := by rw [nesting_append, hus.nesting, hvs.nesting, Int.add_zero]
  arrowless := fun h => (List.mem_append.mp h).elim hus.arrowless hvs.arrowless
  first := by
    intro t ht
    rw [List.head?_append, Option.mem_def, Option.or_eq_some_iff] at ht
    rcases ht with ht | ⟨-, ht⟩
    · exact hus.first t ht
    · exact hvs.first t ht
  last := by
    intro t ht
    rw [List.getLast?_append, Option.mem_def, Option.or_eq_some_iff] at ht
    rcases ht with ht | ⟨-, ht⟩
    · exact hvs.last t ht
    · exact hus.last t ht
  spaced := List.isChain_append.mpr
    ⟨hus.spaced, hvs.spaced, fun t ht u hu _ => hvs.first u hu⟩

end IsRow

/-! ### Operands -/

/-- A row that ends in something an operand can end in. -/
structure IsOperand (ts : List Token) : Prop extends IsRow ts where
  closes : ∃ front t, ts = front ++ [t] ∧ t.Closes

namespace IsOperand

variable {ts us vs : List Token} {s : Symbol}

theorem ne_nil (h : IsOperand ts) : ts ≠ [] := by
  obtain ⟨front, t, rfl, -⟩ := h.closes
  exact List.append_ne_nil_of_right_ne_nil front (List.cons_ne_nil t [])

theorem single {t : Token} (h : ∀ s, t ≠ .symbol s) : IsOperand [t] where
  toIsRow := .single (depth_of_ne_symbol h) (h .arrow) (fun ⟨s, hs, _⟩ => h s hs)
    (closes_of_ne_symbol h).not_endsIn
  closes := ⟨[], t, rfl, closes_of_ne_symbol h⟩

theorem closes_append (us : List Token) (h : IsOperand vs) :
    ∃ front t, us ++ vs = front ++ [t] ∧ t.Closes := by
  obtain ⟨front, t, rfl, ht⟩ := h.closes
  exact ⟨us ++ front, t, (List.append_assoc us front [t]).symm, ht⟩

theorem behind (hus : IsRow us) (hvs : IsOperand vs) : IsOperand (us ++ vs) where
  toIsRow := hus.append hvs.toIsRow
  closes := hvs.closes_append us

/-- Between two operands any operator is spaced, also one that begins with `>` or ends in
`=`. -/
theorem joined (hus : IsOperand us) (hdepth : (Token.symbol s).depth = 0) (harrow : s ≠ .arrow)
    (hvs : IsOperand vs) : IsOperand (us ++ .symbol s :: vs) where
  nesting := by
    rw [nesting_append, nesting_cons, hus.nesting, hdepth, hvs.nesting]
    rfl
  arrowless := by
    rw [List.mem_append, List.mem_cons]
    rintro (h | h | h)
    · exact hus.arrowless h
    · exact harrow (Token.symbol.inj h).symm
    · exact hvs.arrowless h
  first := by
    intro t ht
    rw [List.head?_append_of_ne_nil _ hus.ne_nil] at ht
    exact hus.first t ht
  last := by
    intro t ht
    rw [← List.singleton_append, ← List.append_assoc, List.getLast?_append_of_ne_nil _ hvs.ne_nil]
      at ht
    exact hvs.last t ht
  spaced := by
    -- the operator is no row, but it has an operand on either side
    refine List.isChain_append.mpr ⟨hus.spaced, ?_, ?_⟩
    · exact List.isChain_cons.mpr ⟨fun u hu _ => hvs.first u hu, hvs.spaced⟩
    · intro t ht u _ hends
      exact absurd hends (hus.last t ht)
  closes := by
    rw [← List.singleton_append, ← List.append_assoc]
    exact hvs.closes_append (us ++ [.symbol s])

/-- A row between brackets is an operand. -/
theorem enclosed {close : Symbol} (hopen : (Token.symbol s).depth = 1)
    (hclose : close = .closeParen ∨ close = .closeBrace) (h : IsRow ts) :
    IsOperand (.symbol s :: (ts ++ [.symbol close])) := by
  have hs : s = .openParen ∨ s = .openBrace := by
    cases s with
    | openParen => exact Or.inl rfl
    | openBrace => exact Or.inr rfl
    | _ => cases hopen
  have hdepth : (Token.symbol close).depth = -1 := by
    rcases hclose with rfl | rfl <;> rfl
  have hcloses : (Token.symbol close).Closes := by
    rintro _ ⟨⟩
    exact hclose
  have hstart : ¬ (Token.symbol close).StartsWith '>' := by
    rw [startsWith_symbol]
    rcases hclose with rfl | rfl <;> decide
  have hends : ¬ (Token.symbol s).EndsIn '=' := by
    rw [endsIn_symbol]
    rcases hs with rfl | rfl <;> decide
  refine ⟨⟨?_, ?_, ?_, ?_, ?_⟩, ⟨.symbol s :: ts, _, rfl, hcloses⟩⟩
  · rw [nesting_cons, nesting_append, nesting_cons, hopen, hdepth, h.nesting]
    rfl
  · rw [List.mem_cons, List.mem_append, List.mem_singleton]
    rintro (harrow | harrow | harrow)
    · cases harrow
      cases hopen
    · exact h.arrowless harrow
    · cases harrow
      cases hdepth
  · rintro _ ⟨⟩
    rw [startsWith_symbol]
    rcases hs with rfl | rfl <;> decide
  · intro t ht
    rw [← List.cons_append, List.getLast?_concat] at ht
    cases ht
    exact hcloses.not_endsIn
  · refine List.isChain_cons.mpr ⟨fun _ _ h => absurd h hends, ?_⟩
    refine List.isChain_append.mpr ⟨h.spaced, .singleton _, ?_⟩
    rintro t ht u ⟨⟩ -
    exact hstart

end IsOperand

/-! ### Phrases -/

theorem BinaryOp.isOperand_joined {us vs : List Token} (op : BinaryOp) (hus : IsOperand us)
    (hvs : IsOperand vs) : IsOperand (us ++ .symbol op.symbol :: vs) := by
  cases op <;> exact hus.joined rfl nofun hvs

theorem UnaryOp.isRow (op : UnaryOp) : IsRow [.symbol op.symbol] := by
  cases op <;> exact .symbol rfl nofun (by decide) (by decide)

theorem Token.ne_symbol_of_literal? {t : Token} {v : Value} (h : t.literal? = some v) (s : Symbol) :
    t ≠ .symbol s := by
  rintro rfl
  cases h

theorem isOperand_name (n : String) : IsOperand [.name n] := .single nofun

/-- A call ends in an operand, its arguments in parentheses. -/
theorem isOperand_call {front args : List Token} (n : String) (hfront : IsRow front) (hargs : IsRow args) :
    IsOperand (front ++ .name n :: .symbol .openParen :: (args ++ [.symbol .closeParen])) :=
  .behind hfront (.behind (isOperand_name n).toIsRow (.enclosed rfl (Or.inl rfl) hargs))

mutual

/-- **Phrases are operands**: their brackets match, and no arrow comes about in them. -/
theorem Derives.isOperand {p : Phrase} {ts : List Lexeme} {e : Expr} :
    Derives p ts e → IsOperand (ts.map (·.token))
  | .conditional htest hyes hno => by
      rw [List.map_append, List.map_cons, List.map_append]
      exact htest.isOperand.joined rfl nofun (hyes.isOperand.joined rfl nofun hno.isOperand)
  | .expr h => h.isOperand
  | .orElse hlhs hrhs => by
      rw [List.map_append]
      exact hlhs.isOperand.joined rfl nofun hrhs.isOperand
  | .coalesce h => h.isOperand
  | @Derives.infixed _ op _ _ _ _ _ _ hlhs hrhs => by
      rw [List.map_append]
      exact op.isOperand_joined hlhs.isOperand hrhs.isOperand
  | .operand h => h.isOperand
  | @Derives.prefixed op _ _ _ h => .behind op.isRow h.isOperand
  | @Derives.cast n _ _ _ _ _ _ _ h => by
      have hparens : IsRow [.symbol .openParen, .name n, .symbol .closeParen] :=
        (IsOperand.enclosed rfl (Or.inl rfl) (isOperand_name n).toIsRow).toIsRow
      exact .behind hparens h.isOperand
  | .unary h => h.isOperand
  | @Derives.member n _ _ _ _ h _ => by
      rw [List.map_append]
      exact h.isOperand.joined rfl nofun (isOperand_name n)
  | @Derives.method n _ _ _ _ _ _ _ _ h _ hargs => by
      simp only [List.map_append, List.map_cons, List.map_nil]
      exact h.isOperand.joined rfl nofun (isOperand_call n .nil hargs.isRow)
  | .access h => h.isOperand
  | .literal hv => .single (ne_symbol_of_literal? hv)
  | @Derives.name n _ => isOperand_name n
  | .paren h _ => by
      rw [List.map_cons, List.map_append]
      exact .enclosed rfl (Or.inl rfl) h.isOperand.toIsRow
  | .record h => by
      have hnew : IsOperand [.keyword .new] := .single nofun
      rw [List.map_cons, List.map_cons, List.map_append]
      exact .behind hnew.toIsRow (.enclosed rfl (Or.inr rfl) h.isRow)
  | @Derives.math f _ _ _ _ _ _ _ h => by
      simp only [List.map_append, List.map_cons, List.map_nil]
      exact isOperand_call f ((isOperand_name "Math").append .dot) h.isRow

theorem DerivesArgs.isRow {ts : List Lexeme} {es : List Expr} :
    DerivesArgs ts es → IsRow (ts.map (·.token))
  | .none => .nil
  | .one h => h.isOperand.toIsRow
  | .more h hmore => by
      rw [List.map_append]
      exact h.isOperand.append (IsRow.comma.append hmore.isRow)

theorem DerivesMember.isOperand {ts : List Lexeme} {m : String × Expr} :
    DerivesMember ts m → IsOperand (ts.map (·.token))
  | @DerivesMember.named n _ _ _ _ h => (isOperand_name n).joined rfl nofun h.isOperand
  | .suggested h _ => h.isOperand

theorem DerivesMembers.isRow {ts : List Lexeme} {ms : List (String × Expr)} :
    DerivesMembers ts ms → IsRow (ts.map (·.token))
  | .none => .nil
  | .last h => h.isOperand.toIsRow
  | .more h hmore => by
      rw [List.map_append]
      exact h.isOperand.append (IsRow.comma.append hmore.isRow)

end

/-- Behind the arrow of a sentence stands an operand. -/
theorem Sentence.isOperand {ts : List Lexeme} {lambda : LambdaExpr} (h : Sentence ts lambda) :
    ∃ ps body, ts.map (·.token) = ps ++ .symbol .arrow :: body ∧ IsOperand body := by
  cases h with
  | @lambda ps us param body a _ hbody =>
      exact ⟨ps.map (·.token), us.map (·.token), List.map_append, hbody.isOperand⟩

end LambdaShell
