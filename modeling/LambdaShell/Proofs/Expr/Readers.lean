/-
What a reader has read.

The readers of `Expr/Parser.lean` hand the tokens on to each other, and most of their text
is about what to say when something is missing.  Here each of them is described by what it
does when it succeeds: which token came first, which readers were called on what was left,
and which node was built.  Every such description is an equivalence, so the same lemma
takes a successful reading apart and puts one together, and no other module looks into the
readers.
-/
import LambdaShell.Expr.Parser
import LambdaShell.Proofs.Outcome

namespace LambdaShell

variable {stop : Nat}

/-! ### Single tokens -/

theorem Token.isSymbol_iff {s : Symbol} {t : Token} : t.isSymbol s = true ↔ t = .symbol s := by
  cases t with
  | symbol u =>
      show (s == u) = true ↔ _
      rw [beq_iff_eq, Token.symbol.injEq]
      exact eq_comm
  | _ => exact ⟨nofun, nofun⟩

theorem behind?_eq_some {s : Symbol} {ts rest : List Lexeme} :
    behind? s ts = some rest ↔ ∃ q, ts = ⟨.symbol s, q⟩ :: rest := by
  cases ts with
  | nil => exact ⟨nofun, nofun⟩
  | cons l us =>
      obtain ⟨t, q⟩ := l
      show (if t.isSymbol s = true then some us else none) = some rest ↔ _
      constructor
      · intro h
        obtain ⟨ht, hus⟩ := Option.ite_none_right_eq_some.mp h
        cases hus
        exact ⟨q, by rw [Token.isSymbol_iff.mp ht]⟩
      · rintro ⟨q, h⟩
        cases h
        exact if_pos (Token.isSymbol_iff.mpr rfl)

theorem behind?_eq_none {s : Symbol} {ts : List Lexeme} :
    behind? s ts = none ↔ ∀ q us, ts ≠ ⟨.symbol s, q⟩ :: us := by
  rw [Option.eq_none_iff_forall_ne_some]
  constructor
  · intro h q us hts
    exact h us (behind?_eq_some.mpr ⟨q, hts⟩)
  · intro h us hus
    obtain ⟨q, hts⟩ := behind?_eq_some.mp hus
    exact h q us hts

theorem readSymbol_eq_ok {s : Symbol} {what : Wanted} {ts rest : List Lexeme} {close : Nat} :
    readSymbol stop s what ts = .ok (close, rest) ↔
      ∃ q, ts = ⟨.symbol s, q⟩ :: rest ∧ q.stop = close := by
  cases ts with
  | nil => exact ⟨nofun, nofun⟩
  | cons l us =>
      obtain ⟨t, q⟩ := l
      unfold readSymbol
      constructor
      · intro h
        dsimp only at h
        split at h
        · rename_i ht
          cases h
          exact ⟨q, by rw [Token.isSymbol_iff.mp ht], rfl⟩
        · cases h
      · rintro ⟨q, h, hclose⟩
        cases h
        cases hclose
        exact if_pos (Token.isSymbol_iff.mpr rfl)

theorem readName_eq_ok {what : Wanted} {ts rest : List Lexeme} {n : String} {close : Nat} :
    readName stop what ts = .ok (n, close, rest) ↔
      ∃ q, ts = ⟨.name n, q⟩ :: rest ∧ q.stop = close := by
  unfold readName
  split
  · rename_i m q us
    constructor
    · intro h
      cases h
      exact ⟨q, rfl, rfl⟩
    · rintro ⟨q, h, hclose⟩
      cases h
      cases hclose
      rfl
  · rename_i hne
    constructor
    · intro h
      cases h
    · rintro ⟨q, rfl, -⟩
      exact absurd rfl (hne n q rest)

/-! ### Lists -/

section Lists

variable {expr : Reader} {ts rest : List Lexeme} {close : Nat}

theorem readArgsUpTo_eq_ok {n : Nat} {es : List Expr} :
    readArgsUpTo stop expr (n + 1) ts = .ok (es, close, rest) ↔
      ∃ e us, expr ts = .ok (e, us) ∧
        ((∃ q vs ds, us = ⟨.symbol .comma, q⟩ :: vs ∧
            readArgsUpTo stop expr n vs = .ok (ds, close, rest) ∧ es = e :: ds) ∨
          ∃ q, us = ⟨.symbol .closeParen, q⟩ :: rest ∧ q.stop = close ∧ es = [e]) := by
  constructor
  · intro h
    obtain ⟨⟨e, us⟩, he, h⟩ := Outcome.bind_eq_ok.mp h
    refine ⟨e, us, he, ?_⟩
    dsimp only at h
    cases hcomma : behind? .comma us with
    | some vs =>
        rw [hcomma] at h
        obtain ⟨⟨ds, c, ws⟩, hds, h⟩ := Outcome.bind_eq_ok.mp h
        cases h
        obtain ⟨q, rfl⟩ := behind?_eq_some.mp hcomma
        exact Or.inl ⟨q, vs, ds, rfl, hds, rfl⟩
    | none =>
        rw [hcomma] at h
        obtain ⟨⟨c, ws⟩, hclose, h⟩ := Outcome.bind_eq_ok.mp h
        cases h
        obtain ⟨q, rfl, hq⟩ := readSymbol_eq_ok.mp hclose
        exact Or.inr ⟨q, rfl, hq, rfl⟩
  · rintro ⟨e, us, he, ⟨q, vs, ds, rfl, hds, rfl⟩ | ⟨q, rfl, rfl, rfl⟩⟩
    · refine Outcome.bind_eq_ok.mpr ⟨_, he, ?_⟩
      exact Outcome.bind_eq_ok.mpr ⟨_, hds, rfl⟩
    · exact Outcome.bind_eq_ok.mpr ⟨_, he, rfl⟩

theorem readArgs_eq_ok {es : List Expr} :
    readArgs stop expr ts = .ok (es, close, rest) ↔
      (∃ q, ts = ⟨.symbol .closeParen, q⟩ :: rest ∧ q.stop = close ∧ es = []) ∨
        ((∀ q us, ts ≠ ⟨.symbol .closeParen, q⟩ :: us) ∧
          readArgsUpTo stop expr (ts.length + 1) ts = .ok (es, close, rest)) := by
  unfold readArgs
  cases hclose : readSymbol stop .closeParen .argumentEnd ts with
  | ok p =>
      obtain ⟨c, us⟩ := p
      obtain ⟨q, rfl, rfl⟩ := readSymbol_eq_ok.mp hclose
      constructor
      · intro h
        cases h
        exact Or.inl ⟨q, rfl, rfl, rfl⟩
      · rintro (⟨q, h, hc, rfl⟩ | ⟨hne, -⟩)
        · cases h
          cases hc
          rfl
        · exact absurd rfl (hne q us)
  | error issue =>
      have hne : ∀ q us, ts ≠ ⟨.symbol .closeParen, q⟩ :: us := by
        rintro q us rfl
        cases hclose
      constructor
      · intro h
        exact Or.inr ⟨hne, h⟩
      · rintro (⟨q, rfl, -⟩ | ⟨-, h⟩)
        · exact absurd rfl (hne q rest)
        · exact h

/-- The next tokens are a name and `=`. -/
def StartsNamed (ts : List Lexeme) : Prop :=
  ∃ n p q us, ts = ⟨.name n, p⟩ :: ⟨.symbol .assign, q⟩ :: us

theorem readMember_eq_ok {m : String × Expr} :
    readMember stop expr ts = .ok (m, rest) ↔
      (∃ p q us, ts = ⟨.name m.1, p⟩ :: ⟨.symbol .assign, q⟩ :: us ∧
          expr us = .ok (m.2, rest)) ∨
        (¬ StartsNamed ts ∧ expr ts = .ok (m.2, rest) ∧ m.2.impliedName? = some m.1) := by
  obtain ⟨n, e⟩ := m
  unfold readMember
  split
  · rename_i k p q us
    constructor
    · intro h
      obtain ⟨⟨d, vs⟩, hd, h⟩ := Outcome.bind_eq_ok.mp h
      cases h
      exact Or.inl ⟨p, q, us, rfl, hd⟩
    · rintro (⟨p, q, us, h, he⟩ | ⟨hne, -⟩)
      · cases h
        exact Outcome.bind_eq_ok.mpr ⟨_, he, rfl⟩
      · exact absurd ⟨k, p, q, us, rfl⟩ hne
  · rename_i hne
    have hstart : ¬ StartsNamed ts := by
      rintro ⟨k, p, q, us, rfl⟩
      exact hne k p q us rfl
    constructor
    · intro h
      obtain ⟨⟨d, vs⟩, hd, h⟩ := Outcome.bind_eq_ok.mp h
      dsimp only at h
      split at h
      · rename_i k hk
        cases h
        exact Or.inr ⟨hstart, hd, hk⟩
      · cases h
    · rintro (⟨p, q, us, rfl, -⟩ | ⟨-, he, hn⟩)
      · exact absurd ⟨n, p, q, us, rfl⟩ hstart
      · refine Outcome.bind_eq_ok.mpr ⟨_, he, ?_⟩
        dsimp only at hn ⊢
        rw [hn]
        rfl

theorem readMembersUpTo_eq_ok {n : Nat} {ms : List (String × Expr)} :
    readMembersUpTo stop expr (n + 1) ts = .ok (ms, close, rest) ↔
      (∃ q, ts = ⟨.symbol .closeBrace, q⟩ :: rest ∧ q.stop = close ∧ ms = []) ∨
        ((∀ q us, ts ≠ ⟨.symbol .closeBrace, q⟩ :: us) ∧
          ∃ m us, readMember stop expr ts = .ok (m, us) ∧
            ((∃ q vs ks, us = ⟨.symbol .comma, q⟩ :: vs ∧
                readMembersUpTo stop expr n vs = .ok (ks, close, rest) ∧ ms = m :: ks) ∨
              ∃ q, us = ⟨.symbol .closeBrace, q⟩ :: rest ∧ q.stop = close ∧ ms = [m])) := by
  rw [readMembersUpTo]
  cases hclose : readSymbol stop .closeBrace .recordEnd ts with
  | ok p =>
      obtain ⟨c, us⟩ := p
      obtain ⟨q, rfl, rfl⟩ := readSymbol_eq_ok.mp hclose
      constructor
      · intro h
        cases h
        exact Or.inl ⟨q, rfl, rfl, rfl⟩
      · rintro (⟨q, h, hc, rfl⟩ | ⟨hne, -⟩)
        · cases h
          cases hc
          rfl
        · exact absurd rfl (hne q us)
  | error issue =>
      have hne : ∀ q us, ts ≠ ⟨.symbol .closeBrace, q⟩ :: us := by
        rintro q us rfl
        cases hclose
      constructor
      · intro h
        refine Or.inr ⟨hne, ?_⟩
        obtain ⟨⟨m, us⟩, hm, h⟩ := Outcome.bind_eq_ok.mp h
        refine ⟨m, us, hm, ?_⟩
        dsimp only at h
        cases hcomma : behind? .comma us with
        | some vs =>
            rw [hcomma] at h
            obtain ⟨⟨ks, c, ws⟩, hks, h⟩ := Outcome.bind_eq_ok.mp h
            cases h
            obtain ⟨q, rfl⟩ := behind?_eq_some.mp hcomma
            exact Or.inl ⟨q, vs, ks, rfl, hks, rfl⟩
        | none =>
            rw [hcomma] at h
            obtain ⟨⟨c, ws⟩, hend, h⟩ := Outcome.bind_eq_ok.mp h
            cases h
            obtain ⟨q, rfl, hq⟩ := readSymbol_eq_ok.mp hend
            exact Or.inr ⟨q, rfl, hq, rfl⟩
      · rintro (⟨q, rfl, -⟩ | ⟨-, m, us, hm, ⟨q, vs, ks, rfl, hks, rfl⟩ | ⟨q, rfl, rfl, rfl⟩⟩)
        · exact absurd rfl (hne q rest)
        · refine Outcome.bind_eq_ok.mpr ⟨_, hm, ?_⟩
          exact Outcome.bind_eq_ok.mpr ⟨_, hks, rfl⟩
        · exact Outcome.bind_eq_ok.mpr ⟨_, hm, rfl⟩

end Lists

/-! ### Operators -/

theorem Tier.next?_eq_some {t : Tier} {ts rest : List Lexeme} {op : BinaryOp} :
    t.next? ts = some (op, rest) ↔
      ∃ s q, ts = ⟨.symbol s, q⟩ :: rest ∧ t.opOf? s = some op := by
  unfold Tier.next?
  split
  · rename_i s q us
    constructor
    · intro h
      obtain ⟨o, ho, h⟩ := Option.map_eq_some_iff.mp h
      cases h
      exact ⟨s, q, rfl, ho⟩
    · rintro ⟨s, q, h, hop⟩
      cases h
      exact Option.map_eq_some_iff.mpr ⟨op, hop, rfl⟩
  · rename_i hne
    constructor
    · intro h
      cases h
    · rintro ⟨s, q, rfl, -⟩
      exact absurd rfl (hne s q rest)

theorem Lead.next?_eq_some {lead : Lead} {ts rest : List Lexeme} :
    Lead.next? ts = some (lead, rest) ↔
      (∃ s p op, ts = ⟨.symbol s, p⟩ :: rest ∧ UnaryOp.ofSymbol? s = some op ∧ lead = .op op) ∨
        ∃ p n q r t, ts = ⟨.symbol .openParen, p⟩ :: ⟨.name n, q⟩ ::
            ⟨.symbol .closeParen, r⟩ :: rest ∧ CastType.ofName? n = some t ∧ lead = .cast t := by
  unfold Lead.next?
  split
  · rename_i p n q r us
    constructor
    · intro h
      obtain ⟨t, ht, h⟩ := Option.map_eq_some_iff.mp h
      cases h
      exact Or.inr ⟨p, n, q, r, t, rfl, ht, rfl⟩
    · rintro (⟨s, p, op, h, hop, -⟩ | ⟨p, n, q, r, t, h, ht, rfl⟩)
      · cases h
        cases hop
      · cases h
        exact Option.map_eq_some_iff.mpr ⟨t, ht, rfl⟩
  · rename_i s p us hcast
    constructor
    · intro h
      obtain ⟨op, hop, h⟩ := Option.map_eq_some_iff.mp h
      cases h
      exact Or.inl ⟨s, p, op, rfl, hop, rfl⟩
    · rintro (⟨s, p, op, h, hop, rfl⟩ | ⟨p, n, q, r, t, h, -⟩)
      · cases h
        exact Option.map_eq_some_iff.mpr ⟨op, hop, rfl⟩
      · cases h
        exact absurd rfl (hcast n q r rest rfl)
  · rename_i hcast hop
    constructor
    · intro h
      cases h
    · rintro (⟨s, p, op, rfl, -⟩ | ⟨p, n, q, r, t, rfl, -⟩)
      · exact absurd rfl (hop s p rest)
      · exact absurd rfl (hcast p n q r rest)

/-! ### The rules -/

namespace Rules

variable {below : Rules} {ts rest : List Lexeme} {e : Expr}

/-- The ways to read a primary expression: what comes first decides which one it is. -/
inductive ReadsPrimary (stop : Nat) (below : Rules) :
    List Lexeme → Expr → List Lexeme → Prop where
  | literal {t : Token} {q : Span} {v : Value} {rest : List Lexeme} (hv : t.literal? = some v) :
      ReadsPrimary stop below (⟨t, q⟩ :: rest) (.literal q v) rest
  /-- `Math` with a point behind it is not a name. -/
  | name {n : String} {q : Span} {rest : List Lexeme}
      (hn : n = "Math" → ∀ d us, rest ≠ ⟨.symbol .dot, d⟩ :: us) :
      ReadsPrimary stop below (⟨.name n, q⟩ :: rest) (.name q n) rest
  | math {q d f p : Span} {function : String} {us rest : List Lexeme} {args : List Expr}
      {close : Nat} (hargs : readArgs stop below.expr us = .ok (args, close, rest)) :
      ReadsPrimary stop below
        (⟨.name "Math", q⟩ :: ⟨.symbol .dot, d⟩ :: ⟨.name function, f⟩ ::
          ⟨.symbol .openParen, p⟩ :: us)
        (.math ⟨q.start, close⟩ function args) rest
  | paren {p q : Span} {us rest : List Lexeme} {e : Expr}
      (he : below.expr us = .ok (e, ⟨.symbol .closeParen, q⟩ :: rest)) :
      ReadsPrimary stop below (⟨.symbol .openParen, p⟩ :: us)
        (e.withSpan ⟨p.start, q.stop⟩) rest
  | record {q p : Span} {us rest : List Lexeme} {members : List (String × Expr)} {close : Nat}
      (hms : readMembers stop below.expr us = .ok (members, close, rest)) :
      ReadsPrimary stop below (⟨.keyword .new, q⟩ :: ⟨.symbol .openBrace, p⟩ :: us)
        (.record ⟨q.start, close⟩ members) rest

theorem primaryAt_name {n : String} {q : Span} :
    primaryAt stop below (⟨.name n, q⟩ :: ts) = .ok (e, rest) ↔
      ReadsPrimary stop below (⟨.name n, q⟩ :: ts) e rest := by
  have hlit : (Token.name n).literal? = none := rfl
  by_cases hmath : n = "Math" ∧ ∃ d us, ts = ⟨.symbol .dot, d⟩ :: us
  · obtain ⟨rfl, d, us, rfl⟩ := hmath
    constructor
    · intro h
      obtain ⟨⟨function, c, vs⟩, hname, hcall⟩ := Outcome.bind_eq_ok.mp h
      obtain ⟨⟨c', ws⟩, hopen, hrest⟩ := Outcome.bind_eq_ok.mp hcall
      obtain ⟨⟨args, close, xs⟩, hargs, hnode⟩ := Outcome.bind_eq_ok.mp hrest
      cases hnode
      obtain ⟨f, rfl, -⟩ := readName_eq_ok.mp hname
      obtain ⟨p, rfl, -⟩ := readSymbol_eq_ok.mp hopen
      exact .math hargs
    · intro h
      cases h with
      | literal hv => cases hv
      | name hn => exact absurd rfl (hn rfl d us)
      | @math _ _ f p function vs _ args close hargs =>
          refine Outcome.bind_eq_ok.mpr ⟨_, readName_eq_ok.mpr ⟨f, rfl, rfl⟩, ?_⟩
          refine Outcome.bind_eq_ok.mpr ⟨_, readSymbol_eq_ok.mpr ⟨p, rfl, rfl⟩, ?_⟩
          exact Outcome.bind_eq_ok.mpr ⟨_, hargs, rfl⟩
  · have hread : primaryAt stop below (⟨.name n, q⟩ :: ts) = .ok (.name q n, ts) := by
      unfold primaryAt
      dsimp only
      rw [hlit]
      dsimp only
      split
      · rename_i us hn hdot
        obtain ⟨d, hd⟩ := behind?_eq_some.mp hdot
        exact absurd ⟨beq_iff_eq.mp hn, d, us, hd⟩ hmath
      · rfl
    rw [hread]
    constructor
    · intro h
      cases h
      exact .name fun hn d us hts => hmath ⟨hn, d, us, hts⟩
    · intro h
      cases h with
      | literal hv => cases hv
      | name hn => rfl
      | math hargs => exact absurd ⟨rfl, _, _, rfl⟩ hmath

theorem primaryAt_symbol {s : Symbol} {p : Span} :
    primaryAt stop below (⟨.symbol s, p⟩ :: ts) = .ok (e, rest) ↔
      ReadsPrimary stop below (⟨.symbol s, p⟩ :: ts) e rest := by
  by_cases hs : s = .openParen
  · subst hs
    constructor
    · intro h
      obtain ⟨⟨d, us⟩, hd, hclose⟩ := Outcome.bind_eq_ok.mp h
      obtain ⟨⟨close, vs⟩, hparen, hnode⟩ := Outcome.bind_eq_ok.mp hclose
      cases hnode
      obtain ⟨q, rfl, rfl⟩ := readSymbol_eq_ok.mp hparen
      exact .paren hd
    · intro h
      cases h with
      | literal hv => cases hv
      | @paren _ q _ _ d hd =>
          refine Outcome.bind_eq_ok.mpr ⟨_, hd, ?_⟩
          exact Outcome.bind_eq_ok.mpr ⟨_, readSymbol_eq_ok.mpr ⟨q, rfl, rfl⟩, rfl⟩
  · constructor
    · intro h
      cases s with
      | openParen => exact absurd rfl hs
      | _ => cases h
    · intro h
      cases h with
      | literal hv => cases hv
      | paren hd => exact absurd rfl hs

theorem primaryAt_new {q : Span} :
    primaryAt stop below (⟨.keyword .new, q⟩ :: ts) = .ok (e, rest) ↔
      ReadsPrimary stop below (⟨.keyword .new, q⟩ :: ts) e rest := by
  constructor
  · intro h
    obtain ⟨⟨c, us⟩, hopen, hmembers⟩ := Outcome.bind_eq_ok.mp h
    obtain ⟨⟨members, close, vs⟩, hms, hnode⟩ := Outcome.bind_eq_ok.mp hmembers
    cases hnode
    obtain ⟨p, rfl, -⟩ := readSymbol_eq_ok.mp hopen
    exact .record hms
  · intro h
    cases h with
    | literal hv => cases hv
    | @record _ p _ _ members close hms =>
        refine Outcome.bind_eq_ok.mpr ⟨_, readSymbol_eq_ok.mpr ⟨p, rfl, rfl⟩, ?_⟩
        exact Outcome.bind_eq_ok.mpr ⟨_, hms, rfl⟩

theorem primaryAt_eq_ok :
    primaryAt stop below ts = .ok (e, rest) ↔ ReadsPrimary stop below ts e rest := by
  cases ts with
  | nil => exact ⟨nofun, nofun⟩
  | cons l us =>
      obtain ⟨t, q⟩ := l
      cases hlit : t.literal? with
      | some v =>
          have hread : primaryAt stop below (⟨t, q⟩ :: us) = .ok (.literal q v, us) := by
            simp only [primaryAt, hlit]
          rw [hread]
          constructor
          · intro h
            cases h
            exact .literal hlit
          · intro h
            cases h with
            | literal hv =>
                rw [hlit] at hv
                cases hv
                rfl
            | _ => cases hlit
      | none =>
          cases t with
          | name n => exact primaryAt_name
          | symbol s => exact primaryAt_symbol
          | keyword k =>
              cases k with
              | new => exact primaryAt_new
              | _ => cases hlit
          | _ => cases hlit

theorem membersAt_eq_ok {target : Expr} :
    membersAt below target ts = .ok (e, rest) ↔
      (∃ q us, ts = ⟨.symbol .dot, q⟩ :: us ∧ below.member target us = .ok (e, rest)) ∨
        ((∀ q us, ts ≠ ⟨.symbol .dot, q⟩ :: us) ∧ e = target ∧ rest = ts) := by
  unfold membersAt
  cases hdot : behind? .dot ts with
  | some us =>
      obtain ⟨q, rfl⟩ := behind?_eq_some.mp hdot
      constructor
      · intro h
        exact Or.inl ⟨q, us, rfl, h⟩
      · rintro (⟨q, us, h, he⟩ | ⟨hne, -⟩)
        · cases h
          exact he
        · exact absurd rfl (hne q us)
  | none =>
      have hne := behind?_eq_none.mp hdot
      constructor
      · intro h
        cases h
        exact Or.inr ⟨hne, rfl, rfl⟩
      · rintro (⟨q, us, rfl, -⟩ | ⟨-, rfl, rfl⟩)
        · exact absurd rfl (hne q us)
        · rfl

theorem memberAt_eq_ok {target : Expr} :
    memberAt stop below target ts = .ok (e, rest) ↔
      ∃ n q us, ts = ⟨.name n, q⟩ :: us ∧
        ((∃ p vs args close ws, us = ⟨.symbol .openParen, p⟩ :: vs ∧
            readArgs stop below.expr vs = .ok (args, close, ws) ∧
            membersAt below (.method ⟨target.span.start, close⟩ target n args) ws
              = .ok (e, rest)) ∨
          ((∀ p vs, us ≠ ⟨.symbol .openParen, p⟩ :: vs) ∧
            membersAt below (.member ⟨target.span.start, q.stop⟩ target n) us
              = .ok (e, rest))) := by
  constructor
  · intro h
    obtain ⟨⟨n, c, us⟩, hname, h⟩ := Outcome.bind_eq_ok.mp h
    obtain ⟨q, rfl, rfl⟩ := readName_eq_ok.mp hname
    refine ⟨n, q, us, rfl, ?_⟩
    dsimp only at h
    cases hopen : behind? .openParen us with
    | some vs =>
        rw [hopen] at h
        obtain ⟨p, rfl⟩ := behind?_eq_some.mp hopen
        obtain ⟨⟨args, close, ws⟩, hargs, h⟩ := Outcome.bind_eq_ok.mp h
        exact Or.inl ⟨p, vs, args, close, ws, rfl, hargs, h⟩
    | none =>
        rw [hopen] at h
        exact Or.inr ⟨behind?_eq_none.mp hopen, h⟩
  · rintro ⟨n, q, us, rfl, hrest⟩
    refine Outcome.bind_eq_ok.mpr ⟨_, readName_eq_ok.mpr ⟨q, rfl, rfl⟩, ?_⟩
    rcases hrest with ⟨p, vs, args, close, ws, rfl, hargs, h⟩ | ⟨hne, h⟩
    · exact Outcome.bind_eq_ok.mpr ⟨_, hargs, h⟩
    · dsimp only
      rw [behind?_eq_none.mpr hne]
      exact h

theorem unaryAt_eq_ok :
    unaryAt stop below ts = .ok (e, rest) ↔
      (∃ lead us d, Lead.next? ts = some (lead, us) ∧ below.unary us = .ok (d, rest) ∧
          e = lead.apply ⟨nextOffset stop ts, d.span.stop⟩ d) ∨
        (Lead.next? ts = none ∧ ∃ d us, primaryAt stop below ts = .ok (d, us) ∧
          membersAt below d us = .ok (e, rest)) := by
  unfold unaryAt
  cases Lead.next? ts with
  | some p =>
      obtain ⟨lead, us⟩ := p
      constructor
      · intro h
        obtain ⟨⟨d, vs⟩, hd, h⟩ := Outcome.bind_eq_ok.mp h
        cases h
        exact Or.inl ⟨lead, us, d, rfl, hd, rfl⟩
      · rintro (⟨lead, us, d, h, hd, rfl⟩ | ⟨h, -⟩)
        · cases h
          exact Outcome.bind_eq_ok.mpr ⟨_, hd, rfl⟩
        · cases h
  | none =>
      constructor
      · intro h
        obtain ⟨⟨d, us⟩, hd, h⟩ := Outcome.bind_eq_ok.mp h
        exact Or.inr ⟨rfl, d, us, hd, h⟩
      · rintro (⟨lead, us, d, h, -⟩ | ⟨-, d, us, hd, h⟩)
        · cases h
        · exact Outcome.bind_eq_ok.mpr ⟨_, hd, h⟩

theorem chainAt_eq_ok {t : Tier} {tighter : List Tier} {lhs : Expr} :
    chainAt below t tighter lhs ts = .ok (e, rest) ↔
      (∃ op us rhs vs, t.next? ts = some (op, us) ∧ below.level tighter us = .ok (rhs, vs) ∧
          below.chain t tighter (binary op lhs rhs) vs = .ok (e, rest)) ∨
        (t.next? ts = none ∧ e = lhs ∧ rest = ts) := by
  unfold chainAt
  cases t.next? ts with
  | some p =>
      obtain ⟨op, us⟩ := p
      constructor
      · intro h
        obtain ⟨⟨rhs, vs⟩, hrhs, h⟩ := Outcome.bind_eq_ok.mp h
        exact Or.inl ⟨op, us, rhs, vs, rfl, hrhs, h⟩
      · rintro (⟨op, us, rhs, vs, h, hrhs, he⟩ | ⟨h, -⟩)
        · cases h
          exact Outcome.bind_eq_ok.mpr ⟨_, hrhs, he⟩
        · cases h
  | none =>
      constructor
      · intro h
        cases h
        exact Or.inr ⟨rfl, rfl, rfl⟩
      · rintro (⟨op, us, rhs, vs, h, -⟩ | ⟨-, rfl, rfl⟩)
        · cases h
        · rfl

theorem levelAt_cons_eq_ok {t : Tier} {tighter : List Tier} :
    levelAt stop below (t :: tighter) ts = .ok (e, rest) ↔
      ∃ lhs us, levelAt stop below tighter ts = .ok (lhs, us) ∧
        chainAt below t tighter lhs us = .ok (e, rest) := by
  constructor
  · intro h
    obtain ⟨⟨lhs, us⟩, hlhs, h⟩ := Outcome.bind_eq_ok.mp h
    exact ⟨lhs, us, hlhs, h⟩
  · rintro ⟨lhs, us, hlhs, h⟩
    exact Outcome.bind_eq_ok.mpr ⟨_, hlhs, h⟩

theorem coalesceAt_eq_ok :
    coalesceAt stop below ts = .ok (e, rest) ↔
      ∃ lhs us, levelAt stop below Tier.all ts = .ok (lhs, us) ∧
        ((∃ q vs rhs, us = ⟨.symbol .coalesce, q⟩ :: vs ∧
            below.coalesce vs = .ok (rhs, rest) ∧ e = binary .coalesce lhs rhs) ∨
          ((∀ q vs, us ≠ ⟨.symbol .coalesce, q⟩ :: vs) ∧ e = lhs ∧ rest = us)) := by
  constructor
  · intro h
    obtain ⟨⟨lhs, us⟩, hlhs, h⟩ := Outcome.bind_eq_ok.mp h
    refine ⟨lhs, us, hlhs, ?_⟩
    dsimp only at h
    cases hop : behind? .coalesce us with
    | some vs =>
        rw [hop] at h
        obtain ⟨⟨rhs, ws⟩, hrhs, h⟩ := Outcome.bind_eq_ok.mp h
        cases h
        obtain ⟨q, rfl⟩ := behind?_eq_some.mp hop
        exact Or.inl ⟨q, vs, rhs, rfl, hrhs, rfl⟩
    | none =>
        rw [hop] at h
        cases h
        exact Or.inr ⟨behind?_eq_none.mp hop, rfl, rfl⟩
  · rintro ⟨lhs, us, hlhs, ⟨q, vs, rhs, rfl, hrhs, rfl⟩ | ⟨hne, rfl, rfl⟩⟩
    · refine Outcome.bind_eq_ok.mpr ⟨_, hlhs, ?_⟩
      exact Outcome.bind_eq_ok.mpr ⟨_, hrhs, rfl⟩
    · refine Outcome.bind_eq_ok.mpr ⟨_, hlhs, ?_⟩
      dsimp only
      rw [behind?_eq_none.mpr hne]
      rfl

theorem exprAt_eq_ok :
    exprAt stop below ts = .ok (e, rest) ↔
      ∃ test us, coalesceAt stop below ts = .ok (test, us) ∧
        ((∃ p vs yes q ws no, us = ⟨.symbol .question, p⟩ :: vs ∧
            below.expr vs = .ok (yes, ⟨.symbol .colon, q⟩ :: ws) ∧
            below.expr ws = .ok (no, rest) ∧
            e = .conditional ⟨test.span.start, no.span.stop⟩ test yes no) ∨
          ((∀ q vs, us ≠ ⟨.symbol .question, q⟩ :: vs) ∧ e = test ∧ rest = us)) := by
  constructor
  · intro h
    obtain ⟨⟨test, us⟩, htest, h⟩ := Outcome.bind_eq_ok.mp h
    refine ⟨test, us, htest, ?_⟩
    dsimp only at h
    cases hop : behind? .question us with
    | some vs =>
        rw [hop] at h
        obtain ⟨⟨yes, xs⟩, hyes, h⟩ := Outcome.bind_eq_ok.mp h
        obtain ⟨⟨c, ws⟩, hcolon, h⟩ := Outcome.bind_eq_ok.mp h
        obtain ⟨⟨no, zs⟩, hno, h⟩ := Outcome.bind_eq_ok.mp h
        cases h
        obtain ⟨p, rfl⟩ := behind?_eq_some.mp hop
        obtain ⟨q, rfl, -⟩ := readSymbol_eq_ok.mp hcolon
        exact Or.inl ⟨p, vs, yes, q, ws, no, rfl, hyes, hno, rfl⟩
    | none =>
        rw [hop] at h
        cases h
        exact Or.inr ⟨behind?_eq_none.mp hop, rfl, rfl⟩
  · rintro ⟨test, us, htest, ⟨p, vs, yes, q, ws, no, rfl, hyes, hno, rfl⟩ | ⟨hne, rfl, rfl⟩⟩
    · refine Outcome.bind_eq_ok.mpr ⟨_, htest, ?_⟩
      refine Outcome.bind_eq_ok.mpr ⟨_, hyes, ?_⟩
      refine Outcome.bind_eq_ok.mpr ⟨_, readSymbol_eq_ok.mpr ⟨q, rfl, rfl⟩, ?_⟩
      exact Outcome.bind_eq_ok.mpr ⟨_, hno, rfl⟩
    · refine Outcome.bind_eq_ok.mpr ⟨_, htest, ?_⟩
      dsimp only
      rw [behind?_eq_none.mpr hne]
      rfl

end Rules

/-! ### Lambdas -/

theorem readParam_eq_ok {ts rest : List Lexeme} {param : String} :
    readParam stop ts = .ok (param, rest) ↔
      (∃ p q r, ts = ⟨.symbol .openParen, p⟩ :: ⟨.name param, q⟩ ::
          ⟨.symbol .closeParen, r⟩ :: rest) ∨
        ∃ q, ts = ⟨.name param, q⟩ :: rest := by
  unfold readParam
  cases hopen : behind? .openParen ts with
  | some us =>
      obtain ⟨p, rfl⟩ := behind?_eq_some.mp hopen
      constructor
      · intro h
        obtain ⟨⟨n, c, vs⟩, hname, hclose⟩ := Outcome.bind_eq_ok.mp h
        obtain ⟨⟨c', ws⟩, hparen, hnode⟩ := Outcome.bind_eq_ok.mp hclose
        cases hnode
        obtain ⟨q, rfl, -⟩ := readName_eq_ok.mp hname
        obtain ⟨r, rfl, -⟩ := readSymbol_eq_ok.mp hparen
        exact Or.inl ⟨p, q, r, rfl⟩
      · rintro (⟨p, q, r, h⟩ | ⟨q, h⟩)
        · cases h
          refine Outcome.bind_eq_ok.mpr ⟨_, readName_eq_ok.mpr ⟨q, rfl, rfl⟩, ?_⟩
          exact Outcome.bind_eq_ok.mpr ⟨_, readSymbol_eq_ok.mpr ⟨r, rfl, rfl⟩, rfl⟩
        · cases h
  | none =>
      constructor
      · intro h
        obtain ⟨⟨n, c, us⟩, hname, hnode⟩ := Outcome.bind_eq_ok.mp h
        cases hnode
        obtain ⟨q, rfl, -⟩ := readName_eq_ok.mp hname
        exact Or.inr ⟨q, rfl⟩
      · rintro (⟨p, q, r, rfl⟩ | ⟨q, rfl⟩)
        · cases hopen
        · exact Outcome.bind_eq_ok.mpr ⟨_, readName_eq_ok.mpr ⟨q, rfl, rfl⟩, rfl⟩

theorem readLambda_eq_ok {ts : List Lexeme} {lambda : LambdaExpr} :
    readLambda stop ts = .ok lambda ↔
      ∃ a us, readParam stop ts = .ok (lambda.param, ⟨.symbol .arrow, a⟩ :: us) ∧
        (Rules.ofBudget stop maxDepth).expr us = .ok (lambda.body, []) := by
  constructor
  · intro h
    obtain ⟨⟨param, us⟩, hparam, hrest⟩ := Outcome.bind_eq_ok.mp h
    obtain ⟨⟨c, vs⟩, harrow, hexpr⟩ := Outcome.bind_eq_ok.mp hrest
    obtain ⟨⟨body, ws⟩, hbody, hend⟩ := Outcome.bind_eq_ok.mp hexpr
    obtain ⟨a, rfl, -⟩ := readSymbol_eq_ok.mp harrow
    cases ws with
    | nil =>
        cases hend
        exact ⟨a, vs, hparam, hbody⟩
    | cons l ws => cases hend
  · rintro ⟨a, us, hparam, hbody⟩
    refine Outcome.bind_eq_ok.mpr ⟨_, hparam, ?_⟩
    refine Outcome.bind_eq_ok.mpr ⟨_, readSymbol_eq_ok.mpr ⟨a, rfl, rfl⟩, ?_⟩
    exact Outcome.bind_eq_ok.mpr ⟨_, hbody, rfl⟩

theorem parseLambda_eq_ok {source : List Char} {lambda : LambdaExpr} :
    parseLambda source = .ok lambda ↔
      ∃ ts, tokenize source = .ok ts ∧
        readLambda (Text.byteLength source) ts = .ok lambda := by
  unfold parseLambda
  cases tokenize source with
  | error issues =>
      constructor
      · intro h
        cases h
      · rintro ⟨ts, h, -⟩
        cases h
  | ok ts =>
      constructor
      · intro h
        refine ⟨ts, rfl, ?_⟩
        dsimp only at h
        split at h
        · cases h
        · rename_i found hfound
          cases h
          exact hfound
      · rintro ⟨us, h, hread⟩
        cases h
        dsimp only
        rw [hread]

end LambdaShell
