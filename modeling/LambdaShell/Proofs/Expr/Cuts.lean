/-
Reading a text that is cut short.

A reader looks at the tokens behind what it reads only to see that none of them goes on with
it.  If some of these tokens, or all of them, are cut off from the end, there is less that could
go on: the same tokens are read, with the same outcome and the same levels of the budget, and
what is left of the others is left.

This is what makes the reading of a phrase a matter of its own tokens, wherever it stands.
-/
import LambdaShell.Proofs.Expr.Readers

namespace LambdaShell

variable {stop : Nat}

/-- What is read is read again, to the same end, where only some of the tokens left stand behind
it. -/
def Cuts (r : Reader) : Prop :=
  ∀ ⦃ts : List Lexeme⦄ ⦃e : Expr⦄ ⦃rest : List Lexeme⦄, r ts = .ok (e, rest) →
    ∃ used, ts = used ++ rest ∧ ∀ us, us <+: rest → r (used ++ us) = .ok (e, us)

/-- Cut off at once behind it, what is read is read to its end. -/
theorem Cuts.alone {r : Reader} (hr : Cuts r) {ts rest : List Lexeme} {e : Expr}
    (h : r ts = .ok (e, rest)) : ∃ used, ts = used ++ rest ∧ r used = .ok (e, []) := by
  obtain ⟨used, hts, hcut⟩ := hr h
  have hend := hcut [] List.nil_prefix
  rw [List.append_nil] at hend
  exact ⟨used, hts, hend⟩

/-! ### Tokens that do not come next -/

section Next

variable {ts us : List Lexeme}

theorem ne_cons_of_front {s : Symbol} (hus : us <+: ts)
    (h : ∀ q vs, ts ≠ ⟨.symbol s, q⟩ :: vs) (q : Span) (vs : List Lexeme) :
    us ≠ ⟨.symbol s, q⟩ :: vs := by
  rintro rfl
  obtain ⟨ws, rfl⟩ := hus
  exact h q (vs ++ ws) rfl

theorem Tier.next?_none_of_front {t : Tier} (hus : us <+: ts) (h : t.next? ts = none) :
    t.next? us = none := by
  refine Option.eq_none_iff_forall_ne_some.mpr ?_
  rintro ⟨op, vs⟩ hnext
  obtain ⟨ws, rfl⟩ := hus
  obtain ⟨s, q, rfl, hop⟩ := Tier.next?_eq_some.mp hnext
  have hsome : t.next? (⟨.symbol s, q⟩ :: vs ++ ws) = some (op, vs ++ ws) :=
    Tier.next?_eq_some.mpr ⟨s, q, rfl, hop⟩
  rw [h] at hsome
  cases hsome

/-- What stands in front of an operand is found whatever there is behind it. -/
theorem Lead.next?_append {lead : Lead} {vs : List Lexeme} (h : Lead.next? us = some (lead, vs))
    (ws : List Lexeme) : Lead.next? (us ++ ws) = some (lead, vs ++ ws) := by
  refine Lead.next?_eq_some.mpr ?_
  rcases Lead.next?_eq_some.mp h with ⟨s, p, op, rfl, hop, rfl⟩ | ⟨p, n, q, r, t, rfl, ht, rfl⟩
  · exact Or.inl ⟨s, p, op, rfl, hop, rfl⟩
  · exact Or.inr ⟨p, n, q, r, t, rfl, ht, rfl⟩

theorem Lead.next?_none_of_front (hus : us <+: ts) (h : Lead.next? ts = none) :
    Lead.next? us = none := by
  refine Option.eq_none_iff_forall_ne_some.mpr ?_
  rintro ⟨lead, vs⟩ hnext
  obtain ⟨ws, rfl⟩ := hus
  rw [Lead.next?_append hnext] at h
  cases h

theorem not_startsNamed_of_front (hus : us <+: ts) (h : ¬ StartsNamed ts) : ¬ StartsNamed us := by
  rintro ⟨n, p, q, vs, rfl⟩
  obtain ⟨ws, rfl⟩ := hus
  exact h ⟨n, p, q, vs ++ ws, rfl⟩

end Next

/-! ### Lists -/

section Lists

variable {expr : Reader} {ts rest : List Lexeme} {close : Nat}

/-- There are no more arguments than tokens, so their number is no less bounded then. -/
theorem readArgsUpTo_cuts (hexpr : Cuts expr) {n : Nat} {es : List Expr}
    (h : readArgsUpTo stop expr n ts = .ok (es, close, rest)) :
    ∃ used, ts = used ++ rest ∧ ∀ us, us <+: rest → ∀ k, used.length ≤ k →
      readArgsUpTo stop expr k (used ++ us) = .ok (es, close, us) := by
  induction n generalizing ts es with
  | zero => cases h
  | succ n ih =>
      obtain ⟨e, us, he, hrest⟩ := readArgsUpTo_eq_ok.mp h
      obtain ⟨used, rfl, hcut⟩ := hexpr he
      rcases hrest with ⟨c, vs, ds, rfl, hds, rfl⟩ | ⟨q, rfl, hq, rfl⟩
      · obtain ⟨more, rfl, hmore⟩ := ih hds
        refine ⟨used ++ ⟨.symbol .comma, c⟩ :: more, by simp, fun us hus k hk => ?_⟩
        simp only [List.length_append, List.length_cons] at hk
        obtain ⟨j, rfl⟩ : ∃ j, k = j + 1 := ⟨k - 1, by omega⟩
        refine readArgsUpTo_eq_ok.mpr ⟨e, ⟨.symbol .comma, c⟩ :: (more ++ us), ?_,
          Or.inl ⟨c, more ++ us, ds, rfl, hmore us hus j (by omega), rfl⟩⟩
        simpa using hcut (⟨.symbol .comma, c⟩ :: (more ++ us)) (by simpa using hus)
      · refine ⟨used ++ [⟨.symbol .closeParen, q⟩], by simp, fun us hus k hk => ?_⟩
        simp only [List.length_append, List.length_singleton] at hk
        obtain ⟨j, rfl⟩ : ∃ j, k = j + 1 := ⟨k - 1, by omega⟩
        refine readArgsUpTo_eq_ok.mpr ⟨e, ⟨.symbol .closeParen, q⟩ :: us, ?_,
          Or.inr ⟨q, rfl, hq, rfl⟩⟩
        simpa using hcut (⟨.symbol .closeParen, q⟩ :: us) (by simpa using hus)

theorem readArgs_cuts (hexpr : Cuts expr) {es : List Expr}
    (h : readArgs stop expr ts = .ok (es, close, rest)) :
    ∃ used, ts = used ++ rest ∧ ∀ us, us <+: rest →
      readArgs stop expr (used ++ us) = .ok (es, close, us) := by
  rcases readArgs_eq_ok.mp h with ⟨q, rfl, hq, rfl⟩ | ⟨hne, h⟩
  · exact ⟨[⟨.symbol .closeParen, q⟩], rfl,
      fun us _ => readArgs_eq_ok.mpr (Or.inl ⟨q, rfl, hq, rfl⟩)⟩
  · obtain ⟨used, rfl, hcut⟩ := readArgsUpTo_cuts hexpr h
    refine ⟨used, rfl, fun us hus => readArgs_eq_ok.mpr (Or.inr ⟨?_, ?_⟩)⟩
    · exact ne_cons_of_front (by simpa using hus) hne
    · exact hcut us hus _ (by simp only [List.length_append]; omega)

theorem readMember_cuts (hexpr : Cuts expr) {m : String × Expr}
    (h : readMember stop expr ts = .ok (m, rest)) :
    ∃ used, ts = used ++ rest ∧ ∀ us, us <+: rest →
      readMember stop expr (used ++ us) = .ok (m, us) := by
  rcases readMember_eq_ok.mp h with ⟨p, q, us, rfl, he⟩ | ⟨hne, he, hn⟩
  · obtain ⟨used, rfl, hcut⟩ := hexpr he
    exact ⟨⟨.name m.1, p⟩ :: ⟨.symbol .assign, q⟩ :: used, rfl,
      fun us hus => readMember_eq_ok.mpr (Or.inl ⟨p, q, used ++ us, rfl, hcut us hus⟩)⟩
  · obtain ⟨used, rfl, hcut⟩ := hexpr he
    exact ⟨used, rfl, fun us hus => readMember_eq_ok.mpr
      (Or.inr ⟨not_startsNamed_of_front (by simpa using hus) hne, hcut us hus, hn⟩)⟩

theorem readMembersUpTo_cuts (hexpr : Cuts expr) {n : Nat} {ms : List (String × Expr)}
    (h : readMembersUpTo stop expr n ts = .ok (ms, close, rest)) :
    ∃ used, ts = used ++ rest ∧ ∀ us, us <+: rest → ∀ k, used.length ≤ k →
      readMembersUpTo stop expr k (used ++ us) = .ok (ms, close, us) := by
  induction n generalizing ts ms with
  | zero => cases h
  | succ n ih =>
      rcases readMembersUpTo_eq_ok.mp h with ⟨q, rfl, hq, rfl⟩ | ⟨hne, m, us, hm, hrest⟩
      · refine ⟨[⟨.symbol .closeBrace, q⟩], rfl, fun us _ k hk => ?_⟩
        obtain ⟨j, rfl⟩ : ∃ j, k = j + 1 := ⟨k - 1, by rw [List.length_singleton] at hk; omega⟩
        exact readMembersUpTo_eq_ok.mpr (Or.inl ⟨q, rfl, hq, rfl⟩)
      · obtain ⟨used, rfl, hcut⟩ := readMember_cuts hexpr hm
        rcases hrest with ⟨c, vs, ks, rfl, hks, rfl⟩ | ⟨q, rfl, hq, rfl⟩
        · obtain ⟨more, rfl, hmore⟩ := ih hks
          refine ⟨used ++ ⟨.symbol .comma, c⟩ :: more, by simp, fun us hus k hk => ?_⟩
          simp only [List.length_append, List.length_cons] at hk
          obtain ⟨j, rfl⟩ : ∃ j, k = j + 1 := ⟨k - 1, by omega⟩
          refine readMembersUpTo_eq_ok.mpr (Or.inr ⟨?_, m, ⟨.symbol .comma, c⟩ :: (more ++ us), ?_,
            Or.inl ⟨c, more ++ us, ks, rfl, hmore us hus j (by omega), rfl⟩⟩)
          · exact ne_cons_of_front (by simpa using hus) hne
          · simpa using hcut (⟨.symbol .comma, c⟩ :: (more ++ us)) (by simpa using hus)
        · refine ⟨used ++ [⟨.symbol .closeBrace, q⟩], by simp, fun us hus k hk => ?_⟩
          simp only [List.length_append, List.length_singleton] at hk
          obtain ⟨j, rfl⟩ : ∃ j, k = j + 1 := ⟨k - 1, by omega⟩
          refine readMembersUpTo_eq_ok.mpr (Or.inr ⟨?_, m, ⟨.symbol .closeBrace, q⟩ :: us, ?_,
            Or.inr ⟨q, rfl, hq, rfl⟩⟩)
          · exact ne_cons_of_front (by simpa using hus) hne
          · simpa using hcut (⟨.symbol .closeBrace, q⟩ :: us) (by simpa using hus)

theorem readMembers_cuts (hexpr : Cuts expr) {ms : List (String × Expr)}
    (h : readMembers stop expr ts = .ok (ms, close, rest)) :
    ∃ used, ts = used ++ rest ∧ ∀ us, us <+: rest →
      readMembers stop expr (used ++ us) = .ok (ms, close, us) := by
  obtain ⟨used, hts, hcut⟩ := readMembersUpTo_cuts hexpr h
  exact ⟨used, hts, fun us hus => hcut us hus _ (by simp only [List.length_append]; omega)⟩

end Lists

/-! ### The rules -/

namespace Rules

/-- Each rule reads the same where the text is cut short behind what it reads. -/
structure Cut (R : Rules) : Prop where
  expr : Cuts R.expr
  coalesce : Cuts R.coalesce
  level : ∀ tiers, Cuts (R.level tiers)
  chain : ∀ t tiers lhs, Cuts (R.chain t tiers lhs)
  unary : Cuts R.unary
  member : ∀ target, Cuts (R.member target)

theorem cut_exhausted : (exhausted stop).Cut where
  expr := nofun
  coalesce := nofun
  level := nofun
  chain := nofun
  unary := nofun
  member := nofun

variable {below : Rules} (hbelow : below.Cut)
include hbelow

theorem primaryAt_cuts : Cuts (primaryAt stop below) := by
  intro ts e rest h
  cases primaryAt_eq_ok.mp h with
  | @literal t q v _ hv => exact ⟨[⟨t, q⟩], rfl, fun us _ => primaryAt_eq_ok.mpr (.literal hv)⟩
  | @name n q _ hn =>
      exact ⟨[⟨.name n, q⟩], rfl,
        fun us hus => primaryAt_eq_ok.mpr (.name fun hmath => ne_cons_of_front hus (hn hmath))⟩
  | @math q d f p function us _ args close hargs =>
      obtain ⟨used, rfl, hcut⟩ := readArgs_cuts hbelow.expr hargs
      exact ⟨⟨.name "Math", q⟩ :: ⟨.symbol .dot, d⟩ :: ⟨.name function, f⟩ ::
        ⟨.symbol .openParen, p⟩ :: used, rfl,
        fun us hus => primaryAt_eq_ok.mpr (.math (hcut us hus))⟩
  | @paren p q us _ d hinner =>
      obtain ⟨used, rfl, hcut⟩ := hbelow.expr hinner
      refine ⟨⟨.symbol .openParen, p⟩ :: (used ++ [⟨.symbol .closeParen, q⟩]), by simp,
        fun us hus => primaryAt_eq_ok.mpr ?_⟩
      have hread := hcut (⟨.symbol .closeParen, q⟩ :: us) (by simpa using hus)
      simpa using ReadsPrimary.paren (p := p) hread
  | @record q p us _ members close hms =>
      obtain ⟨used, rfl, hcut⟩ := readMembers_cuts hbelow.expr hms
      exact ⟨⟨.keyword .new, q⟩ :: ⟨.symbol .openBrace, p⟩ :: used, rfl,
        fun us hus => primaryAt_eq_ok.mpr (.record (hcut us hus))⟩

theorem membersAt_cuts (target : Expr) : Cuts (membersAt below target) := by
  intro ts e rest h
  rcases membersAt_eq_ok.mp h with ⟨d, us, rfl, hmember⟩ | ⟨hne, rfl, rfl⟩
  · obtain ⟨used, rfl, hcut⟩ := hbelow.member target hmember
    exact ⟨⟨.symbol .dot, d⟩ :: used, rfl,
      fun us hus => membersAt_eq_ok.mpr (Or.inl ⟨d, used ++ us, rfl, hcut us hus⟩)⟩
  · exact ⟨[], rfl,
      fun us hus => membersAt_eq_ok.mpr (Or.inr ⟨ne_cons_of_front hus hne, rfl, rfl⟩)⟩

theorem memberAt_cuts (target : Expr) : Cuts (memberAt stop below target) := by
  intro ts e rest h
  obtain ⟨n, q, us, rfl, hnext⟩ := memberAt_eq_ok.mp h
  rcases hnext with ⟨p, vs, args, close, ws, rfl, hcall, hmore⟩ | ⟨hne, hmore⟩
  · obtain ⟨used, rfl, hargs⟩ := readArgs_cuts hbelow.expr hcall
    obtain ⟨more, rfl, hcut⟩ := membersAt_cuts hbelow _ hmore
    refine ⟨⟨.name n, q⟩ :: ⟨.symbol .openParen, p⟩ :: (used ++ more), by simp,
      fun us hus => memberAt_eq_ok.mpr ⟨n, q, ⟨.symbol .openParen, p⟩ :: (used ++ (more ++ us)),
        by simp, Or.inl ⟨p, _, args, close, more ++ us, rfl, ?_, hcut us hus⟩⟩⟩
    exact hargs (more ++ us) (by simpa using hus)
  · obtain ⟨more, rfl, hcut⟩ := membersAt_cuts hbelow _ hmore
    refine ⟨⟨.name n, q⟩ :: more, rfl, fun us hus => memberAt_eq_ok.mpr ⟨n, q, more ++ us, rfl,
      Or.inr ⟨ne_cons_of_front (by simpa using hus) hne, hcut us hus⟩⟩⟩

theorem unaryAt_cuts : Cuts (unaryAt stop below) := by
  intro ts e rest h
  rcases unaryAt_eq_ok.mp h with ⟨lead, us, d, hlead, hread, rfl⟩ | ⟨hlead, d, us, hread, hmore⟩
  · obtain ⟨used, rfl, hcut⟩ := hbelow.unary hread
    -- what stands in front is the same tokens, whatever is left behind the operand
    obtain ⟨front, hfront, hne, hnext⟩ : ∃ front, ts = front ++ (used ++ rest) ∧ front ≠ [] ∧
        ∀ vs, Lead.next? (front ++ vs) = some (lead, vs) := by
      rcases Lead.next?_eq_some.mp hlead with
        ⟨s, p, op, rfl, hop, rfl⟩ | ⟨p, n, q, r, t, rfl, ht, rfl⟩
      · exact ⟨[⟨.symbol s, p⟩], rfl, List.cons_ne_nil _ _,
          fun vs => Lead.next?_eq_some.mpr (Or.inl ⟨s, p, op, rfl, hop, rfl⟩)⟩
      · exact ⟨[⟨.symbol .openParen, p⟩, ⟨.name n, q⟩, ⟨.symbol .closeParen, r⟩], rfl,
          List.cons_ne_nil _ _,
          fun vs => Lead.next?_eq_some.mpr (Or.inr ⟨p, n, q, r, t, rfl, ht, rfl⟩)⟩
    subst hfront
    refine ⟨front ++ used, by simp, fun us hus => unaryAt_eq_ok.mpr (Or.inl
      ⟨lead, used ++ us, d, ?_, hcut us hus, ?_⟩)⟩
    · rw [List.append_assoc]
      exact hnext _
    · obtain ⟨l, ls, rfl⟩ := List.exists_cons_of_ne_nil hne
      rfl
  · obtain ⟨used, rfl, hprimary⟩ := primaryAt_cuts hbelow hread
    obtain ⟨more, rfl, hmembers⟩ := membersAt_cuts hbelow d hmore
    refine ⟨used ++ more, by simp, fun us hus => ?_⟩
    rw [List.append_assoc]
    refine unaryAt_eq_ok.mpr (Or.inr ⟨?_, d, more ++ us, ?_, hmembers us hus⟩)
    · exact Lead.next?_none_of_front (by simpa using hus) hlead
    · exact hprimary _ (by simpa using hus)

theorem chainAt_cuts (t : Tier) (tiers : List Tier) (lhs : Expr) :
    Cuts (chainAt below t tiers lhs) := by
  intro ts e rest h
  rcases chainAt_eq_ok.mp h with ⟨op, us, rhs, vs, hnext, hread, hmore⟩ | ⟨hnext, rfl, rfl⟩
  · obtain ⟨s, q, rfl, hop⟩ := Tier.next?_eq_some.mp hnext
    obtain ⟨used, rfl, hlevel⟩ := hbelow.level tiers hread
    obtain ⟨more, rfl, hchain⟩ := hbelow.chain t tiers _ hmore
    refine ⟨⟨.symbol s, q⟩ :: (used ++ more), by simp, fun us hus => chainAt_eq_ok.mpr (Or.inl
      ⟨op, used ++ (more ++ us), rhs, more ++ us, ?_, ?_, hchain us hus⟩)⟩
    · exact Tier.next?_eq_some.mpr ⟨s, q, by simp, hop⟩
    · exact hlevel _ (by simpa using hus)
  · exact ⟨[], rfl, fun us hus =>
      chainAt_eq_ok.mpr (Or.inr ⟨Tier.next?_none_of_front hus hnext, rfl, rfl⟩)⟩

theorem levelAt_cuts (tiers : List Tier) : Cuts (levelAt stop below tiers) := by
  induction tiers with
  | nil => exact unaryAt_cuts hbelow
  | cons t tiers ih =>
      intro ts e rest h
      obtain ⟨lhs, us, hread, hmore⟩ := levelAt_cons_eq_ok.mp h
      obtain ⟨used, rfl, hlhs⟩ := ih hread
      obtain ⟨more, rfl, hchain⟩ := chainAt_cuts hbelow t tiers lhs hmore
      refine ⟨used ++ more, by simp, fun us hus => ?_⟩
      rw [List.append_assoc]
      exact levelAt_cons_eq_ok.mpr
        ⟨lhs, more ++ us, hlhs _ (by simpa using hus), hchain us hus⟩

theorem coalesceAt_cuts : Cuts (coalesceAt stop below) := by
  intro ts e rest h
  obtain ⟨lhs, us, hread, hmore⟩ := coalesceAt_eq_ok.mp h
  obtain ⟨used, rfl, hlhs⟩ := levelAt_cuts hbelow Tier.all hread
  rcases hmore with ⟨q, vs, rhs, rfl, hread, rfl⟩ | ⟨hne, rfl, rfl⟩
  · obtain ⟨more, rfl, hrhs⟩ := hbelow.coalesce hread
    refine ⟨used ++ ⟨.symbol .coalesce, q⟩ :: more, by simp, fun us hus => coalesceAt_eq_ok.mpr
      ⟨lhs, ⟨.symbol .coalesce, q⟩ :: (more ++ us), ?_,
        Or.inl ⟨q, more ++ us, rhs, rfl, hrhs us hus, rfl⟩⟩⟩
    simpa using hlhs (⟨.symbol .coalesce, q⟩ :: (more ++ us)) (by simpa using hus)
  · exact ⟨used, rfl, fun us hus => coalesceAt_eq_ok.mpr
      ⟨e, us, hlhs us hus, Or.inr ⟨ne_cons_of_front hus hne, rfl, rfl⟩⟩⟩

theorem exprAt_cuts : Cuts (exprAt stop below) := by
  intro ts e rest h
  obtain ⟨test, us, hread, hmore⟩ := exprAt_eq_ok.mp h
  obtain ⟨used, rfl, htest⟩ := coalesceAt_cuts hbelow hread
  rcases hmore with ⟨p, vs, yes, q, ws, no, rfl, hthen, helse, rfl⟩ | ⟨hne, rfl, rfl⟩
  · obtain ⟨mid, rfl, hyes⟩ := hbelow.expr hthen
    obtain ⟨last, rfl, hno⟩ := hbelow.expr helse
    refine ⟨used ++ ⟨.symbol .question, p⟩ :: (mid ++ ⟨.symbol .colon, q⟩ :: last), by simp,
      fun us hus => exprAt_eq_ok.mpr
        ⟨test, ⟨.symbol .question, p⟩ :: (mid ++ ⟨.symbol .colon, q⟩ :: (last ++ us)), ?_,
          Or.inl ⟨p, _, yes, q, last ++ us, no, rfl, ?_, hno us hus, rfl⟩⟩⟩
    · simpa using htest (⟨.symbol .question, p⟩ :: (mid ++ ⟨.symbol .colon, q⟩ :: (last ++ us)))
        (by simpa using hus)
    · exact hyes _ (by simpa using hus)
  · exact ⟨used, rfl, fun us hus => exprAt_eq_ok.mpr
      ⟨e, us, htest us hus, Or.inr ⟨ne_cons_of_front hus hne, rfl, rfl⟩⟩⟩

theorem cut_deepen : (deepen stop below).Cut where
  expr := exprAt_cuts hbelow
  coalesce := coalesceAt_cuts hbelow
  level := levelAt_cuts hbelow
  chain := chainAt_cuts hbelow
  unary := unaryAt_cuts hbelow
  member := memberAt_cuts hbelow

omit hbelow in
/-- **Whatever the budget, each rule reads the same where the text is cut short.** -/
theorem cut_ofBudget (n : Nat) : (ofBudget stop n).Cut := by
  induction n with
  | zero => exact cut_exhausted
  | succ n ih => exact cut_deepen ih

end Rules

end LambdaShell
