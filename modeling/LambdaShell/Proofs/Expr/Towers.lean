/-
The tallest trees.

A tree is no taller than the tokens of its text can pay for, and no accepted tree is taller
than `tallest` allows for.  The first bound is the limit where there are few tokens; the
second is reached where there are many.  A tower is built from the inside out: an expression
that uses up a budget becomes the argument of a function, and on top of the call stand as
many members as there are levels, then as many operators of each level of strength, a `??`
and a `?:`.  All of them are read with the budget of the call, because every chain gives back
what its links have spent.

So the longest way down in an accepted tree has exactly 14302 nodes, and not 64.
-/
import Mathlib
import LambdaShell.Proofs.Expr.Completeness
import LambdaShell.Proofs.Expr.Height
import LambdaShell.Proofs.Expr.Spelling

namespace LambdaShell

variable {stop n k : Nat}

/-! ### The longest way down -/

namespace Expr

/-- Some way down is as long as the tree is high. -/
theorem exists_path (e : Expr) : ∃ path, Path e path ∧ path.length = e.height := by
  by_contra hnone
  have hpos := e.height_pos
  have hshort : e.height ≤ e.height - 1 := by
    refine height_le_iff.mpr fun path hpath => ?_
    have hle := height_le_iff.mp (Nat.le_refl e.height) path hpath
    have hne : path.length ≠ e.height := fun heq => hnone ⟨path, hpath, heq⟩
    omega
  omega

end Expr

/-! ### What a node costs

Every node that has children is written with a token that can cost a level, so no way down is
longer than what its tokens cost, but for its last node. -/

mutual

theorem Derives.height_le {p : Phrase} {ts : List Lexeme} {e : Expr} :
    Derives p ts e → e.height ≤ cost ts + 1
  | .conditional htest hyes hno => by
      have htest := htest.height_le
      have hyes := hyes.height_le
      have hno := hno.height_le
      simp only [Expr.height, cost_append, cost_cons, Token.cost]
      omega
  | .expr h => h.height_le
  | .orElse hlhs hrhs => by
      have hlhs := hlhs.height_le
      have hrhs := hrhs.height_le
      simp only [Rules.binary, Expr.height, cost_append, cost_cons, Token.cost]
      omega
  | .coalesce h => h.height_le
  | .infixed _ hlhs hrhs => by
      have hlhs := hlhs.height_le
      have hrhs := hrhs.height_le
      simp only [Rules.binary, Expr.height, cost_append, cost_cons, BinaryOp.cost_symbol]
      omega
  | .operand h => h.height_le
  | .prefixed h => by
      have hoperand := h.height_le
      simp only [Expr.height, cost_cons, UnaryOp.cost_symbol]
      omega
  | .cast _ h => by
      have hoperand := h.height_le
      simp only [Expr.height, cost_cons, Token.cost]
      omega
  | .unary h => h.height_le
  | .member h _ => by
      have htarget := h.height_le
      simp only [Expr.height, cost_append, cost_cons, Token.cost]
      omega
  | .method h _ hargs => by
      have htarget := h.height_le
      have hargs := hargs.height_le
      simp only [Expr.height, cost_append, cost_cons, Token.cost]
      omega
  | .access h => h.height_le
  | .literal _ => Nat.le_add_left 1 _
  | .name => Nat.le_add_left 1 _
  | .paren h _ => by
      have hinner := h.height_le
      simp only [Expr.height_withSpan, cost_append, cost_cons, Token.cost]
      omega
  | .record h => by
      have hmembers := h.height_le
      simp only [Expr.height, cost_append, cost_cons, Token.cost]
      omega
  | .math h => by
      have hargs := h.height_le
      simp only [Expr.height, cost_append, cost_cons, Token.cost]
      omega

theorem DerivesArgs.height_le {ts : List Lexeme} {es : List Expr} :
    DerivesArgs ts es → Expr.heightOfArgs es ≤ cost ts + 1
  | .none => Nat.zero_le _
  | .one h => by
      have harg := h.height_le
      simp only [Expr.heightOfArgs]
      omega
  | .more h hmore => by
      have harg := h.height_le
      have hargs := hmore.height_le
      simp only [Expr.heightOfArgs, cost_append, cost_cons, Token.cost] at hargs ⊢
      omega

theorem DerivesMember.height_le {ts : List Lexeme} {m : String × Expr} :
    DerivesMember ts m → m.2.height ≤ cost ts + 1
  | .named h => by
      have hvalue := h.height_le
      simp only [cost_cons, Token.cost]
      omega
  | .suggested h _ => h.height_le

theorem DerivesMembers.height_le {ts : List Lexeme} {ms : List (String × Expr)} :
    DerivesMembers ts ms → Expr.heightOfMembers ms ≤ cost ts + 1
  | .none => Nat.zero_le _
  | .last h => by
      have hmember := h.height_le
      simp only [Expr.heightOfMembers]
      omega
  | .more h hmore => by
      have hmember := h.height_le
      have hmembers := hmore.height_le
      simp only [Expr.heightOfMembers, cost_append, cost_cons, Token.cost]
      omega

end

theorem Sentence.height_le {ts : List Lexeme} {lambda : LambdaExpr} (h : Sentence ts lambda) :
    lambda.body.height ≤ cost ts + 1 := by
  cases h with
  | @lambda ps us param body a _ hbody =>
      have hle := hbody.height_le
      show body.height ≤ cost (ps ++ ⟨.symbol .arrow, a⟩ :: us) + 1
      rw [cost_append, cost_cons]
      omega

/-! ### What a tower is made of -/

/-- An operator of a level. -/
def Tier.sample : Tier → BinaryOp
  | or => .or
  | and => .and
  | equality => .eq
  | relational => .lt
  | additive => .add
  | multiplicative => .mul

theorem Tier.tier?_sample (t : Tier) : t.sample.tier? = some t := by
  cases t <;> rfl

namespace Tower

/-- A name. -/
def brick : Token := .name "x"

/-- Operators with a name behind each of them. -/
def links (t : Tier) : Nat → List Token
  | 0 => []
  | k + 1 => .symbol t.sample.symbol :: brick :: links t k

/-- Points with a name behind each of them. -/
def dots : Nat → List Token
  | 0 => []
  | k + 1 => .symbol .dot :: brick :: dots k

/-- Members, and the operators of some levels on top of them, tightest first. -/
def storeys (n : Nat) : List Tier → List Token
  | [] => dots n
  | t :: tiers => storeys n tiers ++ links t n

/-- A `??` with a name behind it, if there is a level left to read the name. -/
def fallback : Nat → List Token
  | 0 => []
  | _ + 1 => [.symbol .coalesce, brick]

/-- A `?:` with names in its branches, if there is a level left to read them. -/
def branches : Nat → List Token
  | 0 => []
  | _ + 1 => [.symbol .question, brick, .symbol .colon, brick]

/-- All that can stand on a primary expression. -/
def raise (n : Nat) (base : List Token) : List Token :=
  base ++ storeys n Tier.all ++ fallback n ++ branches n

/-- A call of a function. -/
def call (ts : List Token) : List Token :=
  .name "Math" :: .symbol .dot :: brick :: .symbol .openParen :: (ts ++ [.symbol .closeParen])

/-- What is read with one level more than `n`. -/
def tower : Nat → List Token
  | 0 => raise 0 [brick]
  | n + 1 => raise (n + 1) (call (tower n))

end Tower

open Tower

/-- However they are spelled, the reader reads these tokens in front of anything that holds
on to them less than so tightly, and answers a tree of that height. -/
structure Reader.Raises (r : Reader) (strength height : Nat) (ts : List Token) : Prop where
  writable : AllWritable ts
  reads : ∀ {ls : List Lexeme} (rest : List Lexeme), ls.map (·.token) = ts →
    binding rest < strength → ∃ e, r (ls ++ rest) = .ok (e, rest) ∧ e.height = height

theorem binding_links {t : Tier} {ls rest : List Lexeme} (hls : ls.map (·.token) = links t k)
    (hrest : binding rest < t.strength) : binding (ls ++ rest) ≤ t.strength := by
  cases k with
  | zero =>
      obtain rfl := List.map_eq_nil_iff.mp hls
      exact Nat.le_of_lt hrest
  | succ k =>
      obtain ⟨s, us, rfl, -⟩ := lexemes_cons hls
      exact Nat.le_of_eq (BinaryOp.binding_symbol t.tier?_sample)

theorem binding_dots {ls rest : List Lexeme} (hls : ls.map (·.token) = dots k)
    (hrest : binding rest < 10) : binding (ls ++ rest) ≤ 10 := by
  cases k with
  | zero =>
      obtain rfl := List.map_eq_nil_iff.mp hls
      exact Nat.le_of_lt hrest
  | succ k =>
      obtain ⟨d, us, rfl, -⟩ := lexemes_cons hls
      exact Nat.le_refl 10

@[simp] theorem writable_brick : brick.Writable :=
  (by decide : IsName "x")

@[simp] theorem writable_links (t : Tier) (k : Nat) : AllWritable (links t k) := by
  induction k with
  | zero => exact allWritable_nil
  | succ k ih => simp [links, ih]

@[simp] theorem writable_dots (k : Nat) : AllWritable (dots k) := by
  induction k with
  | zero => exact allWritable_nil
  | succ k ih => simp [dots, ih]

theorem derives_name (p : Phrase) (q : Span) : Derives p [⟨brick, q⟩] (.name q "x") :=
  Derives.weaken (q := .primary) .name p.strength_le

namespace Rules

/-! ### Chains -/

theorem membersAt_dots {target : Expr} {ls rest : List Lexeme} (hk : k ≤ n)
    (hls : ls.map (·.token) = dots k) (hrest : binding rest < 10) :
    ∃ e, membersAt (ofBudget stop n) target (ls ++ rest) = .ok (e, rest) ∧
      e.height = target.height + k := by
  induction k generalizing n target ls with
  | zero =>
      obtain rfl := List.map_eq_nil_iff.mp hls
      exact ⟨target, membersAt_eq_ok.mpr (Or.inr ⟨ne_cons_of_binding hrest, rfl, rfl⟩), rfl⟩
  | succ k ih =>
      obtain ⟨d, us, rfl, hus⟩ := lexemes_cons hls
      obtain ⟨q, vs, rfl, hvs⟩ := lexemes_cons hus
      obtain ⟨m, rfl⟩ : ∃ m, n = m + 1 := ⟨n - 1, by omega⟩
      have hcall : ∀ p ws, vs ++ rest ≠ ⟨.symbol .openParen, p⟩ :: ws :=
        ne_cons_of_binding (Nat.lt_succ_of_le (binding_dots hvs hrest))
      have hmore : ∃ e, membersAt (ofBudget stop m)
          (.member ⟨target.span.start, q.stop⟩ target "x") (vs ++ rest) = .ok (e, rest) ∧
            e.height = target.height + 1 + k := ih (by omega) hvs
      obtain ⟨e, he, hheight⟩ := hmore
      have hmember : memberAt stop (ofBudget stop m) target (⟨brick, q⟩ :: (vs ++ rest))
          = .ok (e, rest) :=
        memberAt_eq_ok.mpr ⟨"x", q, vs ++ rest, rfl, Or.inr ⟨hcall, he⟩⟩
      refine ⟨e, membersAt_eq_ok.mpr (Or.inl ⟨d, _, rfl, hmember⟩), ?_⟩
      omega

theorem chainAt_links {t : Tier} {lhs : Expr} {ls rest : List Lexeme} (hk : k ≤ n)
    (hls : ls.map (·.token) = links t k) (hrest : binding rest < t.strength) :
    ∃ e, chainAt (ofBudget stop n) t t.tighter lhs (ls ++ rest) = .ok (e, rest) ∧
      e.height = lhs.height + k := by
  induction k generalizing n lhs ls with
  | zero =>
      obtain rfl := List.map_eq_nil_iff.mp hls
      exact ⟨lhs, chainAt_eq_ok.mpr (Or.inr ⟨Tier.next?_eq_none hrest, rfl, rfl⟩), rfl⟩
  | succ k ih =>
      obtain ⟨s, us, rfl, hus⟩ := lexemes_cons hls
      obtain ⟨q, vs, rfl, hvs⟩ := lexemes_cons hus
      obtain ⟨m, rfl⟩ : ∃ m, n = m + 1 := ⟨n - 1, by omega⟩
      have hname : levelAt stop (ofBudget stop m) t.tighter (⟨brick, q⟩ :: (vs ++ rest))
          = .ok (.name q "x", vs ++ rest) :=
        (derives_name t.operand q).complete.operand_eq (vs ++ rest) (Nat.zero_le m)
          (binding_links hvs hrest)
      have hmore : ∃ e, chainAt (ofBudget stop m) t t.tighter
          (binary t.sample lhs (.name q "x")) (vs ++ rest) = .ok (e, rest) ∧
            e.height = max lhs.height 1 + 1 + k := ih (by omega) hvs
      obtain ⟨e, he, hheight⟩ := hmore
      have hnext : t.next? (⟨.symbol t.sample.symbol, s⟩ :: ⟨brick, q⟩ :: (vs ++ rest))
          = some (t.sample, ⟨brick, q⟩ :: (vs ++ rest)) :=
        Tier.next?_eq_some.mpr ⟨_, s, rfl, Tier.opOf?_symbol t.tier?_sample⟩
      refine ⟨e, chainAt_eq_ok.mpr (Or.inl ⟨_, _, _, _, hnext, hname, he⟩), ?_⟩
      have hpos := lhs.height_pos
      omega

/-! ### Towers -/

/-- However they are spelled, these tokens are a primary expression of the greatest height. -/
structure RaisesPrimary (stop n : Nat) (ts : List Token) : Prop where
  writable : AllWritable ts
  reads : ∀ {ls : List Lexeme} (rest : List Lexeme), ls.map (·.token) = ts →
    Lead.next? (ls ++ rest) = none ∧
      ∃ e, primaryAt stop (ofBudget stop n) (ls ++ rest) = .ok (e, rest) ∧
        e.height = tallest n + 1

theorem raisesPrimary_brick : RaisesPrimary stop 0 [brick] where
  writable := by simp
  reads rest hls := by
    obtain ⟨q, rfl⟩ := lexemes_one hls
    have hname : ReadsPrimary stop (ofBudget stop 0) (⟨brick, q⟩ :: rest) (.name q "x") rest :=
      .name (fun h => absurd h (by decide))
    exact ⟨rfl, _, primaryAt_eq_ok.mpr hname, rfl⟩

/-- A call of a function stands on its argument. -/
theorem raisesPrimary_call {ts : List Token}
    (h : Reader.Raises (ofBudget stop n).expr 1 (tallest n) ts) :
    RaisesPrimary stop n (call ts) where
  writable := by
    have hMath : IsName "Math" := by decide
    simp [call, hMath, h.writable]
  reads rest hls := by
    obtain ⟨q, us, rfl, hus⟩ := lexemes_cons hls
    obtain ⟨d, vs, rfl, hvs⟩ := lexemes_cons hus
    obtain ⟨f, ws, rfl, hws⟩ := lexemes_cons hvs
    obtain ⟨p, xs, rfl, hxs⟩ := lexemes_cons hws
    obtain ⟨ys, c, rfl, hys⟩ := lexemes_last hxs
    obtain ⟨e, he, hheight⟩ := h.reads (⟨.symbol .closeParen, c⟩ :: rest) hys
      (show 0 < 1 by decide)
    have hargs : readArgs stop (ofBudget stop n).expr (ys ++ ⟨.symbol .closeParen, c⟩ :: rest)
        = .ok ([e], c.stop, rest) := by
      obtain ⟨used, hused, hd⟩ := (sound_ofBudget n).expr he
      obtain rfl := List.append_cancel_right hused
      refine readArgs_eq_ok.mpr (Or.inr ⟨fun _ _ => hd.opens.not_closes (Or.inl rfl), ?_⟩)
      exact readArgsUpTo_eq_ok.mpr ⟨e, _, he, Or.inr ⟨c, rfl, rfl, rfl⟩⟩
    refine ⟨rfl, .math ⟨q.start, c.stop⟩ "x" [e], primaryAt_eq_ok.mpr ?_, ?_⟩
    · rw [List.cons_append, List.cons_append, List.cons_append, List.cons_append,
        List.append_assoc]
      exact .math hargs
    · rw [Expr.height, Expr.heightOfArgs, Expr.heightOfArgs, hheight, Nat.max_zero]

theorem unaryAt_raises {base : List Token} (h : RaisesPrimary stop n base) :
    Reader.Raises (unaryAt stop (ofBudget stop n)) 9 (operandHeight n 0) (base ++ dots n) where
  writable := by simp [h.writable]
  reads {ls rest} hls hrest := by
    obtain ⟨us, vs, rfl, hus, hvs⟩ := List.map_eq_append_iff.mp hls
    obtain ⟨hlead, a, ha, hprimary⟩ := h.reads (vs ++ rest) hus
    have hmembers : ∃ e, membersAt (ofBudget stop n) a (vs ++ rest) = .ok (e, rest) ∧
        e.height = a.height + n := membersAt_dots (Nat.le_refl n) hvs (Nat.lt_succ_of_lt hrest)
    obtain ⟨e, he, hheight⟩ := hmembers
    rw [List.append_assoc]
    refine ⟨e, unaryAt_eq_ok.mpr (Or.inr ⟨hlead, a, vs ++ rest, ha, he⟩), ?_⟩
    rw [hheight, hprimary, operandHeight]
    omega

theorem tierAt_raises {t : Tier} {base : List Token}
    (h : Reader.Raises (levelAt stop (ofBudget stop n) t.tighter) t.operand.strength
      (operandHeight n t.tighter.length) (base ++ storeys n t.tighter)) :
    Reader.Raises (levelAt stop (ofBudget stop n) (t :: t.tighter)) t.strength
      (operandHeight n (t.tighter.length + 1)) (base ++ storeys n (t :: t.tighter)) where
  writable := by
    rw [storeys, ← List.append_assoc]
    simp [allWritable_append.mp h.writable]
  reads {ls rest} hls hrest := by
    rw [storeys, ← List.append_assoc] at hls
    obtain ⟨vs, ws, rfl, hvs, hws⟩ := List.map_eq_append_iff.mp hls
    have hlinks := binding_links hws hrest
    obtain ⟨lhs, hlhs, hoperand⟩ := h.reads (ws ++ rest) hvs
      (by rw [Tier.strength_operand]; omega)
    have hchain : ∃ e, chainAt (ofBudget stop n) t t.tighter lhs (ws ++ rest) = .ok (e, rest) ∧
        e.height = lhs.height + n := chainAt_links (Nat.le_refl n) hws hrest
    obtain ⟨e, he, hheight⟩ := hchain
    rw [List.append_assoc]
    refine ⟨e, levelAt_cons_eq_ok.mpr ⟨lhs, ws ++ rest, hlhs, he⟩, ?_⟩
    rw [hheight, hoperand, operandHeight_succ]

/-- Members and operators of every level stand on a primary expression. -/
theorem levelAt_raises {base : List Token} (h : RaisesPrimary stop n base) :
    Reader.Raises (levelAt stop (ofBudget stop n) Tier.all) 3 (operandHeight n 6)
      (base ++ storeys n Tier.all) := by
  have hoperand := Tier.operand_induction
    (P := fun p tiers => Reader.Raises (levelAt stop (ofBudget stop n) tiers) p.strength
      (operandHeight n tiers.length) (base ++ storeys n tiers))
    (unaryAt_raises h) (fun _ => tierAt_raises) .or
  exact tierAt_raises hoperand

/-- A `??` stands on the operators. -/
theorem coalesceAt_raises {ts : List Token}
    (h : Reader.Raises (levelAt stop (ofBudget stop n) Tier.all) 3 (operandHeight n 6) ts) :
    Reader.Raises (coalesceAt stop (ofBudget stop n)) 2 (operandHeight n 6 + min n 1)
      (ts ++ fallback n) := by
  cases n with
  | zero =>
      refine ⟨by simpa [fallback] using h.writable, ?_⟩
      intro ls rest hls hrest
      obtain ⟨e, he, hheight⟩ := h.reads rest (hls.trans (List.append_nil ts))
        (Nat.lt_succ_of_lt hrest)
      refine ⟨e, coalesceAt_eq_ok.mpr ⟨e, rest, he, Or.inr ⟨?_, rfl, rfl⟩⟩, hheight⟩
      exact ne_cons_of_binding hrest
  | succ m =>
      refine ⟨by simp [fallback, h.writable], ?_⟩
      intro ls rest hls hrest
      obtain ⟨vs, q, ws, rfl, hvs, hws⟩ := lexemes_middle hls
      obtain ⟨r, rfl⟩ := lexemes_one hws
      obtain ⟨lhs, hlhs, hheight⟩ := h.reads
        (⟨.symbol .coalesce, q⟩ :: ⟨brick, r⟩ :: rest) hvs (show 2 < 3 by decide)
      have hname : (ofBudget stop (m + 1)).coalesce (⟨brick, r⟩ :: rest)
          = .ok (.name r "x", rest) :=
        (derives_name .coalesce r).complete.coalesce_eq rest (Nat.succ_pos m) hrest
      rw [List.append_assoc]
      refine ⟨_, coalesceAt_eq_ok.mpr ⟨lhs, _, hlhs, Or.inl ⟨q, _, _, rfl, hname, rfl⟩⟩, ?_⟩
      have hpos := lhs.height_pos
      rw [binary, Expr.height, Expr.height]
      omega

/-- A `?:` stands on top. -/
theorem exprAt_raises {ts : List Token}
    (h : Reader.Raises (coalesceAt stop (ofBudget stop n)) 2 (operandHeight n 6 + min n 1) ts) :
    Reader.Raises (exprAt stop (ofBudget stop n)) 1 (tallest (n + 1)) (ts ++ branches n) := by
  cases n with
  | zero =>
      refine ⟨by simpa [branches] using h.writable, ?_⟩
      intro ls rest hls hrest
      obtain ⟨e, he, hheight⟩ := h.reads rest (hls.trans (List.append_nil ts))
        (Nat.lt_succ_of_lt hrest)
      refine ⟨e, exprAt_eq_ok.mpr ⟨e, rest, he, Or.inr ⟨?_, rfl, rfl⟩⟩, hheight⟩
      exact ne_cons_of_binding hrest
  | succ m =>
      refine ⟨by simp [branches, h.writable], ?_⟩
      intro ls rest hls hrest
      obtain ⟨vs, p, ws, rfl, hvs, hws⟩ := lexemes_middle hls
      obtain ⟨y, xs, rfl, hxs⟩ := lexemes_cons hws
      obtain ⟨q, zs, rfl, hzs⟩ := lexemes_cons hxs
      obtain ⟨z, rfl⟩ := lexemes_one hzs
      obtain ⟨test, htest, hheight⟩ := h.reads (⟨.symbol .question, p⟩ ::
        ⟨brick, y⟩ :: ⟨.symbol .colon, q⟩ :: ⟨brick, z⟩ :: rest) hvs (show 1 < 2 by decide)
      have hyes : (ofBudget stop (m + 1)).expr (⟨brick, y⟩ :: ⟨.symbol .colon, q⟩ ::
          ⟨brick, z⟩ :: rest) = .ok (.name y "x", ⟨.symbol .colon, q⟩ :: ⟨brick, z⟩ :: rest) :=
        (derives_name .expr y).complete.expr_eq _ (Nat.succ_pos m) rfl
      have hno : (ofBudget stop (m + 1)).expr (⟨brick, z⟩ :: rest) = .ok (.name z "x", rest) :=
        (derives_name .expr z).complete.expr_eq rest (Nat.succ_pos m) (Nat.lt_one_iff.mp hrest)
      rw [List.append_assoc]
      refine ⟨_, exprAt_eq_ok.mpr ⟨test, _, htest,
        Or.inl ⟨p, _, _, q, _, _, rfl, hyes, hno, rfl⟩⟩, ?_⟩
      have hpos := test.height_pos
      rw [operandHeight] at hheight
      rw [Expr.height, Expr.height, Expr.height, tallest]
      omega

theorem raise_raises {base : List Token} (h : RaisesPrimary stop n base) :
    Reader.Raises (exprAt stop (ofBudget stop n)) 1 (tallest (n + 1)) (raise n base) :=
  exprAt_raises (coalesceAt_raises (levelAt_raises h))

/-- A tower is as tall as its budget allows for. -/
theorem tower_raises (stop n : Nat) :
    Reader.Raises (ofBudget stop (n + 1)).expr 1 (tallest (n + 1)) (tower n) := by
  induction n with
  | zero => exact raise_raises raisesPrimary_brick
  | succ n ih => exact raise_raises (raisesPrimary_call ih)

end Rules

/-! ### Accepted texts -/

theorem tallest_maxDepth : tallest maxDepth = 14302 := by cbv

/-- No accepted tree is taller than the budget allows for. -/
theorem height_le_of_parseLambda {source : List Char} {lambda : LambdaExpr}
    (h : parseLambda source = .ok lambda) : lambda.body.height ≤ tallest maxDepth := by
  obtain ⟨ts, -, hread⟩ := parseLambda_eq_ok.mp h
  obtain ⟨a, us, -, hbody⟩ := readLambda_eq_ok.mp hread
  exact (Rules.low_ofBudget maxDepth).expr_le hbody

/-- A tower is accepted, and as tall as the budget allows for. -/
theorem exists_tallest : ∃ source lambda, parseLambda source = .ok lambda ∧
    lambda.body.height = tallest maxDepth := by
  have hwritable : AllWritable (brick :: .symbol .arrow :: tower 63) := by
    simp [(Rules.tower_raises 0 63).writable]
  obtain ⟨ls, hls, htokens⟩ := tokenize_spell hwritable
  obtain ⟨q, us, rfl, hus⟩ := lexemes_cons htokens
  obtain ⟨a, ts, rfl, hts⟩ := lexemes_cons hus
  have hraises := Rules.tower_raises
    (Text.byteLength (spell (brick :: .symbol .arrow :: tower 63))) 63
  obtain ⟨body, hbody, hheight⟩ := hraises.reads [] hts (show 0 < 1 by decide)
  rw [List.append_nil] at hbody
  refine ⟨_, ⟨"x", body⟩, parseLambda_eq_ok.mpr ⟨_, hls, ?_⟩, hheight⟩
  exact readLambda_eq_ok.mpr ⟨a, ts, readParam_eq_ok.mpr (Or.inr ⟨q, rfl⟩), hbody⟩

/-- **Ways down are bounded**: in an accepted tree none has more than one node more than the
text has tokens that can cost a level, so with fewer than 64 of these the limit does bound the
tree; and none has more than 14302 nodes, whatever the length of the text. -/
theorem parseLambda_path_le {source : List Char} {lambda : LambdaExpr}
    (h : parseLambda source = .ok lambda) :
    ∃ ts, tokenize source = .ok ts ∧ ∀ path, Expr.Path lambda.body path →
      path.length ≤ cost ts + 1 ∧ path.length ≤ 14302 := by
  obtain ⟨ts, hts, hread⟩ := parseLambda_eq_ok.mp h
  have hcost := (readLambda_sound hread).height_le
  have htallest := height_le_of_parseLambda h
  rw [tallest_maxDepth] at htallest
  exact ⟨ts, hts, fun path hpath =>
    ⟨Expr.height_le_iff.mp hcost path hpath, Expr.height_le_iff.mp htallest path hpath⟩⟩

/-- `-x + 1`, an operator on top of one that stands in front of its operand. -/
def sumOfNegation : Expr :=
  .binary ⟨5, 11⟩ .add (.unary ⟨5, 7⟩ .neg (.name ⟨6, 7⟩ "x")) (.literal ⟨10, 11⟩ (.int 1))

theorem sumOfNegation_path_le :
    parseLambda "x => -x + 1".toList = .ok ⟨"x", sumOfNegation⟩ ∧
      Expr.Path sumOfNegation
        [sumOfNegation, .unary ⟨5, 7⟩ .neg (.name ⟨6, 7⟩ "x"), .name ⟨6, 7⟩ "x"] ∧
      ∃ ts, tokenize "x => -x + 1".toList = .ok ts ∧
        [sumOfNegation, .unary ⟨5, 7⟩ .neg (.name ⟨6, 7⟩ "x"), .name ⟨6, 7⟩ "x"].length
          ≤ cost ts + 1 ∧
        [sumOfNegation, .unary ⟨5, 7⟩ .neg (.name ⟨6, 7⟩ "x"), .name ⟨6, 7⟩ "x"].length
          ≤ 14302 := by
  have hread : parseLambda "x => -x + 1".toList = .ok ⟨"x", sumOfNegation⟩ := by cbv
  have hpath : Expr.Path sumOfNegation
      [sumOfNegation, .unary ⟨5, 7⟩ .neg (.name ⟨6, 7⟩ "x"), .name ⟨6, 7⟩ "x"] :=
    .down List.mem_cons_self (.down List.mem_cons_self (.root _))
  obtain ⟨ts, hts, hle⟩ := parseLambda_path_le hread
  exact ⟨hread, hpath, ts, hts, hle _ hpath⟩

/-- The limit itself is no bound: operators in front of an operand give their levels back to
the operators behind it. -/
theorem maxDepth_not_bound : ¬ ∀ (source : List Char) (lambda : LambdaExpr),
    parseLambda source = .ok lambda → ∀ path, Expr.Path lambda.body path → path.length ≤ maxDepth := by
  intro h
  have hread : ∃ lambda, parseLambda
      "x => ---------------------------------------------------------------x+1".toList
        = .ok lambda ∧ lambda.body.height = 65 := by
    exact ⟨_, by cbv, rfl⟩
  obtain ⟨lambda, hlambda, hheight⟩ := hread
  have hle := Expr.height_le_iff.mpr (h _ _ hlambda)
  rw [hheight] at hle
  exact absurd hle (by decide)

/-- **The longest way down has 14302 nodes**: no accepted tree has a longer one, and a tower
has one that long. -/
theorem isGreatest_path_length : IsGreatest {k | ∃ source lambda path,
    parseLambda source = .ok lambda ∧ Expr.Path lambda.body path ∧ path.length = k} 14302 := by
  constructor
  · obtain ⟨source, lambda, hread, hheight⟩ := exists_tallest
    obtain ⟨path, hpath, hlength⟩ := lambda.body.exists_path
    exact ⟨source, lambda, path, hread, hpath, by rw [hlength, hheight, tallest_maxDepth]⟩
  · rintro k ⟨source, lambda, path, hread, hpath, rfl⟩
    rw [← tallest_maxDepth]
    exact Expr.height_le_iff.mp (height_le_of_parseLambda hread) path hpath

end LambdaShell
