/-
How tall an accepted expression can be.

A level of the budget is spent on each step down and on each link of a chain, but a chain
gives back what its links have spent: its operands and whatever comes behind it are read
with the budget that the chain began with.  Chains of different strengths stand on one
another, seven of them on a primary expression, so a budget of `n` allows for `7 * n` nodes
on top of each other before the budget of the next expression inside is any smaller.  The
height of a tree is therefore bounded by a square of the limit, not by the limit.

`tallest` is that bound.  It depends on the budget alone: whatever the length of the text,
no tree is taller.
-/
import LambdaShell.Proofs.Expr.Parts
import LambdaShell.Proofs.Expr.Readers

namespace LambdaShell

namespace Expr

/-! ### Ways down -/

/-- A way down from the root: each node is a child of the one before it. -/
inductive Path : Expr → List Expr → Prop where
  | root (e : Expr) : Path e [e]
  | down {e c : Expr} {path : List Expr} (hc : c ∈ e.children) (h : Path c path) :
      Path e (e :: path)

mutual

/-- The number of nodes on the longest way down. -/
def height : Expr → Nat
  | literal .. | name .. => 1
  | member _ target _ => target.height + 1
  | method _ target _ args => max target.height (heightOfArgs args) + 1
  | math _ _ args => heightOfArgs args + 1
  | cast _ _ operand | unary _ _ operand => operand.height + 1
  | binary _ _ l r => max l.height r.height + 1
  | conditional _ test yes no => max test.height (max yes.height no.height) + 1
  | record _ members => heightOfMembers members + 1

/-- The height of the tallest argument. -/
def heightOfArgs : List Expr → Nat
  | [] => 0
  | e :: es => max e.height (heightOfArgs es)

/-- The height of the tallest value of a record member. -/
def heightOfMembers : List (String × Expr) → Nat
  | [] => 0
  | (_, e) :: ms => max e.height (heightOfMembers ms)

end

theorem heightOfArgs_le {n : Nat} {es : List Expr} :
    heightOfArgs es ≤ n ↔ ∀ e ∈ es, e.height ≤ n := by
  induction es with
  | nil => simp [heightOfArgs]
  | cons e es ih => simp only [heightOfArgs, Nat.max_le, ih, List.forall_mem_cons]

theorem heightOfMembers_le {n : Nat} {ms : List (String × Expr)} :
    heightOfMembers ms ≤ n ↔ ∀ e ∈ ms.map (·.2), e.height ≤ n := by
  induction ms with
  | nil => simp [heightOfMembers]
  | cons m ms ih =>
      obtain ⟨k, e⟩ := m
      simp only [heightOfMembers, Nat.max_le, ih, List.map_cons, List.forall_mem_cons]

/-- A node is taller by one than its tallest child. -/
theorem height_le_succ {n : Nat} {e : Expr} :
    e.height ≤ n + 1 ↔ ∀ c ∈ e.children, c.height ≤ n := by
  cases e <;>
    simp only [height, children, heightOfArgs_le, heightOfMembers_le, Nat.max_le,
      Nat.add_le_add_iff_right, Nat.le_add_left, List.forall_mem_cons, List.not_mem_nil,
      false_implies, implies_true, and_true]

theorem height_pos (e : Expr) : 0 < e.height := by
  cases e <;> simp [height]

/-- The height bounds the ways down, and nothing smaller does. -/
theorem height_le_iff {e : Expr} {n : Nat} :
    e.height ≤ n ↔ ∀ path, Path e path → path.length ≤ n := by
  induction e using children_induction generalizing n with
  | h e ih =>
      cases n with
      | zero =>
          constructor
          · intro h
            exact absurd h (Nat.not_le_of_gt e.height_pos)
          · intro h
            exact absurd (h _ (.root e)) (Nat.not_succ_le_zero 0)
      | succ n =>
          rw [height_le_succ]
          constructor
          · intro h path hpath
            cases hpath with
            | root => exact Nat.succ_le_succ (Nat.zero_le n)
            | down hc hpath => exact Nat.succ_le_succ ((ih _ hc).mp (h _ hc) _ hpath)
          · intro h c hc
            refine (ih c hc).mpr fun path hpath => ?_
            exact Nat.le_of_succ_le_succ (h _ (.down hc hpath))

@[simp] theorem height_withSpan (s : Span) (e : Expr) : (e.withSpan s).height = e.height := by
  cases e <;> simp [withSpan, height]

end Expr

open LambdaShell.Expr

variable {stop : Nat}

/-! ### Lists -/

section Lists

variable {r : Reader} {P : Expr → Prop}

/-- What holds of everything a reader finds holds of all arguments read with it. -/
theorem readArgs_forall (hr : ∀ {ts e rest}, r ts = .ok (e, rest) → P e)
    {ts rest : List Lexeme} {es : List Expr} {close : Nat}
    (h : readArgs stop r ts = .ok (es, close, rest)) : ∀ e ∈ es, P e := by
  have hupTo : ∀ (n : Nat) {ts : List Lexeme} {es : List Expr},
      readArgsUpTo stop r n ts = .ok (es, close, rest) → ∀ e ∈ es, P e := by
    intro n
    induction n with
    | zero => intro ts es h; cases h
    | succ n ih =>
        intro ts es h
        obtain ⟨e, us, he, ⟨c, vs, ds, -, hds, rfl⟩ | ⟨c, -, -, rfl⟩⟩ := readArgsUpTo_eq_ok.mp h
        · exact List.forall_mem_cons.mpr ⟨hr he, ih hds⟩
        · exact List.forall_mem_singleton.mpr (hr he)
  rcases readArgs_eq_ok.mp h with ⟨c, -, -, rfl⟩ | ⟨-, hargs⟩
  · exact List.forall_mem_nil P
  · exact hupTo _ hargs

theorem readMembers_forall (hr : ∀ {ts e rest}, r ts = .ok (e, rest) → P e)
    {ts rest : List Lexeme} {ms : List (String × Expr)} {close : Nat}
    (h : readMembers stop r ts = .ok (ms, close, rest)) : ∀ e ∈ ms.map (·.2), P e := by
  have hmember : ∀ {ts us m}, readMember stop r ts = .ok (m, us) → P m.2 := by
    intro ts us m hm
    rcases readMember_eq_ok.mp hm with ⟨p, q, vs, -, he⟩ | ⟨-, he, -⟩
    · exact hr he
    · exact hr he
  have hupTo : ∀ (n : Nat) {ts : List Lexeme} {ms : List (String × Expr)},
      readMembersUpTo stop r n ts = .ok (ms, close, rest) → ∀ e ∈ ms.map (·.2), P e := by
    intro n
    induction n with
    | zero => intro ts ms h; cases h
    | succ n ih =>
        intro ts ms h
        rcases readMembersUpTo_eq_ok.mp h with
          ⟨c, -, -, rfl⟩ | ⟨-, m, us, hm, ⟨c, vs, ks, -, hks, rfl⟩ | ⟨c, -, -, rfl⟩⟩
        · exact List.forall_mem_nil P
        · exact List.forall_mem_cons.mpr ⟨hmember hm, ih hks⟩
        · exact List.forall_mem_singleton.mpr (hmember hm)
  exact hupTo _ h

end Lists

/-! ### What a budget allows -/

/-- The greatest height that a budget allows for. -/
def tallest : Nat → Nat
  | 0 => 0
  | n + 1 => tallest n + 1 + 7 * n + 2 * min n 1

/-- The greatest height of an operand under `k` levels of operators, when the budget inside
it is `n`: a primary expression, its members and the links of `k` chains. -/
def operandHeight (n k : Nat) : Nat := tallest n + 1 + n + k * n

theorem tallest_le_succ (n : Nat) : tallest n ≤ tallest (n + 1) := by
  rw [tallest]
  omega

theorem operandHeight_succ (n k : Nat) : operandHeight n (k + 1) = operandHeight n k + n := by
  rw [operandHeight, operandHeight, Nat.succ_mul]
  omega

theorem operandHeight_mono (n k : Nat) : operandHeight n k ≤ operandHeight (n + 1) k := by
  have hmul : k * n ≤ k * (n + 1) := Nat.mul_le_mul_left k (Nat.le_succ n)
  have htallest := tallest_le_succ n
  unfold operandHeight
  omega

/-- With a budget of `n` the reader reads nothing taller than its bound, which may count on
the level that reading has spent. -/
def Reader.Low (n : Nat) (bound : Nat → Nat) (r : Reader) : Prop :=
  ∀ ⦃ts : List Lexeme⦄ ⦃e : Expr⦄ ⦃rest : List Lexeme⦄, r ts = .ok (e, rest) →
    ∃ m, n = m + 1 ∧ e.height ≤ bound m

namespace Rules

/-- Each rule reads nothing taller than a budget of `n` allows for. -/
structure Low (n : Nat) (R : Rules) : Prop where
  expr : R.expr.Low n fun m => tallest (m + 1)
  coalesce : R.coalesce.Low n fun m => operandHeight m 6 + min m 1
  level : ∀ tiers, (R.level tiers).Low n fun m => operandHeight m tiers.length
  chain : ∀ t tiers lhs, (R.chain t tiers lhs).Low n fun m =>
    max lhs.height (operandHeight m tiers.length) + m
  unary : R.unary.Low n fun m => operandHeight m 0
  member : ∀ target, (R.member target).Low n fun m => max target.height (tallest m) + 1 + m

theorem low_exhausted : (exhausted stop).Low 0 where
  expr := nofun
  coalesce := nofun
  level := nofun
  chain := nofun
  unary := nofun
  member := nofun

variable {n : Nat} {below : Rules} {ts rest : List Lexeme} {e : Expr}

theorem Low.expr_le (hbelow : below.Low n) {ts rest : List Lexeme} {e : Expr}
    (h : below.expr ts = .ok (e, rest)) : e.height ≤ tallest n := by
  obtain ⟨m, rfl, he⟩ := hbelow.expr h
  exact he

theorem primaryAt_le (hbelow : below.Low n) (h : primaryAt stop below ts = .ok (e, rest)) :
    e.height ≤ tallest n + 1 := by
  cases primaryAt_eq_ok.mp h with
  | literal => exact Nat.succ_le_succ (Nat.zero_le _)
  | name => exact Nat.succ_le_succ (Nat.zero_le _)
  | math hargs => exact height_le_succ.mpr (readArgs_forall hbelow.expr_le hargs)
  | paren he =>
      rw [height_withSpan]
      exact Nat.le_succ_of_le (hbelow.expr_le he)
  | record hms => exact height_le_succ.mpr (readMembers_forall hbelow.expr_le hms)

/-- Members add a node each, whatever stands in the parentheses of their calls. -/
theorem membersAt_le (hbelow : below.Low n) {target : Expr} {b : Nat}
    (htarget : target.height ≤ b) (hb : tallest n ≤ b)
    (h : membersAt below target ts = .ok (e, rest)) : e.height ≤ b + n := by
  rcases membersAt_eq_ok.mp h with ⟨q, us, rfl, hmember⟩ | ⟨-, rfl, -⟩
  · obtain ⟨m, rfl, he⟩ := hbelow.member target hmember
    have htallest := tallest_le_succ m
    dsimp only at he
    omega
  · exact Nat.le_trans htarget (Nat.le_add_right b n)

theorem memberAt_le (hbelow : below.Low n) {target : Expr}
    (h : memberAt stop below target ts = .ok (e, rest)) :
    e.height ≤ max target.height (tallest n) + 1 + n := by
  obtain ⟨k, q, us, rfl, ⟨p, vs, args, close, ws, rfl, hargs, hmore⟩ | ⟨-, hmore⟩⟩ :=
    memberAt_eq_ok.mp h
  · refine membersAt_le hbelow (height_le_succ.mpr ?_) (by omega) hmore
    refine List.forall_mem_cons.mpr ⟨Nat.le_max_left _ _, fun a ha => ?_⟩
    exact Nat.le_trans (readArgs_forall hbelow.expr_le hargs a ha) (Nat.le_max_right _ _)
  · refine membersAt_le hbelow (height_le_succ.mpr ?_) (by omega) hmore
    exact List.forall_mem_singleton.mpr (Nat.le_max_left _ _)

theorem unaryAt_le (hbelow : below.Low n) (h : unaryAt stop below ts = .ok (e, rest)) :
    e.height ≤ operandHeight n 0 := by
  rcases unaryAt_eq_ok.mp h with ⟨lead, us, d, -, hd, rfl⟩ | ⟨-, d, us, hd, hmore⟩
  · obtain ⟨m, rfl, hle⟩ := hbelow.unary hd
    have hmono := operandHeight_mono m 0
    have htallest := tallest_le_succ m
    have happly : ∀ span, (lead.apply span d).height ≤ d.height + 1 := by
      intro span
      cases lead with
      | op o => exact Nat.le_refl _
      | cast t => exact Nat.le_refl _
    refine Nat.le_trans (happly _) ?_
    simp only [operandHeight] at hle ⊢
    omega
  · have hle := membersAt_le hbelow (primaryAt_le hbelow hd) (Nat.le_succ _) hmore
    simpa only [operandHeight, Nat.zero_mul, Nat.add_zero] using hle

/-- Each link of a chain adds a node; the operands behind its operators have less budget than
the one in front of them, and are no taller. -/
theorem chainAt_le (hbelow : below.Low n) {t : Tier} {tiers : List Tier} {lhs : Expr}
    (h : chainAt below t tiers lhs ts = .ok (e, rest)) :
    e.height ≤ max lhs.height (operandHeight n tiers.length) + n := by
  rcases chainAt_eq_ok.mp h with ⟨op, us, rhs, vs, -, hrhs, hmore⟩ | ⟨-, rfl, -⟩
  · obtain ⟨m, rfl, hle⟩ := hbelow.level tiers hrhs
    obtain ⟨k, hk, hchain⟩ := hbelow.chain t tiers _ hmore
    cases hk
    have hmono := operandHeight_mono m tiers.length
    have hnode : (Rules.binary op lhs rhs).height = max lhs.height rhs.height + 1 := rfl
    dsimp only at hle hchain
    omega
  · omega

theorem levelAt_le (hbelow : below.Low n) (tiers : List Tier) :
    ∀ {ts rest : List Lexeme} {e : Expr}, levelAt stop below tiers ts = .ok (e, rest) →
      e.height ≤ operandHeight n tiers.length := by
  induction tiers with
  | nil => exact unaryAt_le hbelow
  | cons t tiers ih =>
      intro ts rest e h
      obtain ⟨lhs, us, hlhs, hmore⟩ := levelAt_cons_eq_ok.mp h
      have hle := ih hlhs
      have hchain := chainAt_le hbelow hmore
      rw [List.length_cons, operandHeight_succ]
      omega

theorem coalesceAt_le (hbelow : below.Low n) (h : coalesceAt stop below ts = .ok (e, rest)) :
    e.height ≤ operandHeight n 6 + min n 1 := by
  obtain ⟨lhs, us, hlhs, hmore⟩ := coalesceAt_eq_ok.mp h
  have hle : lhs.height ≤ operandHeight n 6 := levelAt_le hbelow Tier.all hlhs
  rcases hmore with ⟨q, vs, rhs, -, hrhs, rfl⟩ | ⟨-, rfl, -⟩
  · obtain ⟨m, rfl, hright⟩ := hbelow.coalesce hrhs
    have hnode : (Rules.binary .coalesce lhs rhs).height = max lhs.height rhs.height + 1 := rfl
    have htallest := tallest_le_succ m
    simp only [operandHeight] at hle hright ⊢
    omega
  · omega

theorem exprAt_le (hbelow : below.Low n) (h : exprAt stop below ts = .ok (e, rest)) :
    e.height ≤ tallest (n + 1) := by
  obtain ⟨test, us, htest, hmore⟩ := exprAt_eq_ok.mp h
  have hle := coalesceAt_le hbelow htest
  simp only [operandHeight] at hle
  rcases hmore with ⟨p, vs, yes, q, ws, no, -, hyes, hno, rfl⟩ | ⟨-, rfl, -⟩
  · obtain ⟨m, rfl, hyes⟩ := hbelow.expr hyes
    have hno := hbelow.expr_le hno
    simp only [height, tallest] at *
    omega
  · rw [tallest]
    omega

theorem low_deepen (hbelow : below.Low n) : (deepen stop below).Low (n + 1) where
  expr _ _ _ h := ⟨n, rfl, exprAt_le hbelow h⟩
  coalesce _ _ _ h := ⟨n, rfl, coalesceAt_le hbelow h⟩
  level tiers _ _ _ h := ⟨n, rfl, levelAt_le hbelow tiers h⟩
  chain _ _ _ _ _ _ h := ⟨n, rfl, chainAt_le hbelow h⟩
  unary _ _ _ h := ⟨n, rfl, unaryAt_le hbelow h⟩
  member _ _ _ _ h := ⟨n, rfl, memberAt_le hbelow h⟩

theorem low_ofBudget (n : Nat) : (ofBudget stop n).Low n := by
  induction n with
  | zero => exact low_exhausted
  | succ n ih => exact low_deepen ih

end Rules

end LambdaShell
