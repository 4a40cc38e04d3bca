/-
The counter is balanced.

A routine that succeeds leaves the counter as it found it, and none looks at a token with more
levels entered than there may be.  One induction shows it for all routines together with what
they read: at a depth the routines do what the readers do that have the rest of the budget.
It goes by how often the routines may call one another, which is often enough as long as every
level that is not entered yet is a call that is left.

Arguments and record members are read one behind the other at one depth.  So there can be any
number of them: if a list is nested too deeply, one of its expressions is so by itself.
-/
import Mathlib
import LambdaShell.Proofs.Counted.Following

namespace LambdaShell.Counted

variable {ts : List Lexeme} {stop : Nat}

open State

/-! ### Levels -/

/-- From a depth on, the routines that are called follow the readers.  An expression enters a
level itself, and the others are called when a level has been entered. -/
structure Sound (ts : List Lexeme) (stop : Nat) (R : Routines) (least : Nat) : Prop where
  expr : Reads ts stop least R.expr Rules.expr
  coalesce : Reads ts stop (least + 1) R.coalesce (Rules.coalesceAt stop)
  level (tiers : List Tier) : Reads ts stop (least + 1) (R.level tiers) (Rules.levelAt stop · tiers)
  chain (tier : Tier) (tighter : List Tier) (base : Nat) (lhs : Expr) :
    ReadsOn ts stop (least + 1) base (R.chain tier tighter base lhs)
      (Rules.chainAt · tier tighter lhs)
  unary : Reads ts stop (least + 1) R.unary (Rules.unaryAt stop)
  member (base : Nat) (target : Expr) :
    ReadsOn ts stop (least + 1) base (R.member base target) (Rules.memberAt stop · target)

section Levels

variable {R : Routines} {least : Nat}

theorem ofBudget_none {d : Nat} (h : d = maxDepth) :
    Rules.ofBudget stop (maxDepth - d) = Rules.exhausted stop := by
  rw [h, Nat.sub_self]
  rfl

theorem ofBudget_rest {d : Nat} (h : d < maxDepth) : Rules.ofBudget stop (maxDepth - d)
    = Rules.deepen stop (Rules.ofBudget stop (maxDepth - (d + 1))) := by
  have hrest : maxDepth - d = maxDepth - (d + 1) + 1 := by omega
  rw [hrest, Rules.ofBudget]

theorem follows_members (hR : Sound ts stop R least) (base : Nat) (e : Expr) :
    ReadsOn ts stop least base (members ts stop R base e) (Rules.membersAt · e) := by
  intro s origin hs hforward hinside
  dsimp only [Rules.membersAt]
  refine follows_eat (fun hnext hlength => ?_) fun hother => ?_
  · rw [hnext]
    have hready : (s.look.skip 1).Ready least := hs.look.skip 1
    refine follows_enter hready (fun hmax => ?_) fun hdeep => ?_
    · replace hmax : s.depth = maxDepth := hmax
      rw [ofBudget_none hmax]
      rfl
    · replace hdeep : s.depth < maxDepth := hdeep
      rw [ofBudget_rest hdeep]
      exact hR.member base e (hready.deeper hdeep) (Nat.lt_succ_of_lt hforward) hlength
  · rw [hother]
    refine Follows.step rfl (Follows.pure ⟨rfl, ?_⟩)
    exact ⟨rfl, rfl, hforward, hinside, hs.look.shallow⟩

theorem follows_member (hR : Sound ts stop R least) (base : Nat) (target : Expr) :
    ReadsOn ts stop least base (member ts stop R base target) (Rules.memberAt stop · target) := by
  intro s origin hs hforward hinside
  dsimp only [Rules.memberAt]
  refine (follows_ident hs hforward.le).bind ?_
  rintro name ⟨name', close, us⟩ t ⟨rfl, ht, rfl⟩
  have hready := ht.ready hs.least_le hs.le_max
  obtain ⟨rfl, hdepth, hforward', hinside', -⟩ := ht
  rw [← hdepth]
  refine follows_eat (fun hnext hlength => ?_) fun hother => ?_
  · dsimp only
    rw [hnext]
    have hready' : (t.look.skip 1).Ready least := hready.look.skip 1
    refine (follows_args hR.expr hready' (Nat.le_succ_of_le hforward'.le)).bind ?_
    rintro es ⟨es', close, us⟩ u ⟨rfl, hu, rfl⟩
    have hready'' := hu.ready hready'.least_le hready'.le_max
    obtain ⟨rfl, hdepth', hforward'', hinside'', -⟩ := hu
    replace hdepth' : u.depth = t.depth := hdepth'
    rw [← hdepth']
    exact Follows.step rfl (follows_members hR base _ hready'' hforward'' hinside'')
  · dsimp only
    rw [hother]
    exact Follows.step rfl (follows_members hR base _ hready.look hforward' hinside')

/-- What the readers do where nothing stands in front of an operand. -/
def accessAt (stop : Nat) (below : Rules) : Reader := fun ts => do
  let (e, rest) ← Rules.primaryAt stop below ts
  Rules.membersAt below e rest

theorem follows_access (hR : Sound ts stop R least) :
    Reads ts stop least (access ts stop R) (accessAt stop) := by
  intro s origin hs horigin
  refine Follows.step rfl ?_
  refine (follows_primary hR.expr hs horigin).andThen hs ?_
  intro e t hready hdepth hforward hinside
  have hrest := follows_members hR s.depth e hready hforward hinside
  rw [hdepth] at hrest
  exact hrest

/-- What stands in front of an operand is read up to the operand. -/
theorem drop_width {i : Nat} {lead : Lead} {rest : List Lexeme}
    (h : Lead.next? (ts.drop i) = some (lead, rest)) : ts.drop (i + width lead) = rest := by
  rw [← List.drop_drop]
  rcases Lead.next?_eq_some.mp h with
    ⟨_, _, _, hus, -, rfl⟩ | ⟨_, _, _, _, _, hus, -, rfl⟩
  · rw [hus]
    rfl
  · rw [hus]
    rfl

theorem follows_unary (hR : Sound ts stop R least) :
    Reads ts stop least (unary ts stop R) (Rules.unaryAt stop) := by
  intro s origin hs horigin
  refine Follows.step rfl ?_
  unfold Rules.unaryAt
  cases hlead : Lead.next? (ts.drop s.position) with
  | none => exact follows_access hR hs.look horigin
  | some found =>
      obtain ⟨lead, rest⟩ := found
      obtain rfl := drop_width hlead
      have hready : (s.look.skip (width lead)).Ready least := hs.look.skip _
      have horigin' : origin ≤ s.position + width lead := Nat.le_add_right_of_le horigin
      refine Follows.step (a := ()) rfl ?_
      refine follows_enter hready (fun hmax => ?_) fun hdeep => ?_
      · replace hmax : s.depth = maxDepth := hmax
        rw [ofBudget_none hmax]
        rfl
      · replace hdeep : s.depth < maxDepth := hdeep
        rw [ofBudget_rest hdeep]
        refine (hR.unary (hready.deeper hdeep) horigin').bind ?_
        rintro e ⟨e', us⟩ t ⟨rfl, ht⟩
        exact Follows.step rfl (Follows.pure ⟨rfl, ht.leave⟩)

theorem follows_chain (hR : Sound ts stop R least) (tier : Tier) (tighter : List Tier) (base : Nat)
    (lhs : Expr) : ReadsOn ts stop least base (chain ts stop R tier tighter base lhs)
      (Rules.chainAt · tier tighter lhs) := by
  intro s origin hs hforward hinside
  dsimp only [Rules.chainAt]
  refine Follows.step rfl ?_
  cases hnext : tier.next? (ts.drop s.position) with
  | none =>
      refine Follows.step rfl (Follows.pure ⟨rfl, ?_⟩)
      exact ⟨rfl, rfl, hforward, hinside, hs.look.shallow⟩
  | some found =>
      obtain ⟨op, rest⟩ := found
      obtain ⟨_, _, hus, -⟩ := Tier.next?_eq_some.mp hnext
      obtain ⟨rfl, -, hlength⟩ := drop_next hus
      have hready : (s.look.skip 1).Ready least := hs.look.skip 1
      refine Follows.step (a := ()) rfl ?_
      refine follows_enter hready (fun hmax => ?_) fun hdeep => ?_
      · replace hmax : s.depth = maxDepth := hmax
        rw [ofBudget_none hmax]
        rfl
      · replace hdeep : s.depth < maxDepth := hdeep
        rw [ofBudget_rest hdeep]
        have hready' := hready.deeper hdeep
        refine (hR.level tighter hready' (Nat.le_succ_of_le hforward.le)).andThen hready' ?_
        intro rhs t hready'' hdepth hforward' hinside'
        have hrest :=
          hR.chain tier tighter base (Rules.binary op lhs rhs) hready'' hforward' hinside'
        rw [hdepth] at hrest
        exact hrest

/-- A level at a time, the loosest one last. -/
theorem follows_level (hR : Sound ts stop R least) (tiers : List Tier) :
    Reads ts stop least (level ts stop R tiers) (Rules.levelAt stop · tiers) := by
  induction tiers with
  | nil => exact follows_unary hR
  | cons tier tighter ih =>
      intro s origin hs horigin
      refine Follows.step rfl ?_
      refine (ih hs horigin).andThen hs fun lhs t hready hdepth hforward hinside => ?_
      have hrest := follows_chain hR tier tighter s.depth lhs hready hforward hinside
      rw [hdepth] at hrest
      exact hrest

theorem follows_coalesce (hR : Sound ts stop R least) :
    Reads ts stop least (coalesce ts stop R) (Rules.coalesceAt stop) := by
  intro s origin hs horigin
  refine (follows_level hR Tier.all hs horigin).andThen hs ?_
  intro lhs t hready hdepth hforward hinside
  rw [← hdepth]
  refine follows_eat (fun hnext hlength => ?_) fun hother => ?_
  · dsimp only
    rw [hnext]
    have hready' : (t.look.skip 1).Ready least := hready.look.skip 1
    refine follows_enter hready' (fun hmax => ?_) fun hdeep => ?_
    · replace hmax : t.depth = maxDepth := hmax
      rw [ofBudget_none hmax]
      rfl
    · replace hdeep : t.depth < maxDepth := hdeep
      rw [ofBudget_rest hdeep]
      refine (hR.coalesce (hready'.deeper hdeep) (Nat.le_succ_of_le hforward.le)).bind ?_
      rintro rhs ⟨rhs', us⟩ u ⟨rfl, hu⟩
      exact Follows.step rfl (Follows.pure ⟨rfl, hu.leave⟩)
  · dsimp only
    rw [hother]
    exact Follows.pure ⟨rfl, rfl, rfl, hforward, hinside, hready.look.shallow⟩

/-- What the readers do behind a test. -/
def branchesAt (stop : Nat) (below : Rules) (test : Expr) : Reader := fun ts =>
  match behind? .question ts with
  | some rest => do
    let (yes, rest) ← below.expr rest
    let (_, rest) ← readSymbol stop .colon .branchColon rest
    let (no, rest) ← below.expr rest
    return (.conditional ⟨test.span.start, no.span.stop⟩ test yes no, rest)
  | none => return (test, ts)

theorem follows_branches (hR : Sound ts stop R least) (test : Expr) {s : State} {origin : Nat}
    (hs : s.Ready least) (hforward : origin < s.position) (hinside : s.position ≤ ts.length) :
    Follows (branches ts stop R test) s
      (branchesAt stop (Rules.ofBudget stop (maxDepth - s.depth)) test (ts.drop s.position))
      (Reaches ts origin s.depth) := by
  unfold branchesAt
  refine follows_eat (fun hnext hlength => ?_) fun hother => ?_
  · rw [hnext]
    have hready : (s.look.skip 1).Ready least := hs.look.skip 1
    refine (hR.expr hready (Nat.le_succ_of_le hforward.le)).andThen hready ?_
    intro yes t hready' hdepth hforward' _
    replace hdepth : t.depth = s.depth := hdepth
    rw [← hdepth]
    refine (follows_expect hready' hforward'.le).bind ?_
    rintro - ⟨colon, us⟩ u ⟨hu, -⟩
    have hready'' := hu.ready hready'.least_le hready'.le_max
    obtain ⟨rfl, hdepth', hforward'', -, -⟩ := hu
    rw [← hdepth']
    refine (hR.expr hready'' hforward''.le).bind ?_
    rintro no ⟨no', us⟩ v ⟨rfl, hv⟩
    exact Follows.pure ⟨rfl, hv⟩
  · rw [hother]
    exact Follows.pure ⟨rfl, rfl, rfl, hforward, hinside, hs.look.shallow⟩

/-- An expression enters a level, and what it calls is one level deeper. -/
theorem follows_expr (hR : Sound ts stop R (least + 1)) :
    Reads ts stop least (expr ts stop R) Rules.expr := by
  intro s origin hs horigin
  refine follows_enter hs (fun hmax => ?_) fun hdeep => ?_
  · rw [ofBudget_none hmax]
    rfl
  · rw [ofBudget_rest hdeep]
    have hready := hs.deeper hdeep
    refine (follows_coalesce hR hready horigin).andThen hready ?_
    intro test t hready' hdepth hforward hinside
    have hbranches := follows_branches hR test hready' hforward hinside
    rw [hdepth] at hbranches
    refine hbranches.tail ?_
    rintro e ⟨e', us⟩ u ⟨rfl, hu⟩
    exact Follows.step rfl (Follows.pure ⟨rfl, hu.leave⟩)

theorem Sound.deepen (hR : Sound ts stop R (least + 1)) :
    Sound ts stop (deepen ts stop R) least where
  expr := follows_expr hR
  coalesce := follows_coalesce hR
  level := follows_level hR
  chain := follows_chain hR
  unary := follows_unary hR
  member := follows_member hR

/-- Where no level can be entered, nothing is called. -/
theorem Sound.of_maxDepth_lt (h : maxDepth < least) : Sound ts stop R least := by
  have hnone {l : Nat} {s : State} (hl : least ≤ l) (hs : s.Ready l) : False :=
    Nat.not_lt_of_le (hl.trans hs.least_le_max) h
  exact {
    expr := fun hs => (hnone le_rfl hs).elim
    coalesce := fun hs => (hnone (Nat.le_succ least) hs).elim
    level := fun _ _ _ hs => (hnone (Nat.le_succ least) hs).elim
    chain := fun _ _ _ _ _ _ hs => (hnone (Nat.le_succ least) hs).elim
    unary := fun hs => (hnone (Nat.le_succ least) hs).elim
    member := fun _ _ _ _ hs => (hnone (Nat.le_succ least) hs).elim }

/-- With a call left for every level that is left, the routines follow the readers. -/
theorem sound_routines (n : Nat) (h : maxDepth < n + least) :
    Sound ts stop (routines ts stop n) least := by
  induction n generalizing least with
  | zero => exact Sound.of_maxDepth_lt (by rwa [Nat.zero_add] at h)
  | succ n ih => exact (ih (by omega)).deepen

end Levels

/-! ### Lists that are nested too deeply -/

/-- At a depth, an element of a list that begins at `origin` begins here: where the list begins,
or behind a comma behind an element that is read at that depth. -/
inductive Begins {β : Type} (ts : List Lexeme) (element : Routine β) (depth origin : Nat) :
    Nat → Prop
  | first : Begins ts element depth origin origin
  | next {u v : State} {b : β} (h : Begins ts element depth origin u.position)
      (hdepth : u.depth = depth) (hread : element u = .ok b v)
      (hcomma : (behind? .comma (ts.drop v.position)).isSome) :
      Begins ts element depth origin (v.position + 1)

/-- An element of a list fails by itself, at the depth of the list. -/
def ElementFails {β : Type} (ts : List Lexeme) (element : Routine β) (depth origin : Nat)
    (i : Issue) : Prop :=
  ∃ u v, Begins ts element depth origin u.position ∧ u.depth = depth ∧ element u = .error i v

/-- An expression fails by itself at the depth of the state, where it is or behind a name and
an equals sign. -/
def ValueFails (R : Routines) (s : State) (i : Issue) : Prop :=
  ∃ u v, (u.position = s.position ∨ u.position = s.position + 2) ∧ u.depth = s.depth ∧
    R.expr u = .error i v

/-- When the routine fails because of the depth, its issue is such. -/
def Blames {α : Type} (c : Routine α) (s : State) (P : Issue → Prop) : Prop :=
  ∀ i t, c s = .error i t → i.cause = .tooDeep → P i

section TooDeep

variable {R : Routines} {least depth origin : Nat} {α β : Type} {c : Routine α}
  {f : α → Routine β} {s : State} {P : Issue → Prop}

theorem Blames.bind (hc : Blames c s P) (hf : ∀ a u, c s = .ok a u → Blames (f a) u P) :
    Blames (c >>= f) s P := by
  intro i t h hcause
  replace h : EStateM.bind c f s = .error i t := h
  unfold EStateM.bind at h
  cases hstep : c s with
  | ok a u =>
      rw [hstep] at h
      exact hf a u hstep i t h hcause
  | error j u =>
      rw [hstep] at h
      cases h
      exact hc i t hstep hcause

/-- A step that does not fail. -/
theorem Blames.step {a : α} {u : State} (hc : c s = .ok a u) (h : Blames (f a) u P) :
    Blames (c >>= f) s P := by
  refine Blames.bind (fun i t hi => ?_) fun b v hb => ?_
  · cases hc.symm.trans hi
  · cases hc.symm.trans hb
    exact h

theorem Blames.pure (a : α) : Blames (pure a) s P := by
  intro i t h
  cases h

theorem blames_throw {i : Issue} (h : i.cause ≠ .tooDeep) :
    Blames (throw i : Routine α) s P := by
  intro j t hj hcause
  cases hj
  exact absurd hcause h

theorem blames_eat {symbol : Symbol} {yes no : Routine α}
    (hyes : (behind? symbol (ts.drop s.position)).isSome → Blames yes (s.look.skip 1) P)
    (hno : Blames no s.look P) : Blames (do if ← eat ts symbol then yes else no) s P := by
  have heat : eat ts symbol s = _ := eat_eq symbol
  split at heat
  · rename_i hnext
    exact Blames.step heat (hyes hnext)
  · exact Blames.step heat hno

theorem blames_expect {symbol : Symbol} {what : Wanted} :
    Blames (expect ts stop symbol what) s P := by
  refine blames_eat (fun _ => Blames.pure _) ?_
  exact Blames.step rfl (blames_throw nofun)

theorem blames_argsUpTo (hexpr : Reads ts stop least R.expr Rules.expr) (n : Nat)
    (hs : s.Ready least) (hbegins : Begins ts R.expr depth origin s.position)
    (hdepth : s.depth = depth) :
    Blames (argsUpTo ts stop R n) s (ElementFails ts R.expr depth origin) := by
  induction n generalizing s with
  | zero => exact Blames.step rfl (blames_throw nofun)
  | succ n ih =>
      refine Blames.bind (fun i t hi _ => ⟨s, t, hbegins, hdepth, hi⟩) fun e u hu => ?_
      obtain ⟨_, -, -, hlanded⟩ := (hexpr hs le_rfl).returns hu
      have hready := hlanded.ready hs.least_le hs.le_max
      refine blames_eat (fun hcomma => ?_) ?_
      · have hnext := hbegins.next hdepth hu hcomma
        refine (ih (hready.look.skip 1) hnext (hlanded.depth_eq.trans hdepth)).bind ?_
        exact fun es v _ => Blames.pure _
      · exact blames_expect.bind fun _ v _ => Blames.pure _

/-- Only an argument can be too deep. -/
theorem blames_args (hexpr : Reads ts stop least R.expr Rules.expr) (hs : s.Ready least) :
    Blames (args ts stop R) s (ElementFails ts R.expr s.depth s.position) := by
  refine blames_eat (fun _ => Blames.pure _) ?_
  exact Blames.step rfl (blames_argsUpTo hexpr _ hs.look.look Begins.first rfl)

/-- Only the value of a member can be too deep. -/
theorem blames_recordMember : Blames (recordMember ts stop R) s (ValueFails R s) := by
  refine Blames.step rfl ?_
  split
  · refine Blames.step (a := ()) (u := s.look.skip 2) rfl ?_
    refine Blames.bind (fun i t hi _ => ⟨s.look.skip 2, t, Or.inr rfl, rfl, hi⟩) ?_
    exact fun e u _ => Blames.pure _
  · refine Blames.bind (fun i t hi _ => ⟨s.look, t, Or.inl rfl, rfl, hi⟩) fun e u _ => ?_
    split
    · exact Blames.pure _
    · exact blames_throw nofun

theorem blames_membersUpTo (hexpr : Reads ts stop least R.expr Rules.expr) (n : Nat)
    (hs : s.Ready least) (hbegins : Begins ts (recordMember ts stop R) depth origin s.position)
    (hdepth : s.depth = depth) : Blames (membersUpTo ts stop R n) s
      (ElementFails ts (recordMember ts stop R) depth origin) := by
  induction n generalizing s with
  | zero => exact Blames.step rfl (blames_throw nofun)
  | succ n ih =>
      refine blames_eat (fun _ => Blames.pure _) ?_
      refine Blames.bind (fun i t hi _ => ⟨s.look, t, hbegins, hdepth, hi⟩) fun m u hu => ?_
      obtain ⟨_, -, -, hlanded⟩ := (follows_recordMember hexpr hs.look le_rfl).returns hu
      have hready := hlanded.ready hs.least_le hs.le_max
      refine blames_eat (fun hcomma => ?_) ?_
      · have hnext := Begins.next (u := s.look) hbegins hdepth hu hcomma
        refine (ih (hready.look.skip 1) hnext (hlanded.depth_eq.trans hdepth)).bind ?_
        exact fun ms v _ => Blames.pure _
      · exact blames_expect.bind fun _ v _ => Blames.pure _

/-- Only a member can be too deep. -/
theorem blames_record (hexpr : Reads ts stop least R.expr Rules.expr) (start : Nat)
    (hs : s.Ready least) : Blames (record ts stop R start) s
      (ElementFails ts (recordMember ts stop R) s.depth (s.position + 1)) := by
  refine blames_expect.bind fun _ t ht => ?_
  rw [expect_eq] at ht
  split at ht
  · cases ht
    refine Blames.step rfl ?_
    refine (blames_membersUpTo hexpr _ (hs.look.skip 1).look Begins.first rfl).bind ?_
    exact fun ms v _ => Blames.step rfl (Blames.pure _)
  · cases ht

end TooDeep

/-! ### Balance -/

section Balance

variable {α β : Type}

/-- What a routine reads and leaves, or the issue it finds. -/
def outcome (ts : List Lexeme) (c : Routine α) (s : State) : Except Issue (α × List Lexeme) :=
  match c s with
  | .ok a t => .ok (a, ts.drop t.position)
  | .error i _ => .error i

/-- How deep the nesting was wherever a routine looked at the tokens. -/
def looks (c : Routine α) (s : State) : List Nat :=
  match c s with
  | .ok _ t => t.looks
  | .error _ t => t.looks

/-- The routine does what a reader does.  If it returns, it has left every level it entered and
gone forward, but not past the end; and it never looks at a token too deep. -/
structure Balanced (ts : List Lexeme) (c : Routine α) (s : State)
    (x : Except Issue (α × List Lexeme)) : Prop where
  agrees : outcome ts c s = x
  returns : ∀ a t, c s = .ok a t →
    t.depth = s.depth ∧ s.position < t.position ∧ t.position ≤ ts.length
  shallow : ∀ d ∈ looks c s, d ≤ maxDepth

theorem Follows.balanced {c : Routine α} {s : State} {x : Except Issue (α × List Lexeme)}
    (h : Follows c s x (Reaches ts s.position s.depth)) : Balanced ts c s x := by
  cases hc : c s with
  | ok a t =>
      obtain ⟨⟨b, us⟩, rfl, rfl, ht⟩ := h.returns hc
      refine ⟨?_, fun b u hu => ?_, ?_⟩
      · rw [outcome, hc]
        dsimp only
        rw [ht.rest_eq]
      · cases hc.symm.trans hu
        exact ⟨ht.depth_eq, ht.forward, ht.inside⟩
      · rw [looks, hc]
        exact ht.shallow
  | error i t =>
      obtain ⟨rfl, ht⟩ := h.fails hc
      refine ⟨?_, fun b u hu => ?_, ?_⟩
      · rw [outcome, hc]
      · cases hc.symm.trans hu
      · rw [looks, hc]
        exact ht

/-- Where the list ends does not matter any more. -/
theorem follows_of_closes {c : Routine α} {s : State} {x : Except Issue (α × Nat × List Lexeme)}
    {origin d : Nat} (h : Follows c s x (Closes ts origin d)) :
    Follows c s (do
      let (a, _, rest) ← x
      return (a, rest)) (Reaches ts origin d) := by
  have hbind : c >>= pure = c := bind_pure c
  rw [← hbind]
  refine h.bind ?_
  rintro a ⟨a', close, us⟩ t ⟨rfl, ht, -⟩
  exact Follows.pure ⟨rfl, ht⟩

/-- All routines that call the given ones are balanced: each does what its reader does with the
rest of the budget. -/
structure AllBalanced (ts : List Lexeme) (stop : Nat) (R : Routines) (s : State) (below : Rules)
    (rest : List Lexeme) : Prop where
  expr : Balanced ts (expr ts stop R) s (below.expr rest)
  coalesce : Balanced ts (coalesce ts stop R) s (Rules.coalesceAt stop below rest)
  level (tiers : List Tier) :
    Balanced ts (level ts stop R tiers) s (Rules.levelAt stop below tiers rest)
  unary : Balanced ts (unary ts stop R) s (Rules.unaryAt stop below rest)
  access : Balanced ts (access ts stop R) s (accessAt stop below rest)
  primary : Balanced ts (primary ts stop R) s (Rules.primaryAt stop below rest)
  args : Balanced ts (args ts stop R) s (do
    let (es, _, rest) ← readArgs stop below.expr rest
    return (es, rest))
  record (start : Nat) :
    Balanced ts (record ts stop R start) s (readRecord stop below.expr start rest)
  recordMember : Balanced ts (recordMember ts stop R) s (readMember stop below.expr rest)

/-- There can be any number of arguments and members: when a list is nested too deeply, one of
its elements is so by itself, at the depth at which the list was met. -/
structure Unlimited (ts : List Lexeme) (stop : Nat) (R : Routines) (s : State) : Prop where
  args : Blames (args ts stop R) s (ElementFails ts R.expr s.depth s.position)
  record (start : Nat) : Blames (record ts stop R start) s
    (ElementFails ts (recordMember ts stop R) s.depth (s.position + 1))
  recordMember : Blames (recordMember ts stop R) s (ValueFails R s)

/-- **The counter is balanced**, wherever and however deep the reading starts, and does not limit
how many arguments or members there are. -/
theorem counter_balanced (ts : List Lexeme) (stop position : Nat) {depth n : Nat}
    (hdepth : depth ≤ maxDepth) (hn : maxDepth < n + depth) :
    AllBalanced ts stop (routines ts stop n) (.start position depth)
        (Rules.ofBudget stop (maxDepth - depth)) (ts.drop position) ∧
      Unlimited ts stop (routines ts stop n) (.start position depth) := by
  have hR : Sound ts stop (routines ts stop n) depth := sound_routines n hn
  have hs : (State.start position depth).Ready depth := ⟨le_rfl, hdepth, nofun⟩
  constructor
  · exact {
      expr := (follows_expr (sound_routines n (by omega)) hs le_rfl).balanced
      coalesce := (follows_coalesce hR hs le_rfl).balanced
      level := fun tiers => (follows_level hR tiers hs le_rfl).balanced
      unary := (follows_unary hR hs le_rfl).balanced
      access := (follows_access hR hs le_rfl).balanced
      primary := (follows_primary hR.expr hs le_rfl).balanced
      args := (follows_of_closes (follows_args hR.expr hs le_rfl)).balanced
      record := fun start => (follows_record hR.expr start hs le_rfl).balanced
      recordMember := (follows_recordMember hR.expr hs le_rfl).balanced }
  · exact {
      args := blames_args hR.expr hs
      record := fun start => blames_record hR.expr start hs
      recordMember := blames_recordMember }

/-- The tokens of `a, b)`. -/
def twoArguments : List Lexeme :=
  [⟨.name "a", ⟨0, 1⟩⟩, ⟨.symbol .comma, ⟨1, 2⟩⟩, ⟨.name "b", ⟨3, 4⟩⟩,
    ⟨.symbol .closeParen, ⟨4, 5⟩⟩]

theorem twoArguments_balanced : 63 ≤ maxDepth ∧ maxDepth < 2 + 63 ∧
    ∃ t, args twoArguments 5 (routines twoArguments 5 2) (.start 0 63)
        = .ok [.name ⟨0, 1⟩ "a", .name ⟨3, 4⟩ "b"] t ∧
      t.depth = 63 ∧ 0 < t.position ∧ t.position ≤ 4 := by
  refine ⟨by decide, by decide, _, rfl, ?_⟩
  exact (counter_balanced twoArguments 5 0 (n := 2) (by decide) (by decide)).1.args.returns _ _ rfl

end Balance

end LambdaShell.Counted
