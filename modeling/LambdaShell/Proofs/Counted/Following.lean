/-
What the routines read.

A routine follows a reader if it comes to the same result and leaves the same tokens, or fails
with the same issue.  As it reads on, the state says how far it has come, how deep the nesting
is, and that nowhere a token was looked at with more levels entered than there may be.

What is between brackets is read at the depth at which the brackets stand, by a routine for
expressions that is called again and again.  If this routine follows the readers, so do the
lists, the record, the call and the parentheses that are read with it.
-/
import Mathlib
import LambdaShell.Proofs.Counted.Parser
import LambdaShell.Proofs.Expr.Readers

namespace LambdaShell.Counted

variable {ts : List Lexeme} {stop : Nat}

/-! ### States -/

namespace State

/-- Nowhere was a token looked at with too many levels entered. -/
def Shallow (s : State) : Prop := ∀ d ∈ s.looks, d ≤ maxDepth

/-- The state is at a depth at which reading goes on, and not above the given one. -/
structure Ready (least : Nat) (s : State) : Prop where
  least_le : least ≤ s.depth
  le_max : s.depth ≤ maxDepth
  shallow : s.Shallow

/-- Reading has come from behind a position to where `rest` is left, at a depth. -/
structure Landed (ts : List Lexeme) (origin depth : Nat) (rest : List Lexeme) (s : State) :
    Prop where
  rest_eq : ts.drop s.position = rest
  depth_eq : s.depth = depth
  forward : origin < s.position
  inside : s.position ≤ ts.length
  shallow : s.Shallow

@[simp] theorem look_position (s : State) : s.look.position = s.position := rfl
@[simp] theorem skip_position (s : State) (n : Nat) : (s.skip n).position = s.position + n := rfl
@[simp] theorem setDepth_depth (s : State) (d : Nat) : (s.setDepth d).depth = d := rfl

variable {least origin d : Nat} {rest : List Lexeme} {s : State}

theorem Ready.least_le_max (h : s.Ready least) : least ≤ maxDepth :=
  h.least_le.trans h.le_max

theorem Ready.look (h : s.Ready least) : s.look.Ready least where
  least_le := h.least_le
  le_max := h.le_max
  shallow := List.forall_mem_cons.mpr ⟨h.le_max, h.shallow⟩

theorem Ready.skip (h : s.Ready least) (n : Nat) : (s.skip n).Ready least :=
  ⟨h.least_le, h.le_max, h.shallow⟩

theorem Ready.deeper (h : s.Ready least) (hdepth : s.depth < maxDepth) :
    s.deeper.Ready (least + 1) :=
  ⟨Nat.succ_le_succ h.least_le, hdepth, h.shallow⟩

theorem Landed.look (h : s.Landed ts origin d rest) (hmax : d ≤ maxDepth) :
    s.look.Landed ts origin d rest where
  rest_eq := h.rest_eq
  depth_eq := h.depth_eq
  forward := h.forward
  inside := h.inside
  shallow := List.forall_mem_cons.mpr ⟨h.depth_eq ▸ hmax, h.shallow⟩

/-- The level that was entered last is left. -/
theorem Landed.leave (h : s.Landed ts origin (d + 1) rest) :
    (s.setDepth (s.depth - 1)).Landed ts origin d rest where
  rest_eq := h.rest_eq
  depth_eq := by rw [setDepth_depth, h.depth_eq, Nat.add_sub_cancel]
  forward := h.forward
  inside := h.inside
  shallow := h.shallow

theorem Landed.ready (h : s.Landed ts origin d rest) (hleast : least ≤ d) (hmax : d ≤ maxDepth) :
    s.Ready least :=
  ⟨h.depth_eq ▸ hleast, h.depth_eq ▸ hmax, h.shallow⟩

end State

open State

/-! ### Following a reader -/

variable {α β γ δ : Type}

/-- The routine ends as the reading does: either both find the same issue, or what they find is
related as `Rel` says.  A routine that fails has not looked too deep either. -/
def Follows (c : Routine α) (s : State) (x : Except Issue β) (Rel : α → β → State → Prop) : Prop :=
  match c s, x with
  | .ok a t, .ok b => Rel a b t
  | .error i t, .error j => i = j ∧ t.Shallow
  | _, _ => False

section Follows

variable {c : Routine α} {f : α → Routine γ} {s t : State} {x : Except Issue β}
  {g : β → Except Issue δ} {Rel : α → β → State → Prop} {Rel' : γ → δ → State → Prop}

theorem Follows.bind (h : Follows c s x Rel)
    (hrest : ∀ a b t, Rel a b t → Follows (f a) t (g b) Rel') :
    Follows (c >>= f) s (x >>= g) Rel' := by
  unfold Follows at h
  cases hc : c s with
  | ok a t =>
      rw [hc] at h
      cases x with
      | error i => exact h.elim
      | ok b =>
          have hbind : (c >>= f) s = f a t := by
            show EStateM.bind c f s = _
            rw [EStateM.bind, hc]
          show (match (c >>= f) s, g b with
            | .ok a t, .ok b => Rel' a b t
            | .error i t, .error j => i = j ∧ t.Shallow
            | _, _ => False)
          rw [hbind]
          exact hrest a b t h
  | error i t =>
      rw [hc] at h
      cases x with
      | ok b => exact h.elim
      | error j =>
          have hbind : (c >>= f) s = .error i t := by
            show EStateM.bind c f s = _
            rw [EStateM.bind, hc]
          show (match (c >>= f) s, Except.error j with
            | .ok a t, .ok b => Rel' a b t
            | .error i t, .error j => i = j ∧ t.Shallow
            | _, _ => False)
          rw [hbind]
          exact h

/-- A tail that no reader has. -/
theorem Follows.tail {Rel' : γ → β → State → Prop} (h : Follows c s x Rel)
    (hrest : ∀ a b t, Rel a b t → Follows (f a) t (.ok b) Rel') : Follows (c >>= f) s x Rel' := by
  have hbind : x >>= Except.ok = x := bind_pure x
  rw [← hbind]
  exact h.bind hrest

/-- A step that no reader takes. -/
theorem Follows.step {a : α} {y : Except Issue δ} (hc : c s = .ok a t)
    (h : Follows (f a) t y Rel') : Follows (c >>= f) s y Rel' := by
  have hbind : (c >>= f) s = f a t := by
    show EStateM.bind c f s = _
    rw [EStateM.bind, hc]
  unfold Follows
  rw [hbind]
  exact h

/-- A step that fails. -/
theorem Follows.fail {i : Issue} (hc : c s = .error i t) (ht : t.Shallow) :
    Follows (c >>= f) s (.error i : Except Issue δ) Rel' := by
  have hbind : (c >>= f) s = .error i t := by
    show EStateM.bind c f s = _
    rw [EStateM.bind, hc]
  unfold Follows
  rw [hbind]
  exact ⟨rfl, ht⟩

theorem Follows.returns {a : α} (h : Follows c s x Rel) (hc : c s = .ok a t) :
    ∃ b, x = .ok b ∧ Rel a b t := by
  unfold Follows at h
  rw [hc] at h
  cases x with
  | ok b => exact ⟨b, rfl, h⟩
  | error j => exact h.elim

theorem Follows.fails {i : Issue} (h : Follows c s x Rel) (hc : c s = .error i t) :
    x = .error i ∧ t.Shallow := by
  unfold Follows at h
  rw [hc] at h
  cases x with
  | ok b => exact h.elim
  | error j => exact ⟨by rw [h.1], h.2⟩

theorem Follows.pure {a : α} {b : β} (h : Rel a b s) : Follows (pure a) s (.ok b) Rel := h

theorem Follows.throw {i : Issue} (h : s.Shallow) :
    Follows (throw i) s (.error i : Except Issue β) Rel := ⟨rfl, h⟩

end Follows

/-! ### Tokens -/

section Tokens

variable {least origin d : Nat} {s t : State} {x : Except Issue β} {Rel : α → β → State → Prop}

theorem drop_next {i : Nat} {l : Lexeme} {rest : List Lexeme} (h : ts.drop i = l :: rest) :
    ts.drop (i + 1) = rest ∧ ts[i]? = some l ∧ i < ts.length := by
  refine ⟨?_, ?_, ?_⟩
  · rw [← List.drop_drop, h]
    rfl
  · rw [← List.head?_drop, h]
    rfl
  · refine Nat.lt_of_not_le fun hle => ?_
    rw [List.drop_eq_nil_of_le hle] at h
    cases h

theorem eat_eq (symbol : Symbol) : eat ts symbol s =
    if (behind? symbol (ts.drop s.position)).isSome then .ok true (s.look.skip 1)
    else .ok false s.look := by
  simp only [eat, left, bind, EStateM.bind]
  cases behind? symbol (ts.drop s.position) <;> rfl

theorem expect_eq (symbol : Symbol) (what : Wanted) : expect ts stop symbol what s =
    if (behind? symbol (ts.drop s.position)).isSome then .ok () (s.look.skip 1)
    else .error (wanted stop what (ts.drop s.position)) s.look.look := by
  simp only [expect, eat, left, bind, EStateM.bind]
  cases behind? symbol (ts.drop s.position) <;> rfl

theorem follows_eat {symbol : Symbol} {yes no : Routine α}
    (hyes : behind? symbol (ts.drop s.position) = some (ts.drop (s.position + 1)) →
      s.position < ts.length → Follows yes (s.look.skip 1) x Rel)
    (hno : behind? symbol (ts.drop s.position) = none → Follows no s.look x Rel) :
    Follows (do if ← eat ts symbol then yes else no) s x Rel := by
  cases hnext : behind? symbol (ts.drop s.position) with
  | none =>
      have heat : eat ts symbol s = .ok false s.look := by
        rw [eat_eq, hnext]
        rfl
      exact Follows.step heat (hno hnext)
  | some rest =>
      obtain ⟨q, hrest⟩ := behind?_eq_some.mp hnext
      obtain ⟨hdrop, -, hlength⟩ := drop_next hrest
      have heat : eat ts symbol s = .ok true (s.look.skip 1) := by
        rw [eat_eq, hnext]
        rfl
      rw [← hdrop] at hnext
      exact Follows.step heat (hyes hnext hlength)

/-- A token is taken. -/
theorem landed_next (hs : s.Ready least) (horigin : origin ≤ s.position)
    (hlength : s.position < ts.length) :
    (s.look.skip 1).Landed ts origin s.depth (ts.drop (s.position + 1)) where
  rest_eq := rfl
  depth_eq := rfl
  forward := Nat.lt_succ_of_le horigin
  inside := hlength
  shallow := hs.look.shallow

theorem readSymbol_of_none {symbol : Symbol} {what : Wanted} {us : List Lexeme}
    (h : behind? symbol us = none) :
    readSymbol stop symbol what us = .error (wanted stop what us) := by
  cases us with
  | nil => rfl
  | cons l us =>
      rw [behind?] at h
      rw [readSymbol]
      split at h
      · cases h
      · rename_i hother
        rw [if_neg hother]

theorem readSymbol_next {symbol : Symbol} {what : Wanted}
    (h : behind? symbol (ts.drop s.position) = some (ts.drop (s.position + 1))) :
    readSymbol stop symbol what (ts.drop s.position)
      = .ok ((s.look.skip 1).prevEnd ts, ts.drop (s.position + 1)) := by
  obtain ⟨q, hrest⟩ := behind?_eq_some.mp h
  refine readSymbol_eq_ok.mpr ⟨q, hrest, ?_⟩
  show q.stop = (ts[s.position]?.map (·.span.stop)).getD 0
  rw [(drop_next hrest).2.1]
  rfl

theorem follows_expect {symbol : Symbol} {what : Wanted} (hs : s.Ready least)
    (horigin : origin ≤ s.position) :
    Follows (expect ts stop symbol what) s (readSymbol stop symbol what (ts.drop s.position))
      fun _ b t => t.Landed ts origin s.depth b.2 ∧ t.prevEnd ts = b.1 := by
  refine follows_eat (fun hnext hlength => ?_) fun hnone => ?_
  · rw [readSymbol_next hnext]
    exact Follows.pure ⟨landed_next hs horigin hlength, rfl⟩
  · rw [readSymbol_of_none hnone]
    exact Follows.step rfl (Follows.throw hs.look.look.shallow)

theorem follows_ident {what : Wanted} (hs : s.Ready least) (horigin : origin ≤ s.position) :
    Follows (ident ts stop what) s (readName stop what (ts.drop s.position))
      fun n b t => n = b.1 ∧ t.Landed ts origin s.depth b.2.2 ∧ t.prevEnd ts = b.2.1 := by
  refine Follows.step rfl ?_
  rcases hleft : ts.drop s.position with _ | ⟨⟨t, q⟩, rest⟩
  · exact Follows.throw hs.look.shallow
  · cases t with
    | name n =>
        obtain ⟨hdrop, htoken, hlength⟩ := drop_next hleft
        have hlanded := landed_next hs horigin hlength
        rw [hdrop] at hlanded
        refine Follows.step (t := s.look.skip 1) (a := ()) rfl (Follows.pure ⟨rfl, hlanded, ?_⟩)
        show (ts[s.position]?.map (·.span.stop)).getD 0 = _
        rw [htoken]
        rfl
    | _ => exact Follows.throw hs.look.shallow

theorem follows_enter {yes : Routine α} (hs : s.Ready least)
    (hdeep : s.depth = maxDepth → x = .error ⟨nextOffset stop (ts.drop s.position), .tooDeep⟩)
    (hyes : s.depth < maxDepth → Follows yes s.deeper x Rel) :
    Follows (do enter ts stop; yes) s x Rel := by
  by_cases hdepth : s.depth < maxDepth
  · have henter : enter ts stop s = .ok () s.deeper := if_pos hdepth
    exact Follows.step henter (hyes hdepth)
  · have henter : enter ts stop s =
        .error ⟨nextOffset stop (ts.drop s.position), .tooDeep⟩ s.deeper := if_neg hdepth
    rw [hdeep (Nat.le_antisymm hs.le_max (Nat.le_of_not_lt hdepth))]
    exact Follows.fail henter hs.shallow

end Tokens

/-! ### Lists -/

/-- What an expression is read to, and how far. -/
def Reaches (ts : List Lexeme) (origin depth : Nat) (a : α) (b : α × List Lexeme)
    (t : State) : Prop :=
  a = b.1 ∧ t.Landed ts origin depth b.2

/-- What a list is read to, how far, and where its end ends. -/
def Closes (ts : List Lexeme) (origin depth : Nat) (a : α) (b : α × Nat × List Lexeme)
    (t : State) : Prop :=
  a = b.1 ∧ t.Landed ts origin depth b.2.2 ∧ t.prevEnd ts = b.2.1

/-- From a depth on, a routine follows what the rest of the budget reads. -/
def Reads (ts : List Lexeme) (stop least : Nat) (c : Routine Expr)
    (reader : Rules → Reader) : Prop :=
  ∀ {s : State} {origin : Nat}, s.Ready least → origin ≤ s.position →
    Follows c s (reader (Rules.ofBudget stop (maxDepth - s.depth)) (ts.drop s.position))
      (Reaches ts origin s.depth)

/-- From a depth on, a routine that reads the rest of a chain follows what the rest of the
budget reads.  At the end it goes back to the depth at which the chain began. -/
def ReadsOn (ts : List Lexeme) (stop least base : Nat) (c : Routine Expr)
    (reader : Rules → Reader) : Prop :=
  ∀ {s : State} {origin : Nat}, s.Ready least → origin < s.position → s.position ≤ ts.length →
    Follows c s (reader (Rules.ofBudget stop (maxDepth - s.depth)) (ts.drop s.position))
      (Reaches ts origin base)

/-- Reading goes on where an expression or a member ends. -/
theorem Follows.andThen {c : Routine α} {f : α → Routine γ} {g : α × List Lexeme → Except Issue δ}
    {s : State} {x : Except Issue (α × List Lexeme)} {Rel : γ → δ → State → Prop}
    {origin least : Nat}
    (h : Follows c s x (Reaches ts origin s.depth)) (hs : s.Ready least)
    (hrest : ∀ a t, t.Ready least → t.depth = s.depth → origin < t.position →
      t.position ≤ ts.length → Follows (f a) t (g (a, ts.drop t.position)) Rel) :
    Follows (c >>= f) s (x >>= g) Rel := by
  refine h.bind ?_
  rintro a ⟨a', us⟩ t ⟨rfl, ht⟩
  have hready := ht.ready hs.least_le hs.le_max
  obtain ⟨rfl, hdepth, hforward, hinside, -⟩ := ht
  exact hrest a t hready hdepth hforward hinside

section Lists

variable {R : Routines} {least origin : Nat} {s : State}

theorem follows_argsUpTo (hexpr : Reads ts stop least R.expr Rules.expr) (n : Nat)
    (hs : s.Ready least) (horigin : origin ≤ s.position) :
    Follows (argsUpTo ts stop R n) s
      (readArgsUpTo stop (Rules.ofBudget stop (maxDepth - s.depth)).expr n (ts.drop s.position))
      (Closes ts origin s.depth) := by
  induction n generalizing s origin with
  | zero => exact Follows.step rfl (Follows.throw hs.look.shallow)
  | succ n ih =>
      refine (hexpr hs horigin).andThen hs fun e t hready hdepth hforward _ => ?_
      rw [← hdepth]
      refine follows_eat (fun hnext _ => ?_) fun hother => ?_
      · dsimp only
        rw [hnext]
        refine (ih (hready.look.skip 1) (Nat.le_succ_of_le hforward.le)).bind ?_
        rintro es ⟨es', close, us⟩ u ⟨rfl, hu, hclose⟩
        exact Follows.pure ⟨rfl, hu, hclose⟩
      · dsimp only
        rw [hother]
        refine (follows_expect hready.look hforward.le).bind ?_
        rintro - ⟨close, us⟩ u ⟨hu, hclose⟩
        exact Follows.pure ⟨rfl, hu, hclose⟩

theorem follows_args (hexpr : Reads ts stop least R.expr Rules.expr) (hs : s.Ready least)
    (horigin : origin ≤ s.position) :
    Follows (args ts stop R) s
      (readArgs stop (Rules.ofBudget stop (maxDepth - s.depth)).expr (ts.drop s.position))
      (Closes ts origin s.depth) := by
  unfold readArgs
  refine follows_eat (fun hnext hlength => ?_) fun hother => ?_
  · rw [readSymbol_next hnext]
    exact Follows.pure ⟨rfl, landed_next hs horigin hlength, rfl⟩
  · rw [readSymbol_of_none hother]
    exact Follows.step rfl (follows_argsUpTo hexpr _ hs.look.look horigin)

theorem readMember_of_not_named {expr : Reader} {us : List Lexeme} (h : ¬ StartsNamed us) :
    readMember stop expr us = (do
      let (e, rest) ← expr us
      match e.impliedName? with
      | some n => return ((n, e), rest)
      | none => .error ⟨nextOffset stop us, .unnamedMember⟩) := by
  unfold readMember
  split
  · exact absurd ⟨_, _, _, _, rfl⟩ h
  · rfl

theorem follows_recordMember (hexpr : Reads ts stop least R.expr Rules.expr) (hs : s.Ready least)
    (horigin : origin ≤ s.position) :
    Follows (recordMember ts stop R) s
      (readMember stop (Rules.ofBudget stop (maxDepth - s.depth)).expr (ts.drop s.position))
      (Reaches ts origin s.depth) := by
  refine Follows.step rfl ?_
  by_cases hnamed : StartsNamed (ts.drop s.position)
  · obtain ⟨n, p, q, rest, hus⟩ := hnamed
    obtain ⟨hassign, -, -⟩ := drop_next hus
    obtain ⟨rfl, -, -⟩ := drop_next hassign
    rw [hus]
    refine Follows.step (a := ()) (t := s.look.skip 2) rfl ?_
    refine (hexpr (hs.look.skip 2) (Nat.le_add_right_of_le (k := 2) horigin)).bind ?_
    rintro e ⟨e', us⟩ t ⟨rfl, ht⟩
    exact Follows.pure ⟨rfl, ht⟩
  · rw [readMember_of_not_named hnamed]
    split
    · rename_i hus
      exact (hnamed ⟨_, _, _, _, hus⟩).elim
    · refine (hexpr hs.look horigin).bind ?_
      rintro e ⟨e', us⟩ t ⟨rfl, ht⟩
      dsimp only
      cases e.impliedName? with
      | some n => exact Follows.pure ⟨rfl, ht⟩
      | none => exact Follows.throw ht.shallow

theorem follows_membersUpTo (hexpr : Reads ts stop least R.expr Rules.expr) (n : Nat)
    (hs : s.Ready least) (horigin : origin ≤ s.position) :
    Follows (membersUpTo ts stop R n) s
      (readMembersUpTo stop (Rules.ofBudget stop (maxDepth - s.depth)).expr n (ts.drop s.position))
      (Closes ts origin s.depth) := by
  induction n generalizing s origin with
  | zero => exact Follows.step rfl (Follows.throw hs.look.shallow)
  | succ n ih =>
      rw [readMembersUpTo]
      refine follows_eat (fun hnext hlength => ?_) fun hother => ?_
      · rw [readSymbol_next hnext]
        exact Follows.pure ⟨rfl, landed_next hs horigin hlength, rfl⟩
      · rw [readSymbol_of_none hother]
        refine (follows_recordMember hexpr hs.look horigin).andThen hs.look ?_
        intro m t hready hdepth hforward _
        replace hdepth : t.depth = s.depth := hdepth
        rw [← hdepth]
        refine follows_eat (fun hnext _ => ?_) fun hother => ?_
        · dsimp only
          rw [hnext]
          refine (ih (hready.look.skip 1) (Nat.le_succ_of_le hforward.le)).bind ?_
          rintro ms ⟨ms', close, us⟩ u ⟨rfl, hu, hclose⟩
          exact Follows.pure ⟨rfl, hu, hclose⟩
        · dsimp only
          rw [hother]
          refine (follows_expect hready.look hforward.le).bind ?_
          rintro - ⟨close, us⟩ u ⟨hu, hclose⟩
          exact Follows.pure ⟨rfl, hu, hclose⟩

/-- What the readers do behind `new`, which begins at `start`. -/
def readRecord (stop : Nat) (expr : Reader) (start : Nat) : Reader := fun ts => do
  let (_, rest) ← readSymbol stop .openBrace .recordStart ts
  let (members, close, rest) ← readMembers stop expr rest
  return (.record ⟨start, close⟩ members, rest)

theorem follows_record (hexpr : Reads ts stop least R.expr Rules.expr) (start : Nat)
    (hs : s.Ready least) (horigin : origin ≤ s.position) :
    Follows (record ts stop R start) s
      (readRecord stop (Rules.ofBudget stop (maxDepth - s.depth)).expr start (ts.drop s.position))
      (Reaches ts origin s.depth) := by
  refine (follows_expect hs horigin).bind ?_
  rintro - ⟨open', us⟩ t ⟨ht, -⟩
  have hready := ht.ready hs.least_le hs.le_max
  obtain ⟨rfl, hdepth, hforward, -, -⟩ := ht
  rw [← hdepth]
  refine Follows.step rfl ?_
  refine (follows_membersUpTo hexpr _ hready.look hforward.le).bind ?_
  rintro ms ⟨ms', close, us⟩ u ⟨rfl, hu, rfl⟩
  exact Follows.step rfl (Follows.pure ⟨rfl, hu⟩)

theorem follows_math (hexpr : Reads ts stop least R.expr Rules.expr) (start : Nat)
    (hs : s.Ready least) (horigin : origin ≤ s.position) :
    Follows (math ts stop R start) s
      (do
        let (function, _, rest) ← readName stop .functionName (ts.drop s.position)
        let (_, rest) ← readSymbol stop .openParen .callStart rest
        let (args, close, rest) ←
          readArgs stop (Rules.ofBudget stop (maxDepth - s.depth)).expr rest
        return (.math ⟨start, close⟩ function args, rest))
      (Reaches ts origin s.depth) := by
  refine (follows_ident hs horigin).bind ?_
  rintro n ⟨n', name, us⟩ t ⟨rfl, ht, -⟩
  have hready := ht.ready hs.least_le hs.le_max
  obtain ⟨rfl, hdepth, hforward, -, -⟩ := ht
  rw [← hdepth]
  refine (follows_expect hready hforward.le).bind ?_
  rintro - ⟨open', us⟩ u ⟨hu, -⟩
  have hready' := hu.ready hready.least_le hready.le_max
  obtain ⟨rfl, hdepth', hforward', -, -⟩ := hu
  rw [← hdepth']
  refine (follows_args hexpr hready' hforward'.le).bind ?_
  rintro es ⟨es', close, us⟩ v ⟨rfl, hv, rfl⟩
  exact Follows.step rfl (Follows.pure ⟨rfl, hv⟩)

theorem follows_paren (hexpr : Reads ts stop least R.expr Rules.expr) (start : Nat)
    (hs : s.Ready least) (horigin : origin ≤ s.position) :
    Follows (paren ts stop R start) s
      (do
        let (e, rest) ← (Rules.ofBudget stop (maxDepth - s.depth)).expr (ts.drop s.position)
        let (close, rest) ← readSymbol stop .closeParen .parenEnd rest
        return (e.withSpan ⟨start, close⟩, rest))
      (Reaches ts origin s.depth) := by
  refine (hexpr hs horigin).andThen hs fun e t hready hdepth hforward _ => ?_
  rw [← hdepth]
  refine (follows_expect hready hforward.le).bind ?_
  rintro - ⟨close, us⟩ u ⟨hu, rfl⟩
  exact Follows.step rfl (Follows.pure ⟨rfl, hu⟩)

/-- What a primary expression is read to; the token that it begins with is taken at once. -/
theorem follows_primary (hexpr : Reads ts stop least R.expr Rules.expr) (hs : s.Ready least)
    (horigin : origin ≤ s.position) :
    Follows (primary ts stop R) s
      (Rules.primaryAt stop (Rules.ofBudget stop (maxDepth - s.depth)) (ts.drop s.position))
      (Reaches ts origin s.depth) := by
  refine Follows.step rfl ?_
  rcases hus : ts.drop s.position with _ | ⟨l, us⟩
  · exact Follows.throw hs.look.shallow
  · obtain ⟨rfl, -, hlength⟩ := drop_next hus
    have hlanded := landed_next hs horigin hlength
    have hready : (s.look.skip 1).Ready least := hs.look.skip 1
    have horigin' : origin ≤ (s.look.skip 1).position := Nat.le_succ_of_le horigin
    refine Follows.step (a := ()) (t := s.look.skip 1) rfl ?_
    unfold Rules.primaryAt
    dsimp only
    cases l.token.literal? with
    | some v => exact Follows.pure ⟨rfl, hlanded⟩
    | none =>
        dsimp only
        cases l.token with
        | name n =>
            dsimp only
            by_cases hmath : (n == "Math") = true
            · rw [hmath, if_pos rfl]
              refine follows_eat (fun hdot hlength' => ?_) fun hdot => ?_
              · rw [skip_position, look_position] at hdot
                rw [hdot]
                have hdotted := hready.look.skip 1
                exact follows_math hexpr _ hdotted (Nat.le_succ_of_le horigin')
              · rw [skip_position, look_position] at hdot
                rw [hdot]
                exact Follows.pure ⟨rfl, hlanded.look hs.le_max⟩
            · rw [if_neg hmath, Bool.eq_false_iff.mpr hmath]
              exact Follows.pure ⟨rfl, hlanded⟩
        | symbol sym =>
            cases sym with
            | openParen => exact follows_paren hexpr _ hready horigin'
            | _ => exact Follows.throw hready.shallow
        | keyword k =>
            cases k with
            | new => exact follows_record hexpr _ hready horigin'
            | _ => exact Follows.throw hready.shallow
        | _ => exact Follows.throw hready.shallow

end Lists

end LambdaShell.Counted
