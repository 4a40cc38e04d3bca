/-
A session's history is a row of snapshots with a cursor on one of them.

A timeline keeps its past and its future apart, each with the nearest state first,
and next to them the data that was loaded.  Seen from outside there is only one
row of snapshots: what lies left of the cursor can be undone, what lies right of
it can be redone.  `Chronicle.Step` says what each command does to that row, and
this file shows that the timeline does nothing else, whatever commands are run in
whatever order and however many of them fail.

The view is `Timeline.chronicle`, which glues past, present and future together.
Gluing is always possible; what has to be carried through a run is that the row
still starts with the loaded data.  `Shows.step` carries it over one command, and
everything else follows by induction on the commands.
-/
import LambdaShell.Proofs.Command.Effects
import LambdaShell.Session

namespace LambdaShell

/-! ### Running commands -/

namespace Timeline

/-- What a command answers, or why it fails, and the timeline it leaves behind in either
case. -/
def step (dest : Destination) (t : Timeline) (c : Command) : Except Failure Answer × Timeline :=
  match c.execute dest t with
  | .ok answer next => (.ok answer, next)
  | .error failure next => (.error failure, next)

/-- The timeline after a list of commands, each with the state of the export directory
it meets. -/
def runAll (t : Timeline) (run : List (Destination × Command)) : Timeline :=
  run.foldl (fun t p => (t.step p.1 p.2).2) t

@[simp] theorem runAll_nil (t : Timeline) : t.runAll [] = t := rfl

@[simp] theorem runAll_cons (t : Timeline) (p : Destination × Command)
    (run : List (Destination × Command)) :
    t.runAll (p :: run) = (t.step p.1 p.2).2.runAll run := rfl

theorem runAll_append (t : Timeline) (run next : List (Destination × Command)) :
    t.runAll (run ++ next) = (t.runAll run).runAll next := by
  simp [runAll, List.foldl_append]

/-- A line is run by running its command. -/
theorem run_of_ofLine {dest : Destination} {t : Timeline} {line : List Char} {c : Command}
    (hc : Command.ofLine line = .ok c) : t.run dest line = c.execute dest t := by
  have hline : Command.executeLine dest line = c.execute dest := by
    rw [Command.executeLine, hc]
    rfl
  exact congrFun hline t

/-- A line that is no command does nothing. -/
theorem run_of_ofLine_error {dest : Destination} {t : Timeline} {line : List Char} {f : Failure}
    (hf : Command.ofLine line = .error f) : t.run dest line = .error f t := by
  have hline : Command.executeLine dest line = throw f := by
    rw [Command.executeLine, hf]
    rfl
  exact congrFun hline t

/-- A session keeps the timeline that a command leaves behind. -/
theorem command_keeps_step (dest : Destination) (t : Timeline) {line : List Char} {c : Command}
    (hline : line ≠ []) (hc : Command.ofLine line = .ok c) :
    (Session.command dest t line).2 = .working (t.step dest c).2 := by
  unfold Session.command step
  rw [if_neg hline, run_of_ofLine hc]
  cases c.execute dest t <;> rfl

end Timeline

/-! ### Snapshots with a cursor -/

/-- Snapshots, the oldest first, and the place of the one that is present. -/
structure Chronicle where
  snapshots : List (List Value)
  cursor : Nat
  inside : cursor < snapshots.length

namespace Chronicle

/-- The snapshot at the cursor. -/
def present (k : Chronicle) : List Value := k.snapshots.get ⟨k.cursor, k.inside⟩

/-- The chronicle of data that was just loaded. -/
def opening (data : List Value) : Chronicle := ⟨[data], 0, by simp⟩

theorem record_inside (k : Chronicle) (next : List Value) :
    k.cursor + 1 < (k.snapshots.take (k.cursor + 1) ++ [next]).length := by
  have := k.inside
  simp
  omega

/-- Drops what lies behind the cursor, appends a snapshot and moves onto it. -/
def record (k : Chronicle) (next : List Value) : Chronicle where
  snapshots := k.snapshots.take (k.cursor + 1) ++ [next]
  cursor := k.cursor + 1
  inside := k.record_inside next

/-- Moves the cursor and keeps the snapshots. -/
def seek (k : Chronicle) (i : Nat) (h : i < k.snapshots.length) : Chronicle :=
  ⟨k.snapshots, i, h⟩

/-- What a command answers to a chronicle that started with `data`, and the chronicle it
leaves behind. -/
inductive Step (dest : Destination) (data : List Value) (k : Chronicle) :
    Command → Except Failure Answer → Chronicle → Prop
  /-- A mutating command that has a result records it. -/
  | record {c : Command} {next : List Value} (hc : c.isMutating = true)
      (h : c.Yields k.present next) :
      Step dest data k c (.ok (.updated .applied)) (k.record next)
  | undo (h : 0 < k.cursor) :
      Step dest data k .undo (.ok (.updated .undone))
        (k.seek (k.cursor - 1) (Nat.lt_of_le_of_lt (Nat.sub_le ..) k.inside))
  | undoAtStart (h : k.cursor = 0) : Step dest data k .undo (.ok .nothingToUndo) k
  | redo (h : k.cursor + 1 < k.snapshots.length) :
      Step dest data k .redo (.ok (.updated .redone)) (k.seek (k.cursor + 1) h)
  | redoAtEnd (h : k.cursor + 1 = k.snapshots.length) :
      Step dest data k .redo (.ok .nothingToRedo) k
  | reset : Step dest data k .reset (.ok (.updated .reset)) (opening data)
  /-- A command that only says something changes nothing. -/
  | report {c : Command} {answer : Answer} (hc : c.isMutating = false)
      (h : c.Says dest k.present answer) : Step dest data k c (.ok answer) k
  /-- A command that fails, for whatever reason, had no result, and changes nothing. -/
  | failure {c : Command} {f : Failure} (h : c.Fails dest k.present f)
      (hyields : ∀ next, ¬ c.Yields k.present next)
      (hsaid : ∀ answer, ¬ c.Says dest k.present answer) : Step dest data k c (.error f) k

/-- A reset can do nothing but open the chronicle again. -/
theorem Step.eq_of_reset {dest : Destination} {data : List Value} {k k' : Chronicle}
    {outcome : Except Failure Answer} (h : k.Step dest data .reset outcome k') :
    outcome = .ok (.updated .reset) ∧ k' = opening data := by
  cases h with
  | reset => exact ⟨rfl, rfl⟩
  | record hc => cases hc
  | report _ hsaid => cases hsaid
  | failure hfails =>
      cases hfails with
      | compile hs => cases hs
      | eval hs => cases hs

end Chronicle

/-! ### The chronicle of a timeline -/

namespace Timeline

/-- The timeline is the row of snapshots cut at the cursor, and the row starts with the
data that was loaded. -/
structure Shows (t : Timeline) (data : List Value) (k : Chronicle) : Prop where
  loaded : t.loaded = data
  first : k.snapshots.head? = some data
  past : t.past = (k.snapshots.take k.cursor).reverse
  current : t.current = k.present
  future : t.future = k.snapshots.drop (k.cursor + 1)

/-- Past, present and future in one row. -/
def chronicle (t : Timeline) : Chronicle :=
  ⟨t.past.reverse ++ t.current :: t.future, t.past.length, by simp⟩

/-- Where the row starts: at the far end of the past, or at the present if there is none. -/
theorem chronicle_head (t : Timeline) :
    t.chronicle.snapshots.head? = some (t.past.getLast?.getD t.current) := by
  unfold chronicle
  cases h : t.past.getLast? <;> simp_all [List.head?_append]

theorem shows_chronicle {t : Timeline} {data : List Value} (hl : t.loaded = data)
    (hf : t.chronicle.snapshots.head? = some data) : t.Shows data t.chronicle := by
  refine ⟨hl, hf, ?_, ?_, ?_⟩
  · simp [chronicle]
  · simp [chronicle, Chronicle.present]
  · simp [chronicle, List.drop_append]

/-- A timeline shows no chronicle but its own. -/
theorem Shows.eq_chronicle {t : Timeline} {data : List Value} {k : Chronicle}
    (h : t.Shows data k) : k = t.chronicle := by
  obtain ⟨snapshots, cursor, inside⟩ := k
  have hsplit : snapshots
      = snapshots.take cursor ++ snapshots[cursor] :: snapshots.drop (cursor + 1) := by
    rw [← List.drop_eq_getElem_cons inside, List.take_append_drop]
  have hp := h.past
  have hc := h.current
  have hfut := h.future
  simp only [Chronicle.present, List.get_eq_getElem] at hp hc hfut
  unfold chronicle
  simp only [Chronicle.mk.injEq]
  refine ⟨?_, ?_⟩
  · rw [hp, hc, hfut, List.reverse_reverse]
    exact hsplit
  · rw [hp, List.length_reverse, List.length_take]
    omega

/-! ### Moving along the timeline is moving the cursor -/

theorem shows_start (data : List Value) : (start data).Shows data (Chronicle.opening data) :=
  ⟨rfl, rfl, rfl, rfl, rfl⟩

theorem Shows.push {t : Timeline} {data : List Value} {k : Chronicle} (h : t.Shows data k)
    (next : List Value) : (t.push next).Shows data (k.record next) := by
  have hk := h.eq_chronicle
  subst hk
  have hrow : t.chronicle.record next = (t.push next).chronicle := by
    have hpast : t.past.reverse.take (t.past.length + 1) = t.past.reverse :=
      List.take_of_length_le (by simp)
    simp [Chronicle.record, chronicle, Timeline.push, List.take_append, hpast]
  rw [hrow]
  refine shows_chronicle h.loaded ?_
  rw [chronicle_head, ← h.first, chronicle_head]
  simp [Timeline.push, List.getLast?_cons]

/-- There is a past to go back to exactly if the cursor is not at the start. -/
theorem Shows.undo? {t : Timeline} {data : List Value} {k : Chronicle} (h : t.Shows data k) :
    (k.cursor = 0 ∧ t.undo? = none) ∨
      ∃ i, ∃ hi : i < k.snapshots.length, k.cursor = i + 1 ∧
        ∃ next, t.undo? = some next ∧ next.Shows data (k.seek i hi) := by
  have hk := h.eq_chronicle
  subst hk
  obtain ⟨loaded, past, current, future⟩ := t
  cases past with
  | nil => exact Or.inl ⟨rfl, rfl⟩
  | cons p ps =>
      refine Or.inr ⟨ps.length, by simp [chronicle], rfl, _, rfl, ?_⟩
      have hrow : (chronicle ⟨loaded, p :: ps, current, future⟩).seek ps.length
          (by simp [chronicle]) = chronicle ⟨loaded, ps, p, current :: future⟩ := by
        simp [Chronicle.seek, chronicle]
      rw [hrow]
      refine shows_chronicle h.loaded ?_
      have hfirst := h.first
      simpa [chronicle] using hfirst

/-- There is a future to go on to exactly if the cursor is not at the end. -/
theorem Shows.redo? {t : Timeline} {data : List Value} {k : Chronicle} (h : t.Shows data k) :
    (k.cursor + 1 = k.snapshots.length ∧ t.redo? = none) ∨
      ∃ hi : k.cursor + 1 < k.snapshots.length,
        ∃ next, t.redo? = some next ∧ next.Shows data (k.seek (k.cursor + 1) hi) := by
  have hk := h.eq_chronicle
  subst hk
  obtain ⟨loaded, past, current, future⟩ := t
  cases future with
  | nil => exact Or.inl ⟨by simp [chronicle], rfl⟩
  | cons f fs =>
      refine Or.inr ⟨by simp [chronicle], _, rfl, ?_⟩
      have hrow : (chronicle ⟨loaded, past, current, f :: fs⟩).seek (past.length + 1)
          (by simp [chronicle]) = chronicle ⟨loaded, current :: past, f, fs⟩ := by
        simp [Chronicle.seek, chronicle]
      show Shows _ _ ((chronicle ⟨loaded, past, current, f :: fs⟩).seek (past.length + 1) _)
      rw [hrow]
      refine shows_chronicle h.loaded ?_
      have hfirst := h.first
      simpa [chronicle] using hfirst

end Timeline

/-! ### Runs of commands -/

namespace Timeline

/-- One command moves the timeline and its chronicle together. -/
theorem Shows.step {t : Timeline} {data : List Value} {k : Chronicle} (h : t.Shows data k)
    (dest : Destination) (c : Command) :
    ∃ k', k.Step dest data c (t.step dest c).1 k' ∧ (t.step dest c).2.Shows data k' := by
  have hruns := c.execute_runs dest t
  unfold Timeline.step
  generalize c.execute dest t = result at hruns ⊢
  cases hruns with
  | replaced hyields =>
      exact ⟨_, .record hyields.isMutating (h.current ▸ hyields), h.push _⟩
  | said hsaid => exact ⟨k, .report hsaid.isMutating (h.current ▸ hsaid), h⟩
  | undone hbefore =>
      rcases h.undo? with ⟨-, hnone⟩ | ⟨i, hi, hcursor, before, hsome, hshows⟩
      · cases hnone.symm.trans hbefore
      · cases hsome.symm.trans hbefore
        refine ⟨_, .undo (by omega), ?_⟩
        have hpred : k.cursor - 1 = i := by omega
        simp only [hpred]
        exact hshows
  | notUndone hnone =>
      rcases h.undo? with ⟨hstart, -⟩ | ⟨i, hi, hcursor, before, hsome, hshows⟩
      · exact ⟨k, .undoAtStart hstart, h⟩
      · cases hnone.symm.trans hsome
  | redone hafter =>
      rcases h.redo? with ⟨-, hnone⟩ | ⟨hi, after, hsome, hshows⟩
      · cases hnone.symm.trans hafter
      · cases hsome.symm.trans hafter
        exact ⟨_, .redo hi, hshows⟩
  | notRedone hnone =>
      rcases h.redo? with ⟨hend, -⟩ | ⟨hi, after, hsome, hshows⟩
      · exact ⟨k, .redoAtEnd hend, h⟩
      · cases hnone.symm.trans hsome
  | reset =>
      refine ⟨_, .reset, ?_⟩
      rw [Timeline.reset, h.loaded]
      exact shows_start data
  | failed hfails hyields hsaid =>
      rw [h.current] at hfails hyields hsaid
      exact ⟨k, .failure hfails hyields hsaid, h⟩

/-- Every state of a session shows a chronicle that starts with the loaded data. -/
theorem shows_runAll (data : List Value) (run : List (Destination × Command)) :
    ∃ k, ((start data).runAll run).Shows data k := by
  have key : ∀ (run : List (Destination × Command)) (t : Timeline) (k : Chronicle),
      t.Shows data k → ∃ k', (t.runAll run).Shows data k' := by
    intro run
    induction run with
    | nil => intro t k h; exact ⟨k, h⟩
    | cons p rest ih =>
        intro t k h
        obtain ⟨k', -, hk'⟩ := h.step p.1 p.2
        exact ih _ k' hk'
  exact key run _ _ (shows_start data)

/-! ### Undoing and redoing as often -/

theorem step_redo_of_undo? {t before : Timeline} (dest : Destination)
    (h : t.undo? = some before) : (before.step dest .redo).2 = t := by
  obtain ⟨loaded, past, current, future⟩ := t
  cases past with
  | nil => simp [undo?] at h
  | cons p ps =>
      simp only [undo?, Option.some.injEq] at h
      subst h
      rfl

theorem step_undo_of_redo? {t after : Timeline} (dest : Destination)
    (h : t.redo? = some after) : (after.step dest .undo).2 = t := by
  obtain ⟨loaded, past, current, future⟩ := t
  cases future with
  | nil => simp [redo?] at h
  | cons f fs =>
      simp only [redo?, Option.some.injEq] at h
      subst h
      rfl

/-- A command that is taken back by another one is taken back as often as it was run,
as long as it still had somewhere to go. -/
theorem runAll_replicate_cancel (room : Timeline → Nat)
    {there back : Destination × Command}
    (hroom : ∀ t n, n + 1 ≤ room t → n ≤ room (t.step there.1 there.2).2)
    (hback : ∀ t, 0 < room t →
      ((t.step there.1 there.2).2.step back.1 back.2).2 = t) :
    ∀ (n : Nat) (t : Timeline), n ≤ room t →
      t.runAll (List.replicate n there ++ List.replicate n back) = t := by
  intro n
  induction n with
  | zero => intro t _; rfl
  | succ n ih =>
      intro t hn
      have hmiddle := ih (t.step there.1 there.2).2 (hroom t n hn)
      rw [List.replicate_succ, List.replicate_succ', List.cons_append, ← List.append_assoc,
        runAll_cons, runAll_append, hmiddle]
      exact hback t (by omega)

theorem runAll_undos_redos (dest : Destination) {n : Nat} {t : Timeline} (h : n ≤ t.undoDepth) :
    t.runAll (List.replicate n (dest, .undo) ++ List.replicate n (dest, .redo)) = t := by
  refine runAll_replicate_cancel undoDepth ?_ ?_ n t h
  · rintro ⟨loaded, past, current, future⟩ m hm
    cases past with
    | nil => simp [undoDepth] at hm
    | cons p ps => exact Nat.le_of_succ_le_succ hm
  · rintro ⟨loaded, past, current, future⟩ hpos
    cases past with
    | nil => simp [undoDepth] at hpos
    | cons p ps => exact step_redo_of_undo? dest rfl

theorem runAll_redos_undos (dest : Destination) {n : Nat} {t : Timeline} (h : n ≤ t.redoDepth) :
    t.runAll (List.replicate n (dest, .redo) ++ List.replicate n (dest, .undo)) = t := by
  refine runAll_replicate_cancel redoDepth ?_ ?_ n t h
  · rintro ⟨loaded, past, current, future⟩ m hm
    cases future with
    | nil => simp [redoDepth] at hm
    | cons f fs => exact Nat.le_of_succ_le_succ hm
  · rintro ⟨loaded, past, current, future⟩ hpos
    cases future with
    | nil => simp [redoDepth] at hpos
    | cons f fs => exact step_undo_of_redo? dest rfl

/--
**The timeline of a session is a row of snapshots with a cursor.**

After any commands, run on freshly loaded data, there is a row of snapshots that
starts with the data and of which undo history, present and redo history are the
three parts.  Whatever command comes next does to the row what `Chronicle.Step`
allows and nothing else.  As many undos as the history has room for are taken back
by as many redos, and the other way round.
-/
theorem history_refines_chronicle (data : List Value) (run : List (Destination × Command)) :
    (∃ k : Chronicle, ((start data).runAll run).Shows data k ∧
      ∀ (dest : Destination) (c : Command), ∃ k' : Chronicle,
        k.Step dest data c (((start data).runAll run).step dest c).1 k' ∧
          (((start data).runAll run).step dest c).2.Shows data k') ∧
      ∀ (dest : Destination) (n : Nat),
        (n ≤ ((start data).runAll run).undoDepth →
          ((start data).runAll run).runAll
            (List.replicate n (dest, .undo) ++ List.replicate n (dest, .redo))
              = (start data).runAll run) ∧
        (n ≤ ((start data).runAll run).redoDepth →
          ((start data).runAll run).runAll
            (List.replicate n (dest, .redo) ++ List.replicate n (dest, .undo))
              = (start data).runAll run) := by
  obtain ⟨k, hk⟩ := shows_runAll data run
  refine ⟨⟨k, hk, fun dest c => hk.step dest c⟩, fun dest n => ⟨?_, ?_⟩⟩
  · exact runAll_undos_redos dest
  · exact runAll_redos_undos dest

/-- Two changes, of which the second is undone. -/
def oneOfTwo : List (Destination × Command) :=
  [.take 2, .take 1, .undo].map (⟨".", "", none⟩, ·)

/-- One change is left to undo and one to redo; either way leads back, and a reset forgets
both. -/
theorem oneOfTwo_moves_both_ways :
    1 ≤ ((start [.int 1, .int 2, .int 3]).runAll oneOfTwo).undoDepth ∧
      1 ≤ ((start [.int 1, .int 2, .int 3]).runAll oneOfTwo).redoDepth ∧
        ((start [.int 1, .int 2, .int 3]).runAll oneOfTwo).runAll
            [(⟨".", "", none⟩, .undo), (⟨".", "", none⟩, .redo)]
          = (start [.int 1, .int 2, .int 3]).runAll oneOfTwo ∧
        ((start [.int 1, .int 2, .int 3]).runAll oneOfTwo).runAll
            [(⟨".", "", none⟩, .redo), (⟨".", "", none⟩, .undo)]
          = (start [.int 1, .int 2, .int 3]).runAll oneOfTwo ∧
        (((start [.int 1, .int 2, .int 3]).runAll oneOfTwo).step ⟨".", "", none⟩ .reset).2.Shows
          [.int 1, .int 2, .int 3] (Chronicle.opening [.int 1, .int 2, .int 3]) := by
  obtain ⟨⟨k, -, hstep⟩, hmoves⟩ := history_refines_chronicle [.int 1, .int 2, .int 3] oneOfTwo
  obtain ⟨hback, hforth⟩ := hmoves ⟨".", "", none⟩ 1
  obtain ⟨k', hreset, hshows⟩ := hstep ⟨".", "", none⟩ .reset
  obtain ⟨-, rfl⟩ := hreset.eq_of_reset
  exact ⟨Nat.le_refl 1, Nat.le_refl 1, hback (Nat.le_refl 1), hforth (Nat.le_refl 1), hshows⟩

end Timeline

end LambdaShell
