/-
A session from its first line to its last.

A session has two phases, and each reads a line in its own way.  While it waits, a line
brings data, is the word `exit`, or is told off.  As soon as a line brings data the session
works, and from then on a line is a command to the timeline or changes nothing.  Nothing
leads back: no line makes a session wait again, and none changes the data it started from.

`awaiting_cases` and `working_cases` say what one line does in either phase; they are the
only place where the reading of a line is unfolded.  A run of lines follows by induction.
-/
import Mathlib
import LambdaShell.Proofs.Command.Effects
import LambdaShell.Proofs.Command.Line
import LambdaShell.Proofs.History
import LambdaShell.Proofs.Text.Trimming

namespace LambdaShell

open Text

/-! ### The end of a session -/

/-- Only the answer `exit` ends a session. -/
theorem Reply.isOver_ofAnswer {items : List Value} {answer : Answer} :
    (Reply.ofAnswer items answer).isOver = true ↔ answer = .exit := by
  cases answer with
  | exit => exact ⟨fun _ => rfl, fun _ => rfl⟩
  | updated change => cases change <;> exact ⟨nofun, nofun⟩
  | _ => exact ⟨nofun, nofun⟩

namespace Session

/-! ### Runs of lines -/

/-- The session behind lines, each with the state of the export directory it meets. -/
def after (s : Session) (run : List (Destination × List Char)) : Session :=
  run.foldl (fun s p => (s.read p.1 p.2).2) s

@[simp] theorem after_nil (s : Session) : s.after [] = s := rfl

@[simp] theorem after_cons (s : Session) (p : Destination × List Char)
    (run : List (Destination × List Char)) :
    s.after (p :: run) = (s.read p.1 p.2).2.after run := rfl

theorem after_append (s : Session) (run next : List (Destination × List Char)) :
    s.after (run ++ next) = (s.after run).after next := by
  simp [after, List.foldl_append]

/-- The commands of the lines that are commands. -/
def commands (run : List (Destination × List Char)) : List (Destination × Command) :=
  run.filterMap fun p => (Command.ofLine (trim p.2)).toOption.map (p.1, ·)

@[simp] theorem commands_nil : commands [] = [] := rfl

theorem commands_cons (p : Destination × List Char) (run : List (Destination × List Char)) :
    commands (p :: run) = commands [p] ++ commands run := by
  rw [← List.singleton_append]
  exact List.filterMap_append

theorem commands_cons_ok {p : Destination × List Char} {c : Command}
    {run : List (Destination × List Char)} (h : Command.ofLine p.2 = .ok c) :
    commands (p :: run) = (p.1, c) :: commands run := by
  rw [← Command.ofLine_trim] at h
  exact List.filterMap_cons_some (by rw [h]; rfl)

theorem commands_cons_error {p : Destination × List Char} {f : Failure}
    {run : List (Destination × List Char)} (h : Command.ofLine p.2 = .error f) :
    commands (p :: run) = commands run := by
  rw [← Command.ofLine_trim] at h
  exact List.filterMap_cons_none (by rw [h]; rfl)

/-! ### Waiting -/

/-- The line is the word `exit`, in any case of its letters. -/
def IsExit (line : List Char) : Prop := eqIgnoringAsciiCase (trim line) "exit".toList = true

instance (line : List Char) : Decidable (IsExit line) := inferInstanceAs (Decidable (_ = true))

/-- The line is not blank, is not the word `exit`, and holds at least one value. -/
structure BringsData (line : List Char) : Prop where
  not_blank : trim line ≠ []
  not_exit : ¬ IsExit line
  data : readData (trim line) ≠ []

/-- What a line does to a session that waits. -/
theorem awaiting_cases (dest : Destination) (line : List Char) :
    (IsExit line ∧ awaiting.read dest line = (.farewell, awaiting)) ∨
      (BringsData line ∧ awaiting.read dest line =
        (.showing (loaded (readData (trim line))), working (.start (readData (trim line))))) ∨
      (¬ IsExit line ∧ ¬ BringsData line ∧
        ∃ screen, awaiting.read dest line = (.showing screen, awaiting)) := by
  show (_ ∧ load (trim line) = _) ∨ (_ ∧ load (trim line) = _) ∨
    (_ ∧ _ ∧ ∃ screen, load (trim line) = _)
  unfold load
  by_cases hblank : trim line = []
  · have hexit : ¬ IsExit line := by
      rw [IsExit, hblank]
      decide
    rw [if_pos hblank]
    exact Or.inr (Or.inr ⟨hexit, fun h => h.not_blank hblank, _, rfl⟩)
  rw [if_neg hblank]
  by_cases hexit : eqIgnoringAsciiCase (trim line) "exit".toList = true
  · exact Or.inl ⟨hexit, if_pos hexit⟩
  rw [if_neg hexit]
  cases hdata : readData (trim line) with
  | nil => exact Or.inr (Or.inr ⟨hexit, fun h => h.data hdata, _, rfl⟩)
  | cons v vs =>
      have hne : readData (trim line) ≠ [] := by
        rw [hdata]
        exact List.cons_ne_nil v vs
      exact Or.inr (Or.inl ⟨⟨hblank, hexit, hne⟩, rfl⟩)

theorem BringsData.read_awaiting {line : List Char} (h : BringsData line) (dest : Destination) :
    (awaiting.read dest line).2 = working (.start (readData (trim line))) := by
  rcases awaiting_cases dest line with ⟨hexit, -⟩ | ⟨-, hread⟩ | ⟨-, hdata, -⟩
  · exact absurd hexit h.not_exit
  · rw [hread]
  · exact absurd h hdata

theorem read_awaiting_of_not_bringsData {line : List Char} (h : ¬ BringsData line)
    (dest : Destination) : (awaiting.read dest line).2 = awaiting := by
  rcases awaiting_cases dest line with ⟨-, hread⟩ | ⟨hdata, -⟩ | ⟨-, -, screen, hread⟩
  · rw [hread]
  · exact absurd hdata h
  · rw [hread]

theorem isOver_awaiting (dest : Destination) (line : List Char) :
    (awaiting.read dest line).1.isOver = true ↔ IsExit line := by
  rcases awaiting_cases dest line with ⟨hexit, hread⟩ | ⟨hdata, hread⟩ | ⟨hexit, -, screen, hread⟩
  · rw [hread]
    exact ⟨fun _ => hexit, fun _ => rfl⟩
  · rw [hread]
    exact ⟨nofun, fun h => absurd h hdata.not_exit⟩
  · rw [hread]
    exact ⟨nofun, fun h => absurd h hexit⟩

theorem after_awaiting {run : List (Destination × List Char)} (h : ∀ p ∈ run, ¬ BringsData p.2) :
    awaiting.after run = awaiting := by
  induction run with
  | nil => rfl
  | cons p run ih =>
      obtain ⟨hp, hrun⟩ := List.forall_mem_cons.mp h
      rw [after_cons, read_awaiting_of_not_bringsData hp, ih hrun]

/-! ### Working -/

/-- What a line does to a session that works: it runs as a command, or changes nothing. -/
theorem working_cases (dest : Destination) (t : Timeline) (line : List Char) :
    (∃ c answer next, Command.ofLine line = .ok c ∧ c.execute dest t = .ok answer next ∧
        (working t).read dest line = (.ofAnswer next.current answer, working next)) ∨
      ((∀ c, Command.ofLine line = .ok c → ∃ f, c.execute dest t = .error f t) ∧
        ∃ screen, (working t).read dest line = (.showing screen, working t)) := by
  show (∃ c answer next, _ ∧ _ ∧ command dest t (trim line) = _) ∨
    (_ ∧ ∃ screen, command dest t (trim line) = _)
  rw [← Command.ofLine_trim]
  unfold command
  by_cases hblank : trim line = []
  · rw [if_pos hblank, hblank]
    refine Or.inr ⟨?_, _, rfl⟩
    intro c hc
    cases hc
  rw [if_neg hblank]
  cases hc : Command.ofLine (trim line) with
  | error f =>
      rw [Timeline.run_of_ofLine_error hc]
      refine Or.inr ⟨?_, _, rfl⟩
      intro c hc
      cases hc
  | ok c =>
      rw [Timeline.run_of_ofLine hc]
      cases hrun : c.execute dest t with
      | error f next =>
          obtain rfl := Command.eq_of_execute_error hrun
          refine Or.inr ⟨?_, _, rfl⟩
          intro d hd
          cases hd
          exact ⟨f, hrun⟩
      | ok answer next => exact Or.inl ⟨c, answer, next, rfl, hrun, rfl⟩

theorem read_of_ofLine {dest : Destination} {t : Timeline} {line : List Char} {c : Command}
    (hc : Command.ofLine line = .ok c) :
    ((working t).read dest line).2 = working (t.step dest c).2 := by
  rw [← Command.ofLine_trim] at hc
  refine Timeline.command_keeps_step dest t ?_ hc
  intro hblank
  rw [hblank] at hc
  cases hc

/-- A line runs its command, if it is one. -/
theorem read_working (t : Timeline) (p : Destination × List Char) :
    ((working t).read p.1 p.2).2 = working (t.runAll (commands [p])) := by
  cases hc : Command.ofLine p.2 with
  | ok c =>
      rw [read_of_ofLine hc, commands_cons_ok hc]
      rfl
  | error f =>
      rw [commands_cons_error hc, commands_nil, Timeline.runAll_nil]
      rcases working_cases p.1 t p.2 with ⟨c, answer, next, hok, -⟩ | ⟨-, screen, hread⟩
      · cases hc.symm.trans hok
      · rw [hread]

/-- Lines run their commands, and nothing else happens. -/
theorem after_working (t : Timeline) (run : List (Destination × List Char)) :
    (working t).after run = working (t.runAll (commands run)) := by
  induction run generalizing t with
  | nil => rfl
  | cons p run ih => rw [after_cons, read_working, ih, ← Timeline.runAll_append, ← commands_cons]

theorem isOver_working (dest : Destination) (t : Timeline) (line : List Char) :
    ((working t).read dest line).1.isOver = true ↔ Command.ofLine line = .ok .exit := by
  rcases working_cases dest t line with ⟨c, answer, next, hc, hrun, hread⟩ | ⟨hfails, screen, hread⟩
  · rw [hread, hc, Reply.isOver_ofAnswer]
    constructor
    · rintro rfl
      rw [Command.execute_exit hrun]
    · intro h
      cases h
      cases hrun
      rfl
  · rw [hread]
    refine ⟨nofun, fun h => ?_⟩
    obtain ⟨f, hf⟩ := hfails _ h
    cases hf

/-- A line that is no command, or one that fails, is shown to be so and nothing else. -/
theorem read_working_of_fails {dest : Destination} {t : Timeline} {line : List Char}
    (h : ∀ c, Command.ofLine (trim line) = .ok c → ∃ f next, c.execute dest t = .error f next) :
    ((working t).read dest line).2 = working t ∧
      ((working t).read dest line).1.isOver = false := by
  rw [Command.ofLine_trim] at h
  rcases working_cases dest t line with ⟨c, answer, next, hc, hrun, -⟩ | ⟨-, screen, hread⟩
  · obtain ⟨f, left, hf⟩ := h c hc
    rw [hf] at hrun
    cases hrun
  · rw [hread]
    exact ⟨rfl, rfl⟩

/-! ### The life cycle -/

/-- Behind the first line that brings data the session works on that data. -/
theorem after_first_data {before later : List (Destination × List Char)} {dest : Destination}
    {line : List Char} (hbefore : ∀ p ∈ before, ¬ BringsData p.2) (hline : BringsData line) :
    awaiting.after (before ++ (dest, line) :: later) =
      working ((Timeline.start (readData (trim line))).runAll (commands later)) := by
  rw [after_append, after_awaiting hbefore, after_cons, hline.read_awaiting, after_working]

theorem exists_first_data {run : List (Destination × List Char)} (h : ∃ p ∈ run, BringsData p.2) :
    ∃ before dest line later, run = before ++ (dest, line) :: later ∧
      (∀ p ∈ before, ¬ BringsData p.2) ∧ BringsData line := by
  induction run with
  | nil =>
      obtain ⟨p, hp, -⟩ := h
      cases hp
  | cons p run ih =>
      by_cases hp : BringsData p.2
      · exact ⟨[], p.1, p.2, run, rfl, nofun, hp⟩
      · obtain ⟨q, hq, hdata⟩ := h
        have hq : q ∈ run := (List.mem_cons.mp hq).resolve_left fun heq => hp (heq ▸ hdata)
        obtain ⟨before, dest, line, later, rfl, hbefore, hline⟩ := ih ⟨q, hq, hdata⟩
        exact ⟨p :: before, dest, line, later, rfl, List.forall_mem_cons.mpr ⟨hp, hbefore⟩, hline⟩

theorem after_eq_awaiting (run : List (Destination × List Char)) :
    awaiting.after run = awaiting ↔ ∀ p ∈ run, ¬ BringsData p.2 := by
  refine ⟨fun h p hp hdata => ?_, after_awaiting⟩
  obtain ⟨before, dest, line, later, rfl, hbefore, hline⟩ := exists_first_data ⟨p, hp, hdata⟩
  rw [after_first_data hbefore hline] at h
  cases h

/--
**A session waits for data, and then works on it for good.**

A session that starts by waiting waits exactly as long as no line brings data.  The first
line that does makes it work on a fresh timeline of its values, and whatever lines come
later the session works, on what their commands have made of that timeline, and the data
it started from stays.  While it waits only the word `exit` ends it; once it works only
the command `exit` does, and a line that is blank, that is no command or whose command
fails neither ends it nor touches the timeline.
-/
theorem session_life_cycle :
    (∀ run, awaiting.after run = awaiting ↔ ∀ p ∈ run, ¬ BringsData p.2) ∧
      (∀ before dest line later, (∀ p ∈ before, ¬ BringsData p.2) → BringsData line →
        awaiting.after (before ++ [(dest, line)]) = working (.start (readData (trim line))) ∧
          ∃ t : Timeline, awaiting.after (before ++ (dest, line) :: later) = working t ∧
            t = (Timeline.start (readData (trim line))).runAll (commands later) ∧
            t.loaded = readData (trim line)) ∧
      ∀ dest line,
        ((awaiting.read dest line).1.isOver = true ↔ IsExit line) ∧
          ∀ t : Timeline,
            (((working t).read dest line).1.isOver = true ↔ Command.ofLine line = .ok .exit) ∧
            (∀ c, Command.ofLine (trim line) = .ok c →
              ((working t).read dest line).2 = working (t.step dest c).2) ∧
            ((trim line = [] ∨ (∃ f, Command.ofLine (trim line) = .error f) ∨
                ∃ c f next, Command.ofLine (trim line) = .ok c ∧
                  c.execute dest t = .error f next) →
              ((working t).read dest line).2 = working t ∧
                ((working t).read dest line).1.isOver = false) := by
  refine ⟨after_eq_awaiting, ?_, ?_⟩
  · intro before dest line later hbefore hline
    refine ⟨after_first_data hbefore hline, _, after_first_data hbefore hline, rfl, ?_⟩
    obtain ⟨k, hk⟩ := Timeline.shows_runAll (readData (trim line)) (commands later)
    exact hk.loaded
  · intro dest line
    refine ⟨isOver_awaiting dest line, fun t => ⟨isOver_working dest t line, ?_, ?_⟩⟩
    · intro c hc
      rw [Command.ofLine_trim] at hc
      exact read_of_ofLine hc
    · intro hfails
      refine read_working_of_fails fun c hc => ?_
      rcases hfails with hblank | ⟨f, hf⟩ | ⟨d, f, next, hd, hf⟩
      · rw [hblank] at hc
        cases hc
      · rw [hf] at hc
        cases hc
      · rw [hd] at hc
        cases hc
        exact ⟨f, next, hf⟩

/-- A blank line, the word `exit` and nothing but commas: all this brings no data. -/
def idleLines : List (Destination × List Char) :=
  [" ", "EXIT", " , ,"].map fun line => (⟨".", "", none⟩, line.toList)

/-- Two commands with the end of the session between them, and one without its argument. -/
def lateLines : List (Destination × List Char) :=
  [" skip 1", "exit 0", "Undo", "take"].map fun line => (⟨".", "", none⟩, line.toList)

/-- The session goes on behind its end, and what it can not read does not hold it up. -/
theorem lateLines_life_cycle :
    (∀ p ∈ idleLines, ¬ BringsData p.2) ∧ BringsData "5, apple".toList ∧
      (∃ t : Timeline,
        awaiting.after (idleLines ++ (⟨".", "", none⟩, "5, apple".toList) :: lateLines)
          = working t ∧
        t = (Timeline.start (readData (trim "5, apple".toList))).runAll (commands lateLines) ∧
        t.loaded = readData (trim "5, apple".toList)) ∧
      Command.ofLine (trim " skip 1".toList) = .ok (.skip 1) ∧
      (∃ f, Command.ofLine (trim "take".toList) = .error f) ∧
      ∀ t : Timeline,
        ((working t).read ⟨".", "", none⟩ " skip 1".toList).2
          = working (t.step ⟨".", "", none⟩ (.skip 1)).2 ∧
        ((working t).read ⟨".", "", none⟩ "take".toList).2 = working t := by
  obtain ⟨-, hfirst, hlines⟩ := session_life_cycle
  have hidle : ∀ p ∈ idleLines, ¬ BringsData p.2 := by
    intro p hp h
    simp only [idleLines, List.map_cons, List.map_nil, List.mem_cons, List.not_mem_nil,
      or_false] at hp
    rcases hp with rfl | rfl | rfl
    · exact h.not_blank rfl
    · exact h.not_exit (by decide)
    · exact h.data rfl
  have hdata : BringsData "5, apple".toList := ⟨by decide, by decide, by decide +kernel⟩
  have hskip : Command.ofLine (trim " skip 1".toList) = .ok (.skip 1) := by cbv
  have htake : ∃ f, Command.ofLine (trim "take".toList) = .error f := ⟨_, rfl⟩
  exact ⟨hidle, hdata, (hfirst _ _ _ _ hidle hdata).2, hskip, htake, fun t =>
    ⟨((hlines _ _).2 t).2.1 _ hskip, (((hlines _ _).2 t).2.2 (Or.inr (Or.inl htake))).1⟩⟩

end Session

end LambdaShell
