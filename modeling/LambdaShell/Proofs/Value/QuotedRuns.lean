/-
Quoted runs of a data line.

A quoted run opens at a quotation mark that is met outside a run, and ends with the next mark
of its kind or else with the line.  Here this is said of the places of a line, without a state
that is carried along.  The reader, which goes through the line once and knows no more than
the mark that is open, is in a run exactly where there is one: what it remembers at a place is
the mark of the run that holds the place.

So a data line is divided at the commas outside its quoted runs and at no others, and the
pieces are the line again once the commas are put back between them.
-/
import Mathlib
import LambdaShell.Proofs.Sliced.Data

namespace LambdaShell

open Text Sliced

variable {cs : List Char} {mark c : Char} {start stop i : Nat}

/-! ### Runs -/

/-- Where a run ends that opens with `mark` at the place `start`: behind the next such mark,
or where the line does. -/
inductive RunEnds (cs : List Char) (mark : Char) (start : Nat) : Nat → Prop where
  | closed {last : Nat} (hlast : start < last) (hmark : cs[last]? = some mark)
      (hfirst : ∀ k, start < k → k < last → cs[k]? ≠ some mark) : RunEnds cs mark start (last + 1)
  | unclosed (hnone : ∀ k, start < k → cs[k]? ≠ some mark) : RunEnds cs mark start cs.length

/-- A quoted run from the place `start` up to `stop`: it opens at a quotation mark that is met
outside a run, which is to say that every run in front of it has ended. -/
def IsQuotedRun (cs : List Char) (start stop : Nat) : Prop :=
  ∃ mark, cs[start]? = some mark ∧ isQuote mark = true ∧ RunEnds cs mark start stop ∧
    ∀ first < start, ∀ behind, IsQuotedRun cs first behind → behind ≤ start
termination_by start

/-- Whichever mark opens a run, there is a place where the run ends. -/
theorem exists_runEnds (cs : List Char) (mark : Char) (start : Nat) :
    ∃ stop, RunEnds cs mark start stop := by
  classical
  by_cases h : ∃ last, start < last ∧ cs[last]? = some mark
  · obtain ⟨hlast, hmark⟩ := Nat.find_spec h
    exact ⟨_, .closed hlast hmark fun k hk hlt hagain => Nat.find_min h hlt ⟨hk, hagain⟩⟩
  · exact ⟨_, .unclosed fun k hk hmark => h ⟨k, hk, hmark⟩⟩

/-- A place behind the opening mark is in the run as long as the mark has not come again. -/
theorem RunEnds.lt_iff (h : RunEnds cs mark start stop) (hi : i < cs.length) :
    i < stop ↔ ∀ k, start < k → k < i → cs[k]? ≠ some mark := by
  cases h with
  | @closed last hlast hmark hfirst =>
      constructor
      · intro hle k hk hlt
        exact hfirst k hk (Nat.lt_of_lt_of_le hlt (Nat.le_of_lt_succ hle))
      · intro hnot
        by_contra hle
        exact hnot last hlast (Nat.lt_of_succ_le (Nat.le_of_not_lt hle)) hmark
  | unclosed hnone => exact ⟨fun _ k hk _ => hnone k hk, fun _ => hi⟩

/-! ### What the reader remembers -/

/-- The quotation mark that is open in front of the place `i`, with `quote` open in front of
the line. -/
def openAt (quote : Option Char) (cs : List Char) (i : Nat) : Option Char :=
  (cs.take i).foldl quoteAfter quote

@[simp] theorem openAt_cons_succ (quote : Option Char) (c : Char) (cs : List Char) (i : Nat) :
    openAt quote (c :: cs) (i + 1) = openAt (quoteAfter quote c) cs i := rfl

theorem openAt_succ (quote : Option Char) (cs : List Char) (i : Nat) :
    openAt quote cs (i + 1) = cs[i]?.toList.foldl quoteAfter (openAt quote cs i) := by
  rw [openAt, List.take_add_one, List.foldl_append]
  rfl

/-- A mark is open behind a character if it was open before and has not come again, or if the
character opens it. -/
theorem quoteAfter_eq_some_iff {quote : Option Char} : quoteAfter quote c = some mark ↔
    (quote = some mark ∧ c ≠ mark) ∨ (quote = none ∧ isQuote c = true ∧ c = mark) := by
  cases quote with
  | none =>
      rw [quoteAfter]
      by_cases hc : isQuote c = true
      · simp [hc]
      · simp [hc]
  | some q =>
      rw [quoteAfter]
      by_cases hc : c = q
      · subst hc
        simp
      · have hne : q = mark → c ≠ mark := fun hq => hq ▸ hc
        simpa [hc] using hne

/-- At the place `start` the reader enters a run with `mark`. -/
structure OpensRun (cs : List Char) (mark : Char) (start : Nat) : Prop where
  mark_at : cs[start]? = some mark
  quote : isQuote mark = true
  outside : openAt none cs start = none

theorem opensRun_iff (hc : cs[i]? = some c) :
    OpensRun cs mark i ↔ openAt none cs i = none ∧ isQuote c = true ∧ c = mark := by
  constructor
  · rintro ⟨hmark, hquote, houtside⟩
    cases hc.symm.trans hmark
    exact ⟨houtside, hquote, rfl⟩
  · rintro ⟨houtside, hquote, rfl⟩
    exact ⟨hc, hquote, houtside⟩

/-- The reader entered a run with `mark` in front of the place `i`, and since then the mark
has not come again. -/
def StillOpen (cs : List Char) (mark : Char) (i : Nat) : Prop :=
  ∃ start < i, OpensRun cs mark start ∧ ∀ k, start < k → k < i → cs[k]? ≠ some mark

/-- A run is open behind a place if it was open before and its mark is not at the place, or if
it opens there. -/
theorem stillOpen_succ : StillOpen cs mark (i + 1) ↔
    (StillOpen cs mark i ∧ cs[i]? ≠ some mark) ∨ OpensRun cs mark i := by
  constructor
  · rintro ⟨start, hle, hopens, hnot⟩
    rcases Nat.lt_succ_iff_lt_or_eq.mp hle with hlt | rfl
    · refine Or.inl ⟨⟨start, hlt, hopens, fun k hk hki => hnot k hk (Nat.lt_succ_of_lt hki)⟩, ?_⟩
      exact hnot i hlt (Nat.lt_succ_self i)
    · exact Or.inr hopens
  · rintro (⟨⟨start, hlt, hopens, hnot⟩, hi⟩ | hopens)
    · refine ⟨start, Nat.lt_succ_of_lt hlt, hopens, fun k hk hle => ?_⟩
      rcases Nat.lt_succ_iff_lt_or_eq.mp hle with hki | rfl
      · exact hnot k hk hki
      · exact hi
    · refine ⟨i, Nat.lt_succ_self i, hopens, fun k hk hle => ?_⟩
      exact absurd hk (Nat.not_lt.mpr (Nat.le_of_lt_succ hle))

/-- **What is remembered is the mark of the open run**, from each place to the next. -/
theorem openAt_eq_some_iff : openAt none cs i = some mark ↔ StillOpen cs mark i := by
  induction i generalizing mark with
  | zero =>
      constructor
      · intro h
        cases h
      · rintro ⟨start, hlt, -⟩
        exact absurd hlt (Nat.not_lt_zero start)
  | succ i ih =>
      rw [stillOpen_succ, ← ih, openAt_succ]
      cases hc : cs[i]? with
      | none =>
          have hopens : ¬ OpensRun cs mark i := fun h => nomatch hc.symm.trans h.mark_at
          simp [hopens]
      | some c =>
          rw [opensRun_iff hc, Ne, Option.some.injEq]
          exact quoteAfter_eq_some_iff

/-! ### Outside of runs -/

/-- The reader enters a run at the place `start`, and the run ends at `stop`. -/
def ReadsRun (cs : List Char) (start stop : Nat) : Prop :=
  ∃ mark, OpensRun cs mark start ∧ RunEnds cs mark start stop

/-- Nothing is open in front of a place of the line exactly if each run that was entered in
front of it has ended. -/
theorem openAt_eq_none_iff (hi : i < cs.length) : openAt none cs i = none ↔
    ∀ start < i, ∀ stop, ReadsRun cs start stop → stop ≤ i := by
  constructor
  · rintro hnone start hstart stop ⟨mark, hopens, hends⟩
    by_contra hle
    have hopen : StillOpen cs mark i :=
      ⟨start, hstart, hopens, (hends.lt_iff hi).mp (Nat.lt_of_not_le hle)⟩
    cases hnone.symm.trans (openAt_eq_some_iff.mpr hopen)
  · intro hended
    cases hopen : openAt none cs i with
    | none => rfl
    | some mark =>
        obtain ⟨start, hstart, hopens, hnot⟩ := openAt_eq_some_iff.mp hopen
        obtain ⟨stop, hends⟩ := exists_runEnds cs mark start
        have hle := hended start hstart stop ⟨mark, hopens, hends⟩
        exact absurd ((hends.lt_iff hi).mpr hnot) (Nat.not_lt.mpr hle)

/-- **The quoted runs are those that the reader enters.** -/
theorem isQuotedRun_iff : IsQuotedRun cs start stop ↔ ReadsRun cs start stop := by
  induction start using Nat.strongRecOn generalizing stop with
  | ind start ih =>
      -- whether a mark opens a run depends only on the runs in front of it
      have hended : (∀ first < start, ∀ behind, IsQuotedRun cs first behind → behind ≤ start) ↔
          ∀ first < start, ∀ behind, ReadsRun cs first behind → behind ≤ start :=
        forall₃_congr fun first hfirst behind => by rw [ih first hfirst]
      rw [IsQuotedRun, hended]
      constructor
      · rintro ⟨mark, hmark, hquote, hends, houtside⟩
        have hstart : start < cs.length := (List.getElem?_eq_some_iff.mp hmark).1
        exact ⟨mark, ⟨hmark, hquote, (openAt_eq_none_iff hstart).mpr houtside⟩, hends⟩
      · rintro ⟨mark, ⟨hmark, hquote, houtside⟩, hends⟩
        have hstart : start < cs.length := (List.getElem?_eq_some_iff.mp hmark).1
        exact ⟨mark, hmark, hquote, hends, (openAt_eq_none_iff hstart).mp houtside⟩

/-- In front of any other character than a quotation mark nothing is open exactly if the
character lies outside every quoted run. -/
theorem openAt_eq_none_iff_outside (hi : cs[i]? = some c) (hc : isQuote c = false) :
    openAt none cs i = none ↔ ∀ start stop, IsQuotedRun cs start stop → i < start ∨ stop ≤ i := by
  rw [openAt_eq_none_iff (List.getElem?_eq_some_iff.mp hi).1]
  constructor
  · intro hended start stop hrun
    rcases Nat.lt_trichotomy start i with hlt | rfl | hlt
    · exact Or.inr (hended start hlt stop (isQuotedRun_iff.mp hrun))
    · -- a run would open here, and there is no quotation mark
      obtain ⟨mark, hopens, -⟩ := isQuotedRun_iff.mp hrun
      cases hi.symm.trans hopens.mark_at
      cases hc.symm.trans hopens.quote
    · exact Or.inl hlt
  · intro houtside start hlt stop hrun
    exact (houtside start stop (isQuotedRun_iff.mpr hrun)).resolve_left (Nat.lt_asymm hlt)

/-! ### Pieces -/

theorem intercalate_extendFirst (sep : List Char) (c : Char) (ws : List (List Char)) :
    sep.intercalate (extendFirst c ws) = c :: sep.intercalate ws := by
  cases ws with
  | nil => exact List.intercalate_singleton
  | cons w ws =>
      cases ws with
      | nil => rw [extendFirst, List.intercalate_singleton, List.intercalate_singleton]
      | cons v ws =>
          rw [extendFirst, List.intercalate_cons_cons, List.intercalate_cons_cons]
          rfl

/-- Nothing is lost but the commas between the pieces. -/
theorem intercalate_splitUnquoted (quote : Option Char) (cs : List Char) :
    [','].intercalate (splitUnquoted quote cs) = cs := by
  induction cs generalizing quote with
  | nil => exact List.intercalate_singleton
  | cons c cs ih =>
      rw [splitUnquoted]
      split
      · rename_i hcomma
        rw [List.intercalate_cons_of_ne_nil (splitUnquoted_ne_nil none cs), ih, hcomma.2]
        rfl
      · rw [intercalate_extendFirst, ih]

/-- Of pieces that are joined by commas, two next to each other are separated by the comma at
the place `i`. -/
def SeparatesAt (pieces : List (List Char)) (i : Nat) : Prop :=
  ∃ before p q after, pieces = before ++ p :: q :: after ∧
    ([','].intercalate (before ++ [p])).length = i

theorem SeparatesAt.two_le {pieces : List (List Char)} (h : SeparatesAt pieces i) :
    2 ≤ pieces.length := by
  obtain ⟨before, p, q, after, rfl, -⟩ := h
  rw [List.length_append, List.length_cons, List.length_cons]
  omega

/-- The first piece is separated from the others behind its end, and these are further behind. -/
theorem separatesAt_cons (p : List Char) {ps : List (List Char)} (hps : ps ≠ []) :
    SeparatesAt (p :: ps) i ↔ i = p.length ∨ ∃ j, SeparatesAt ps j ∧ i = p.length + 1 + j := by
  have hlength : ∀ before r, ([','].intercalate (p :: (before ++ [r]))).length
      = p.length + 1 + ([','].intercalate (before ++ [r])).length := by
    intro before r
    have hne : before ++ [r] ≠ [] := List.concat_ne_nil r before
    rw [List.intercalate_cons_of_ne_nil hne, List.length_append, List.length_append]
    rfl
  constructor
  · rintro ⟨before, r, q, after, heq, rfl⟩
    cases before with
    | nil =>
        cases heq
        exact Or.inl (congrArg List.length List.intercalate_singleton)
    | cons b before =>
        obtain ⟨rfl, rfl⟩ := List.cons.inj heq
        exact Or.inr ⟨_, ⟨before, r, q, after, rfl, rfl⟩, hlength before r⟩
  · rintro (rfl | ⟨j, ⟨before, r, q, after, rfl, rfl⟩, rfl⟩)
    · obtain ⟨q, after, rfl⟩ := List.exists_cons_of_ne_nil hps
      exact ⟨[], p, q, after, rfl, congrArg List.length List.intercalate_singleton⟩
    · exact ⟨p :: before, r, q, after, rfl, hlength before r⟩

theorem separatesAt_extendFirst (c : Char) (ws : List (List Char)) :
    SeparatesAt (extendFirst c ws) i ↔ ∃ j, SeparatesAt ws j ∧ i = j + 1 := by
  have hshort : ∀ {ps : List (List Char)}, ps.length ≤ 1 → ∀ j, ¬ SeparatesAt ps j :=
    fun hle j h => Nat.not_succ_le_self 1 (h.two_le.trans hle)
  cases ws with
  | nil => simp [extendFirst, hshort]
  | cons w ws =>
      by_cases hws : ws = []
      · subst hws
        simp [extendFirst, hshort]
      · rw [extendFirst, separatesAt_cons _ hws, List.length_cons]
        constructor
        · rintro (rfl | ⟨j, hj, rfl⟩)
          · exact ⟨w.length, (separatesAt_cons w hws).mpr (Or.inl rfl), rfl⟩
          · exact ⟨_, (separatesAt_cons w hws).mpr (Or.inr ⟨j, hj, rfl⟩), by omega⟩
        · rintro ⟨k, hk, rfl⟩
          rcases (separatesAt_cons w hws).mp hk with rfl | ⟨j, hj, rfl⟩
          · exact Or.inl rfl
          · exact Or.inr ⟨j, hj, by omega⟩

/-- Two pieces are separated where there is a comma and no mark is open. -/
theorem separatesAt_splitUnquoted (quote : Option Char) (cs : List Char) (i : Nat) :
    SeparatesAt (splitUnquoted quote cs) i ↔ cs[i]? = some ',' ∧ openAt quote cs i = none := by
  induction cs generalizing quote i with
  | nil =>
      constructor
      · intro h
        exact absurd h.two_le (Nat.not_succ_le_self 1)
      · rintro ⟨hnone, -⟩
        cases hnone
  | cons c cs ih =>
      rw [splitUnquoted]
      split
      · -- a comma that divides, with an empty piece in front of it
        rename_i hcomma
        obtain ⟨rfl, rfl⟩ := hcomma
        rw [separatesAt_cons [] (splitUnquoted_ne_nil none cs)]
        cases i with
        | zero => exact ⟨fun _ => ⟨rfl, rfl⟩, fun _ => Or.inl rfl⟩
        | succ i =>
            have hcomma : quoteAfter none ',' = none := rfl
            rw [openAt_cons_succ, List.getElem?_cons_succ, hcomma, ← ih none i]
            simp [Nat.add_comm 1]
      · -- any other character belongs to the first piece
        rename_i hplain
        rw [separatesAt_extendFirst]
        cases i with
        | zero =>
            constructor
            · rintro ⟨j, -, hj⟩
              cases hj
            · rintro ⟨hc, hquote⟩
              exact absurd ⟨hquote, Option.some.inj hc⟩ hplain
        | succ i =>
            rw [openAt_cons_succ, List.getElem?_cons_succ, ← ih]
            simp

/-- **A data line is divided at the commas outside its quoted runs and at no others**, and
nothing of it is lost: joined by commas, its pieces are the line again. -/
theorem splitUnquoted_outside_runs (cs : List Char) :
    [','].intercalate (splitUnquoted none cs) = cs ∧
      ∀ i, SeparatesAt (splitUnquoted none cs) i ↔ cs[i]? = some ',' ∧
        ∀ start stop, IsQuotedRun cs start stop → i < start ∨ stop ≤ i := by
  refine ⟨intercalate_splitUnquoted none cs, fun i => ?_⟩
  rw [separatesAt_splitUnquoted]
  exact and_congr_right fun hcomma => openAt_eq_none_iff_outside hcomma rfl

/-- A mark of the other kind does not end a run, and one that never comes again leaves the rest
of the line in it. -/
example : splitUnquoted none "'a\",b',\"c,d".toList = ["'a\",b'".toList, "\"c,d".toList] := by
  decide

end LambdaShell
