/-
Commands are read as they are written.

A command is written as one of its names, in any case of its letters, white space and its
argument.  The argument of most commands is the lambda itself, so all that can go wrong is
that something is taken off it: white space at its ends, which a trimmed lambda has none
of, and the word `desc` behind the lambda of an ascending `orderby`.  The key of a `groupby`
is cut by rules of its own and is left out here.
-/
import Mathlib
import LambdaShell.Proofs.Command.Effects
import LambdaShell.Proofs.Command.Line
import LambdaShell.Proofs.Expr.Endings
import LambdaShell.Proofs.Expr.Spelling
import LambdaShell.Proofs.Text.SmallLetters

namespace LambdaShell

open Lexer Text

/-! ### Written forms -/

namespace Command

/-- The names of a command, in small letters. -/
def words : Command → List String
  | filter _ => ["filter", "where"]
  | select _ => ["select"]
  | orderBy _ _ => ["orderby", "sort"]
  | groupBy _ _ => ["groupby", "group"]
  | take _ => ["take"]
  | skip _ => ["skip"]
  | distinct => ["distinct"]
  | any _ => ["any"]
  | all _ => ["all"]
  | count _ => ["count"]
  | sum => ["sum"]
  | average => ["avg", "average"]
  | min => ["min"]
  | max => ["max"]
  | first _ => ["first"]
  | last _ => ["last"]
  | undo => ["undo"]
  | redo => ["redo"]
  | reset => ["reset"]
  | exportTo _ => ["export", "save"]
  | help => ["help"]
  | exit => ["exit"]

/-- The word is a name of the command, in any case of its letters. -/
def IsNamed (c : Command) (word : List Char) : Prop :=
  ∃ n ∈ c.words, eqIgnoringAsciiCase word n.toList = true

/-- What is written behind the name of the command, unless it is a `groupby`. -/
def argument? : Command → Option (List Char)
  | groupBy _ _ => none
  | filter s | select s | orderBy s false => some s.toList
  | orderBy s true => some (s.toList ++ " desc".toList)
  | any s | all s | count s | first s | last s => some ((s.map String.toList).getD [])
  | take n | skip n => some (Nat.toDigits 10 n)
  | exportTo f => some f.extension.toList
  | _ => some []

/-- The text is the word `desc`, or ends in it with a space in front. -/
def EndsInDesc (cs : List Char) : Prop :=
  eqIgnoringAsciiCase cs "desc".toList = true ∨
    ∃ front tail, cs = front ++ tail ∧ eqIgnoringAsciiCase tail " desc".toList = true

/-- The argument of the command can be told from what is written around it. -/
structure IsWritable (c : Command) : Prop where
  /-- The lambda is there and has no white space around it. -/
  lambda : ∀ s, c.lambda? = some s → s.toList ≠ [] ∧ trim s.toList = s.toList
  /-- The lambda does not look like a wish to sort downwards. -/
  ascending : ∀ s, c = .orderBy s false → ¬ EndsInDesc s.toList
  /-- The count is one of 64 bits. -/
  count : ∀ n, c = .take n ∨ c = .skip n → n < 2 ^ 64

variable {c : Command} {n : String} {word front gap args back cs : List Char}

/-! ### Names -/

theorem letters_of_mem_words (h : n ∈ c.words) :
    n.toList ≠ [] ∧ (∀ c ∈ n.toList, c.isAlpha = true) ∧
      n.toList.map Char.toLower = n.toList := by
  have hall : c.words.all (fun n => !n.toList.isEmpty && n.toList.all Char.isAlpha
      && n.toList.map Char.toLower == n.toList) = true := by
    cases c <;> rfl
  have hn := List.all_eq_true.mp hall n h
  simp only [Bool.and_eq_true, Bool.not_eq_true', List.isEmpty_eq_false_iff, List.all_eq_true,
    beq_iff_eq, and_assoc] at hn
  exact hn

namespace IsNamed

theorem lower (h : c.IsNamed word) : ∃ n ∈ c.words, word.map Char.toLower = n.toList := by
  obtain ⟨n, hn, heq⟩ := h
  refine ⟨n, hn, ?_⟩
  rw [← (letters_of_mem_words hn).2.2]
  exact eq_of_beq heq

theorem letters (h : c.IsNamed word) : ∀ c ∈ word, c.isAlpha = true := by
  obtain ⟨n, hn, hlower⟩ := h.lower
  refine letters_of_map_toLower ?_
  rw [hlower]
  exact (letters_of_mem_words hn).2.1

theorem ne_nil (h : c.IsNamed word) : word ≠ [] := by
  rintro rfl
  obtain ⟨n, hn, hlower⟩ := h.lower
  exact (letters_of_mem_words hn).1 hlower.symm

theorem solid (h : c.IsNamed word) : Solid word := fun c hc =>
  not_isBlank_of_isNameChar (isNameChar_of_isAlpha (h.letters c hc))

end IsNamed

/-! ### Sorting -/

theorem length_of_eqIgnoringAsciiCase {us vs : List Char} (h : eqIgnoringAsciiCase us vs = true) :
    us.length = vs.length := by
  have hlength := congrArg List.length (eq_of_beq h)
  rwa [List.length_map, List.length_map] at hlength

theorem splitOrderBy_ascending (htrim : trim cs = cs) (hne : cs ≠ []) (hdesc : ¬ EndsInDesc cs) :
    splitOrderBy cs = (cs, false) := by
  have htail : ¬ eqIgnoringAsciiCase (cs.drop (cs.length - 5)) " desc".toList = true := fun h =>
    hdesc (Or.inr ⟨_, _, (List.take_append_drop _ cs).symm, h⟩)
  rw [splitOrderBy, htrim, if_neg hne, if_neg fun h => hdesc (Or.inl h), if_neg htail]

theorem solid_descending (htrim : trim cs = cs) (hne : cs ≠ []) :
    StartsSolid (cs ++ " desc".toList) ∧ EndsSolid (cs ++ " desc".toList) := by
  have hdesc : EndsSolid "desc".toList := (show Solid "desc".toList by decide).ends
  refine ⟨(solid_of_trim htrim).1.append hne, ?_⟩
  show EndsSolid (cs ++ ([' '] ++ "desc".toList))
  rw [← List.append_assoc]
  exact hdesc.append (by decide)

theorem splitOrderBy_descending (htrim : trim cs = cs) (hne : cs ≠ []) :
    splitOrderBy (cs ++ " desc".toList) = (cs, true) := by
  obtain ⟨hstart, hend⟩ := solid_descending htrim hne
  have hlength : (cs ++ " desc".toList).length = cs.length + 5 := List.length_append
  have hnot : ¬ eqIgnoringAsciiCase (cs ++ " desc".toList) "desc".toList = true := by
    intro h
    have hsame := length_of_eqIgnoringAsciiCase h
    rw [hlength] at hsame
    exact absurd hsame (by simp)
  have hdesc : eqIgnoringAsciiCase " desc".toList " desc".toList = true := by decide
  rw [splitOrderBy, trim_eq_self hstart hend, hlength, Nat.add_sub_cancel,
    if_neg (List.append_ne_nil_of_left_ne_nil hne _), if_neg hnot, List.drop_left, if_pos hdesc,
    List.take_left, htrim]

/-! ### Arguments -/

theorem required_text {s : String} (h : s.toList ≠ []) (message : String) :
    required s.toList message = .ok s := by
  rw [required, if_neg h, String.ofList_toList]

theorem optional_text {s : String} (h : s.toList ≠ []) : optional s.toList = some s := by
  rw [optional, if_neg h, String.ofList_toList]

theorem countArg_toDigits {n : Nat} (h : n < 2 ^ 64) (message : String) :
    countArg (Nat.toDigits 10 n) message = .ok n := by
  have hplus : ∀ rest, Nat.toDigits 10 n ≠ '+' :: rest := by
    intro rest heq
    have hdigit := isDigit_of_mem_toDigits '+' (n := n) (heq ▸ List.mem_cons_self)
    exact absurd hdigit (by decide)
  have hread : Number.readCount? (Nat.toDigits 10 n) = some n := by
    unfold Number.readCount?
    split
    · exact absurd ‹_› (hplus _)
    · dsimp only
      rw [Number.natural?_toDigits, Option.filter_some, if_pos (decide_eq_true h)]
  rw [countArg, hread]

theorem readExport_extension (f : ExportFormat) :
    readExport f.extension.toList = .ok (.exportTo f) := by
  cases f <;> rfl

/-! ### Whole lines -/

/-- The argument has no white space around it. -/
theorem solid_of_argument (hc : c.IsWritable) (harg : c.argument? = some args) :
    StartsSolid args ∧ EndsSolid args := by
  have hlambda : ∀ s, c.lambda? = some s → StartsSolid s.toList ∧ EndsSolid s.toList :=
    fun s hs => solid_of_trim (hc.lambda s hs).2
  have hlambda? : ∀ s?, c.lambda? = s? → args = (s?.map String.toList).getD [] →
      StartsSolid args ∧ EndsSolid args := by
    rintro (_ | s) hs rfl
    · exact ⟨nofun, nofun⟩
    · exact hlambda s hs
  cases c with
  | groupBy k a => cases harg
  | filter s | select s =>
      cases harg
      exact hlambda s rfl
  | orderBy s d =>
      obtain ⟨hne, htrim⟩ := hc.lambda s rfl
      cases d with
      | false =>
          cases harg
          exact hlambda s rfl
      | true =>
          cases harg
          exact solid_descending htrim hne
  | any s | all s | count s | first s | last s =>
      exact hlambda? s rfl (Option.some.inj harg).symm
  | take n | skip n =>
      cases harg
      have hsolid : Solid (Nat.toDigits 10 n) := fun d hd =>
        not_isBlank_of_isNameChar (isNameChar_of_isDigit (isDigit_of_mem_toDigits d hd))
      exact ⟨hsolid.starts, hsolid.ends⟩
  | exportTo f =>
      cases harg
      have hsolid : Solid f.extension.toList := by cases f <;> decide
      exact ⟨hsolid.starts, hsolid.ends⟩
  | _ =>
      cases harg
      exact ⟨nofun, nofun⟩

/-- Every name of a command leads to a reader that understands its argument. -/
theorem ofParts_argument (hc : c.IsWritable) (harg : c.argument? = some args)
    (hn : n ∈ c.words) : ofParts n args = .ok c := by
  have hoptional : ∀ s?, c.lambda? = s? →
      optional ((s?.map String.toList).getD []) = s? := by
    rintro (_ | s) hs
    · rfl
    · exact optional_text (hc.lambda s hs).1
  cases c with
  | groupBy k a => cases harg
  | filter s =>
      cases harg
      simp only [words, List.mem_cons, List.not_mem_nil, or_false] at hn
      rcases hn with rfl | rfl <;>
        exact congrArg (Except.map filter) (required_text (hc.lambda s rfl).1 _)
  | select s =>
      cases harg
      cases List.mem_singleton.mp hn
      exact congrArg (Except.map select) (required_text (hc.lambda s rfl).1 _)
  | orderBy s d =>
      obtain ⟨hne, htrim⟩ := hc.lambda s rfl
      have hsplit : splitOrderBy args = (s.toList, d) := by
        cases d with
        | false =>
            cases harg
            exact splitOrderBy_ascending htrim hne (hc.ascending s rfl)
        | true =>
            cases harg
            exact splitOrderBy_descending htrim hne
      have hread : ofParts n args
          = .ok (.orderBy (String.ofList (splitOrderBy args).1) (splitOrderBy args).2) := by
        simp only [words, List.mem_cons, List.not_mem_nil, or_false] at hn
        rcases hn with rfl | rfl <;> rfl
      rw [hread, hsplit, String.ofList_toList]
  | take k =>
      cases harg
      cases List.mem_singleton.mp hn
      exact congrArg (Except.map take) (countArg_toDigits (hc.count k (Or.inl rfl)) _)
  | skip k =>
      cases harg
      cases List.mem_singleton.mp hn
      exact congrArg (Except.map skip) (countArg_toDigits (hc.count k (Or.inr rfl)) _)
  | any s | all s | count s | first s | last s =>
      cases harg
      cases List.mem_singleton.mp hn
      rw [ofParts, hoptional s rfl]
  | exportTo f =>
      cases harg
      simp only [words, List.mem_cons, List.not_mem_nil, or_false] at hn
      rcases hn with rfl | rfl <;> exact readExport_extension f
  | average =>
      simp only [words, List.mem_cons, List.not_mem_nil, or_false] at hn
      rcases hn with rfl | rfl <;> rfl
  | _ =>
      cases List.mem_singleton.mp hn
      rfl

/--
**A command is read from the lines it is written in.**

Let the lambda of the command have no white space around it, and let it not look like a
wish to sort downwards where it is sorted upwards by.  Whichever of its names stands in
front of the argument, in whatever letters, and whatever white space stands between the two
and around the line, it is this command that is read.
-/
theorem ofLine_of_written (hc : c.IsWritable) (harg : c.argument? = some args)
    (hword : c.IsNamed word) (hfront : AllBlank front) (hgap : AllBlank gap)
    (hdivided : args = [] ∨ gap ≠ []) (hback : AllBlank back) :
    ofLine (front ++ word ++ gap ++ args ++ back) = .ok c := by
  obtain ⟨hstart, hend⟩ := solid_of_argument hc harg
  obtain ⟨n, hn, hlower⟩ := hword.lower
  rw [ofLine_written hfront hword.solid hword.ne_nil hgap hstart hend hdivided hback,
    toLower_of_letters hword.letters, hlower, String.ofList_toList]
  exact ofParts_argument hc harg hn

/-- A member by the name of `desc` does not look like a wish to sort downwards, and a lambda
that does can be sorted downwards by; the counts reach up to the last one of 64 bits. -/
theorem descending_read :
    (orderBy "x => x.desc" false).IsWritable ∧ (orderBy "x => x DESC" true).IsWritable ∧
      (take 18446744073709551615).IsWritable ∧
      (orderBy "x => x.desc" false).IsNamed "Sort".toList ∧
      ofLine " Sort\tx => x.desc\u3000".toList = .ok (.orderBy "x => x.desc" false) ∧
      ofLine "OrderBY\u00a0 x => x DESC desc".toList = .ok (.orderBy "x => x DESC" true) ∧
      ofLine "TAKE 18446744073709551615 ".toList = .ok (.take 18446744073709551615) := by
  have hmember : ¬ EndsInDesc "x => x.desc".toList := by
    rintro (h | ⟨front, tail, hsplit, htail⟩)
    · exact absurd h (by decide)
    · have hlength : ".desc".toList.length = tail.length :=
        (length_of_eqIgnoringAsciiCase htail).symm
      have hsplit : "x => x".toList ++ ".desc".toList = front ++ tail := hsplit
      rw [← (List.append_inj' hsplit hlength).2] at htail
      exact absurd htail (by decide)
  have hup : (orderBy "x => x.desc" false).IsWritable := by
    refine ⟨fun s hs => ?_, fun s hs => ?_, nofun⟩
    · cases hs
      decide
    · cases hs
      exact hmember
  have hdown : (orderBy "x => x DESC" true).IsWritable := by
    refine ⟨fun s hs => ?_, fun s hs => ?_, nofun⟩
    · cases hs
      decide
    · injection hs with _ hfalse
      cases hfalse
  have htake : (take 18446744073709551615).IsWritable := by
    refine ⟨nofun, nofun, fun n hn => ?_⟩
    rcases hn with hn | hn
    · cases hn
      decide
    · cases hn
  have hsort : (orderBy "x => x.desc" false).IsNamed "Sort".toList := ⟨"sort", by decide, by decide⟩
  have hupLine : ofLine ([' '] ++ "Sort".toList ++ ['\t'] ++ "x => x.desc".toList ++ ['\u3000'])
      = .ok (.orderBy "x => x.desc" false) :=
    ofLine_of_written hup rfl hsort (by decide) (by decide) (Or.inr (by decide)) (by decide)
  have hdownLine : ofLine
      ([] ++ "OrderBY".toList ++ ['\u00a0', ' '] ++ "x => x DESC desc".toList ++ [])
      = .ok (.orderBy "x => x DESC" true) :=
    ofLine_of_written hdown rfl ⟨"orderby", by decide, by decide⟩ (by decide) (by decide)
      (Or.inr (by decide)) (by decide)
  have htakeLine : ofLine ([] ++ "TAKE".toList ++ [' '] ++ "18446744073709551615".toList ++ [' '])
      = .ok (.take 18446744073709551615) :=
    ofLine_of_written htake (by decide +kernel) ⟨"take", by decide, by decide⟩ (by decide)
      (by decide) (Or.inr (by decide)) (by decide)
  exact ⟨hup, hdown, htake, hsort, hupLine, hdownLine, htakeLine⟩

end Command

end LambdaShell
