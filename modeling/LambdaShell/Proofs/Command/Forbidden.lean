/-
Forbidden texts are refused, however they are written.

The scan looks for the small form of a forbidden text in the small form of the lambda,
after white space has been taken off the lambda's ends.  Neither step hides a forbidden
text: it is solid ASCII, so what stands around it has no influence on its small form, not
even through a sigma, and it loses nothing to the trimming.  And the scan comes first, so
no other fault of the lambda and no item can speak before it.

The scan finds more than the forbidden texts in capital and small ASCII letters: letters
outside ASCII can have an ASCII letter for their small form.
-/
import Mathlib
import LambdaShell.Proofs.Command.Effects
import LambdaShell.Proofs.History
import LambdaShell.Proofs.Lambda
import LambdaShell.Proofs.Text.SmallLetters

namespace LambdaShell

open Text

variable {p : String} {cs source : List Char}

/-! ### Occurrences -/

theorem Eval.occursIn_iff {part : List Char} : Eval.occursIn part cs = true ↔ part <:+: cs := by
  induction cs with
  | nil => rw [occursIn, List.isEmpty_iff, List.infix_nil]
  | cons c cs ih => rw [occursIn, Bool.or_eq_true, ih, List.isPrefixOf_iff_prefix, List.infix_cons_iff]

/-- The pattern stands somewhere in the text, in any mixture of ASCII capitals and small
letters. -/
def OccursInAnyCase (pattern text : List Char) : Prop :=
  ∃ before found behind, text = before ++ found ++ behind ∧ eqIgnoringAsciiCase found pattern = true

/-- Each forbidden text is solid ASCII, and remains so in small letters. -/
theorem isSolidAscii_of_forbidden (h : p ∈ forbidden) :
    IsSolidAscii p.toList ∧ IsSolidAscii (toLower p.toList) := by
  have hall : forbidden.all (fun p => (p.toList ++ toLower p.toList).all fun c =>
      decide (c.toNat < 0x80) && !isBlank c) = true := by decide +kernel
  have hp := List.all_eq_true.mp (List.all_eq_true.mp hall p h)
  simp only [List.mem_append, Bool.and_eq_true, decide_eq_true_eq, Bool.not_eq_true'] at hp
  exact ⟨⟨fun c hc => (hp c (Or.inl hc)).1, fun c hc => (hp c (Or.inl hc)).2⟩,
    ⟨fun c hc => (hp c (Or.inr hc)).1, fun c hc => (hp c (Or.inr hc)).2⟩⟩

/-- An occurrence in any case is one in the small form. -/
theorem OccursInAnyCase.infix_toLower (hp : IsSolidAscii p.toList)
    (hlower : IsSolidAscii (toLower p.toList)) (h : OccursInAnyCase p.toList cs) :
    toLower p.toList <:+: toLower cs := by
  obtain ⟨before, found, behind, rfl, hfound⟩ := h
  have hsmall : found.map Char.toLower = p.toList.map Char.toLower := eq_of_beq hfound
  rw [toLower_of_ascii hp.ascii] at hlower ⊢
  rw [← hsmall] at hlower ⊢
  rw [hlower.infix_toLower, plainLower_append, plainLower_append,
    plainLower_of_ascii hlower.ascii.of_map_toLower]
  exact ⟨_, _, rfl⟩

/-! ### The scan -/

/-- The scan finds the first forbidden text whose small form stands in that of the lambda. -/
theorem findForbidden_eq_some : findForbidden cs = some p ↔ ∃ front behind,
    forbidden = front ++ p :: behind ∧ toLower p.toList <:+: toLower cs ∧
      ∀ q ∈ front, ¬ toLower q.toList <:+: toLower cs := by
  simp only [findForbidden, List.find?_eq_some_iff_append, Eval.occursIn_iff, Bool.not_eq_true',
    ← Bool.not_eq_true]
  exact ⟨fun ⟨hp, front, behind, hsplit, hfront⟩ => ⟨front, behind, hsplit, hp, hfront⟩,
    fun ⟨front, behind, hsplit, hp, hfront⟩ => ⟨hp, front, behind, hsplit, hfront⟩⟩

/-- White space around a lambda does not matter to the scan. -/
theorem findForbidden_trim (cs : List Char) : findForbidden (trim cs) = findForbidden cs := by
  unfold findForbidden
  refine List.find?_congr fun q hq => Bool.eq_iff_iff.mpr ?_
  rw [Eval.occursIn_iff, Eval.occursIn_iff, (isSolidAscii_of_forbidden hq).2.infix_toLower_trim]

theorem exists_findForbidden (hp : p ∈ forbidden) (h : OccursInAnyCase p.toList cs) :
    ∃ q, findForbidden cs = some q := by
  have hsolid := isSolidAscii_of_forbidden hp
  refine Option.isSome_iff_exists.mp (List.find?_isSome.mpr ⟨p, hp, ?_⟩)
  exact Eval.occursIn_iff.mpr (h.infix_toLower hsolid.1 hsolid.2)

theorem not_occurs_of_findForbidden (h : findForbidden cs = none) (hp : p ∈ forbidden) :
    ¬ OccursInAnyCase p.toList cs := by
  intro hoccurs
  obtain ⟨q, hq⟩ := exists_findForbidden hp hoccurs
  rw [h] at hq
  cases hq

/-! ### Compiling -/

theorem Lambda.compile_of_findForbidden (h : findForbidden source = some p) (goal : Goal) :
    compile source goal = .error (.security p) := by
  rw [← findForbidden_trim] at h
  rw [compile, compileTrimmed, h]

/-- What compiles has passed the scan, and is kept without the white space around it. -/
theorem Lambda.scanned_of_compile {goal : Goal} {lambda : Lambda}
    (h : compile source goal = .ok lambda) :
    findForbidden source = none ∧ findForbidden lambda.source.toList = none := by
  have hlambda := comesFrom_of_compile h
  have hscanned := hlambda.scanned
  rw [hlambda.source, String.toList_ofList]
  exact ⟨findForbidden_trim source ▸ hscanned, hscanned⟩

/--
**A forbidden text is refused wherever it stands and however it is written.**

If one stands in the lambda of a command, in any mixture of ASCII capitals and small
letters, the command fails for that reason and no other, whatever else is wrong with the
lambda and whatever the items are; it names the first one, in the order in which they are
listed, whose small form stands in that of the lambda, and the timeline stays as it was.
A lambda that compiles holds none.
-/
theorem forbidden_text_refused :
    (∀ (c : Command) (s : String), c.lambda? = some s →
      (∃ p ∈ forbidden, OccursInAnyCase p.toList s.toList) →
        ∃ front p behind, forbidden = front ++ p :: behind ∧
          toLower p.toList <:+: toLower s.toList ∧
          (∀ q ∈ front, ¬ toLower q.toList <:+: toLower s.toList) ∧
          ∀ dest (t : Timeline), c.execute dest t = .error (.security p) t ∧
            (t.step dest c).2 = t) ∧
      ∀ source goal lambda, Lambda.compile source goal = .ok lambda → ∀ p ∈ forbidden,
        ¬ OccursInAnyCase p.toList source ∧ ¬ OccursInAnyCase p.toList lambda.source.toList := by
  constructor
  · rintro c s hs ⟨p, hp, hoccurs⟩
    obtain ⟨q, hq⟩ := exists_findForbidden hp hoccurs
    obtain ⟨front, behind, hsplit, hfound, hfront⟩ := findForbidden_eq_some.mp hq
    refine ⟨front, q, behind, hsplit, hfound, hfront, fun dest t => ?_⟩
    have hexecute : c.execute dest t = .error (.security q) t :=
      Command.execute_of_compile_error hs (Lambda.compile_of_findForbidden hq c.goal)
    refine ⟨hexecute, ?_⟩
    rw [Timeline.step, hexecute]
  · intro source goal lambda hcompile p hp
    obtain ⟨hsource, hlambda⟩ := Lambda.scanned_of_compile hcompile
    exact ⟨not_occurs_of_findForbidden hsource hp, not_occurs_of_findForbidden hlambda hp⟩

/-- No lambda, with a sigma in front of one forbidden text and another one behind it. -/
def sigmaAndProcess : String := " (ΑΣ pROCess.Start =< [sYSTEM.Io"

/-- The key is refused for the forbidden text that is listed first, not for the one that
it holds first, and a harmless key holds none. -/
theorem sigmaAndProcess_refused :
    (∃ p ∈ forbidden, OccursInAnyCase p.toList sigmaAndProcess.toList) ∧
      (Command.groupBy sigmaAndProcess .count).execute ⟨".", "", none⟩ (.start [.null])
        = .error (.security "System.IO") (.start [.null]) ∧
      ((Timeline.start [.null]).step ⟨".", "", none⟩ (.groupBy sigmaAndProcess .count)).2
        = .start [.null] ∧
      (∃ lambda, Lambda.compile " x => x.Name ".toList .any = .ok lambda) ∧
      ∀ p ∈ forbidden, ¬ OccursInAnyCase p.toList " x => x.Name ".toList := by
  obtain ⟨hrefused, hcompiled⟩ := forbidden_text_refused
  have hoccurs : ∃ p ∈ forbidden, OccursInAnyCase p.toList sigmaAndProcess.toList :=
    ⟨"Process.", by decide, " (ΑΣ ".toList, "pROCess.".toList, "Start =< [sYSTEM.Io".toList,
      by decide, by decide⟩
  obtain ⟨front, p, behind, hsplit, -, hfront, hrun⟩ :=
    hrefused (.groupBy sigmaAndProcess .count) _ rfl hoccurs
  have hsystem : toLower "System.IO".toList <:+: toLower sigmaAndProcess.toList :=
    Eval.occursIn_iff.mp (by decide +kernel)
  have hp : p = "System.IO" := by
    cases front with
    | nil => exact (List.cons.inj hsplit).1.symm
    | cons q front =>
        obtain ⟨rfl, -⟩ := List.cons.inj hsplit
        exact absurd hsystem (hfront _ List.mem_cons_self)
  subst hp
  obtain ⟨hexecute, hstep⟩ := hrun ⟨".", "", none⟩ (.start [.null])
  have hcompile : Lambda.compile " x => x.Name ".toList .any = .ok ⟨"x => x.Name", .any,
      ⟨"x", .member ⟨5, 11⟩ (.name ⟨5, 6⟩ "x") "Name"⟩⟩ := by cbv
  exact ⟨hoccurs, hexecute, hstep, ⟨_, hcompile⟩,
    fun p hp => (hcompiled _ _ _ hcompile p hp).1⟩

end LambdaShell
