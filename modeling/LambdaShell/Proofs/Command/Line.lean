/-
The parts of a line.

A line is a word, white space and an argument, with more white space around all of it.  None
of that white space reaches the reader of the argument, and a line whose argument is empty
needs none.
-/
import LambdaShell.Command.Line
import LambdaShell.Proofs.Text.Trimming

namespace LambdaShell.Command

open Text

variable {line front word gap args back : List Char}

theorem splitLine_eq (h : trim line ≠ []) : splitLine line =
    (some (toLower (cutAtBlank (trim line)).1), trimStart (cutAtBlank (trim line)).2) := by
  unfold splitLine
  split
  · exact absurd ‹_› h
  · rfl

/-- White space around a line does not matter. -/
theorem ofLine_trim (line : List Char) : ofLine (trim line) = ofLine line := by
  unfold ofLine splitLine
  rw [trim_trim]

theorem splitLine_word (hword : Solid word) (hne : word ≠ []) :
    splitLine word = (some (toLower word), []) := by
  have htrim : trim word = word := trim_eq_self hword.starts hword.ends
  rw [splitLine_eq (by rwa [htrim]), htrim, cutAtBlank_of_solid hword]
  rfl

theorem splitLine_argument (hword : Solid word) (hgap : AllBlank gap) (hgapNe : gap ≠ [])
    (hstart : StartsSolid args) (hend : EndsSolid args) (hne : word ≠ []) (hargs : args ≠ []) :
    splitLine (word ++ gap ++ args) = (some (toLower word), args) := by
  have htrim : trim (word ++ gap ++ args) = word ++ gap ++ args := by
    refine trim_eq_self ?_ (hend.append hargs)
    rw [List.append_assoc]
    exact hword.starts.append hne
  have hwhole : word ++ gap ++ args ≠ [] := List.append_ne_nil_of_right_ne_nil _ hargs
  rw [splitLine_eq (by rwa [htrim]), htrim]
  cases gap with
  | nil => exact absurd rfl hgapNe
  | cons b gap =>
      obtain ⟨hb, hgap⟩ := List.forall_mem_cons.mp hgap
      rw [List.append_assoc, List.cons_append, cutAtBlank_append hword hb,
        trimStart_append hgap hstart]

/-- The word names the command, and its reader is given the bare argument. -/
theorem ofLine_written (hfront : AllBlank front) (hword : Solid word) (hne : word ≠ [])
    (hgap : AllBlank gap) (hstart : StartsSolid args) (hend : EndsSolid args)
    (hdivided : args = [] ∨ gap ≠ []) (hback : AllBlank back) :
    ofLine (front ++ word ++ gap ++ args ++ back)
      = ofParts (String.ofList (toLower word)) args := by
  have hsplit : ∃ core, trim (front ++ word ++ gap ++ args ++ back) = core ∧
      splitLine core = (some (toLower word), args) := by
    by_cases hargs : args = []
    · subst hargs
      refine ⟨word, ?_, splitLine_word hword hne⟩
      rw [List.append_nil, List.append_assoc _ gap]
      exact trim_padded hfront hword.starts hword.ends hne (hgap.append hback)
    · refine ⟨word ++ gap ++ args, ?_,
        splitLine_argument hword hgap (hdivided.resolve_left hargs) hstart hend hne hargs⟩
      have hcore : StartsSolid (word ++ gap ++ args) := by
        rw [List.append_assoc]
        exact hword.starts.append hne
      rw [← trim_padded hfront hcore (hend.append hargs)
        (List.append_ne_nil_of_right_ne_nil _ hargs) hback]
      simp only [List.append_assoc]
  obtain ⟨core, hcore, hsplit⟩ := hsplit
  rw [← ofLine_trim, hcore]
  unfold ofLine
  rw [hsplit]
  show ofParts _ (trim args) = _
  rw [trim_eq_self hstart hend]

end LambdaShell.Command
