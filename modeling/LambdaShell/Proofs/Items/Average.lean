/-
The average next to the sum.

The average is the sum divided by how many numbers there are, except that the two add up from
different zeros: the sum from 0.0, so that it is 0.0 where there are no numbers, and the average
from -0.0.  This can be seen only where every number is -0.0, and there it is seen on the screen.
-/
import LambdaShell.Proofs.Number.Zeros
import LambdaShell.Session

namespace LambdaShell.Items

variable {items : List Value}

/-- How many of the items stand for numbers, as a double. -/
def numberCount (items : List Value) : Double := Number.ofNat (numbers items).length

theorem average_of_numbers (h : numbers items ≠ []) :
    average items = (numbers items).foldl (· + ·) (-0.0) / numberCount items := by
  unfold average numberCount
  split
  · exact absurd ‹_› h
  · rfl

/-- Where all numbers are -0.0, so is their average, but not their sum. -/
theorem average_of_negZeros (h : numbers items ≠ []) (hzeros : ∀ x ∈ numbers items, x = -0.0) :
    average items = -0.0 ∧ sum items / numberCount items = 0.0 := by
  have hcount : 0 < (numbers items).length := List.length_pos_of_ne_nil h
  obtain ⟨hsum, hnegSum⟩ := Number.foldl_add_negZeros hzeros
  constructor
  · rw [average_of_numbers h, hnegSum]
    exact Number.zero_div_ofNat Number.meaning_negZero hcount
  · rw [sum, hsum]
    exact Number.zero_div_ofNat Number.meaning_zero hcount

/-- The two zeros are shown as different texts. -/
theorem shown_negZero_ne (items : List Value) :
    Reply.ofAnswer items (.number (-0.0)) ≠ Reply.ofAnswer items (.number 0.0) := by
  intro h
  have htexts := congrArg (fun reply => reply.screen.map Line.text) h
  have hne : Number.fixed 2 (-0.0) ≠ Number.fixed 2 0.0 := by decide +kernel
  simp [Reply.ofAnswer, Reply.showing, Line.result, Line.colored] at htexts
  exact hne htexts

/-- **The average is the sum divided by the count unless every number is -0.0.**

Where there are numbers among the items, the average is that quotient, bit for bit, exactly if
some number is not -0.0, and then it is also shown as the same text.  Where all numbers are -0.0
the average is -0.0 and the quotient 0.0. -/
theorem average_eq_quotient_iff (h : numbers items ≠ []) :
    (average items = sum items / numberCount items ↔ ∃ x ∈ numbers items, x ≠ -0.0) ∧
      (Reply.ofAnswer items (.number (average items))
          = Reply.ofAnswer items (.number (sum items / numberCount items)) ↔
        ∃ x ∈ numbers items, x ≠ -0.0) ∧
      ((∀ x ∈ numbers items, x = -0.0) →
        average items = -0.0 ∧ sum items / numberCount items = 0.0) := by
  have hsame : (∃ x ∈ numbers items, x ≠ -0.0) →
      average items = sum items / numberCount items := by
    intro hsome
    rw [average_of_numbers h, sum, Number.foldl_add_zero hsome]
  have hapart : ¬ (∃ x ∈ numbers items, x ≠ -0.0) →
      average items = -0.0 ∧ sum items / numberCount items = 0.0 := by
    intro hnone
    refine average_of_negZeros h fun x hx => ?_
    by_contra hne
    exact hnone ⟨x, hx, hne⟩
  refine ⟨⟨fun heq => ?_, hsame⟩, ⟨fun hshown => ?_, fun hsome => ?_⟩, average_of_negZeros h⟩
  · by_contra hnone
    obtain ⟨havg, hquotient⟩ := hapart hnone
    rw [havg, hquotient] at heq
    exact absurd heq (by decide +kernel)
  · by_contra hnone
    obtain ⟨havg, hquotient⟩ := hapart hnone
    rw [havg, hquotient] at hshown
    exact shown_negZero_ne items hshown
  · rw [hsame hsome]

/-- A -0.0, a text that stands for another, and a word. -/
def negZeros : List Value := [.float (-0.0), .str "-0", .str "a"]

/-- Of two -0.0 the average is shown as such, and as soon as there is a zero it is not. -/
theorem negZeros_average :
    numbers negZeros ≠ [] ∧ (∀ x ∈ numbers negZeros, x = -0.0) ∧
      (average negZeros = -0.0 ∧ sum negZeros / numberCount negZeros = 0.0) ∧
      numbers (.int 0 :: negZeros) ≠ [] ∧
      average (.int 0 :: negZeros)
        = sum (.int 0 :: negZeros) / numberCount (.int 0 :: negZeros) := by
  have hnumbers : numbers negZeros = [-0.0, -0.0] := by decide +kernel
  have hmore : numbers (.int 0 :: negZeros) = [0.0, -0.0, -0.0] := by decide +kernel
  have hsome : numbers negZeros ≠ [] := by simp [hnumbers]
  have hmoreSome : numbers (.int 0 :: negZeros) ≠ [] := by simp [hmore]
  have hzeros : ∀ x ∈ numbers negZeros, x = -0.0 := by simp [hnumbers]
  have hzero : ∃ x ∈ numbers (.int 0 :: negZeros), x ≠ -0.0 :=
    ⟨0.0, by simp [hmore], by decide +kernel⟩
  exact ⟨hsome, hzeros, (average_eq_quotient_iff hsome).2.2 hzeros, hmoreSome,
    (average_eq_quotient_iff hmoreSome).1.mpr hzero⟩

/-- The average is not always the sum divided by the count. -/
theorem average_of_negZero_ne : ¬ ∀ items : List Value, numbers items ≠ [] →
    average items = sum items / numberCount items := by
  intro h
  have hnumbers : numbers [.float (-0.0)] = [-0.0] := by decide +kernel
  have heq := h [.float (-0.0)] (by simp [hnumbers])
  exact absurd heq (by decide +kernel)

end LambdaShell.Items
