/-
White space around a text.

Trimming takes a run of white space off either end and nothing else: what it takes off and
what it leaves are together the text, and what it leaves begins and ends with something
else than white space.
-/
import LambdaShell.Text.Blank

namespace LambdaShell.Text

variable {cs us vs : List Char}

/-- There is nothing but white space. -/
def AllBlank (cs : List Char) : Prop := ∀ c ∈ cs, isBlank c = true

/-- The text begins with something else than white space, if at all. -/
def StartsSolid (cs : List Char) : Prop := ∀ c ∈ cs.head?, isBlank c = false

/-- The text ends in something else than white space, if at all. -/
def EndsSolid (cs : List Char) : Prop := ∀ c ∈ cs.getLast?, isBlank c = false

instance (cs : List Char) : Decidable (AllBlank cs) := List.decidableBAll _ cs

theorem AllBlank.append (hus : AllBlank us) (hvs : AllBlank vs) : AllBlank (us ++ vs) :=
  List.forall_mem_append.mpr ⟨hus, hvs⟩

/-! ### The front -/

theorem trimStart_spec (cs : List Char) : ∃ blanks, cs = blanks ++ trimStart cs ∧ AllBlank blanks := by
  refine ⟨cs.takeWhile isBlank, List.takeWhile_append_dropWhile.symm, ?_⟩
  exact fun c hc => List.all_eq_true.mp List.all_takeWhile c hc

theorem startsSolid_trimStart (cs : List Char) : StartsSolid (trimStart cs) := by
  intro c hc
  have hhead := List.head?_dropWhile_not isBlank cs
  rw [← trimStart, Option.mem_def.mp hc] at hhead
  exact hhead

theorem StartsSolid.of_append (h : StartsSolid (us ++ vs)) : StartsSolid us := by
  intro c hc
  refine h c ?_
  rw [List.head?_append, Option.mem_def.mp hc]
  rfl

theorem StartsSolid.append (h : StartsSolid us) (hus : us ≠ []) : StartsSolid (us ++ vs) := by
  cases us with
  | nil => exact absurd rfl hus
  | cons c us => exact h

theorem trimStart_eq_self (h : StartsSolid cs) : trimStart cs = cs := by
  cases cs with
  | nil => rfl
  | cons c cs => exact List.dropWhile_cons_of_neg (by rw [h c rfl]; exact Bool.false_ne_true)

/-- White space at the front is all that is taken off there. -/
theorem trimStart_append (hus : AllBlank us) (hvs : StartsSolid vs) : trimStart (us ++ vs) = vs := by
  rw [trimStart, List.dropWhile_append_of_pos hus]
  exact trimStart_eq_self hvs

/-- What stands behind a text that is not all white space is left alone. -/
theorem trimStart_append_of_ne_nil (h : trimStart us ≠ []) :
    trimStart (us ++ vs) = trimStart us ++ vs := by
  rw [trimStart, List.dropWhile_append, if_neg]
  · rfl
  · rwa [List.isEmpty_iff]

/-! ### The back -/

theorem trimEnd_spec (cs : List Char) : ∃ blanks, cs = trimEnd cs ++ blanks ∧ AllBlank blanks := by
  obtain ⟨blanks, hcs, hblanks⟩ := trimStart_spec cs.reverse
  refine ⟨blanks.reverse, ?_, fun c hc => hblanks c (List.mem_reverse.mp hc)⟩
  rw [trimEnd, ← List.reverse_append, ← trimStart, ← hcs, List.reverse_reverse]

theorem endsSolid_trimEnd (cs : List Char) : EndsSolid (trimEnd cs) := by
  intro c hc
  rw [trimEnd, List.getLast?_reverse] at hc
  exact startsSolid_trimStart cs.reverse c hc

theorem trimEnd_eq_self (h : EndsSolid cs) : trimEnd cs = cs := by
  have hstart : StartsSolid cs.reverse := by
    intro c hc
    rw [List.head?_reverse] at hc
    exact h c hc
  rw [trimEnd, ← trimStart, trimStart_eq_self hstart, List.reverse_reverse]

/-! ### Both ends -/

theorem trim_eq_self (hstart : StartsSolid cs) (hend : EndsSolid cs) : trim cs = cs := by
  rw [trim, trimStart_eq_self hstart, trimEnd_eq_self hend]

/-- A trimmed text is solid at both ends. -/
theorem solid_of_trim (h : trim cs = cs) : StartsSolid cs ∧ EndsSolid cs := by
  have hend : EndsSolid (trim cs) := endsSolid_trimEnd _
  rw [h] at hend
  refine ⟨?_, hend⟩
  obtain ⟨front, hfront, -⟩ := trimStart_spec cs
  obtain ⟨back, hback, -⟩ := trimEnd_spec (trimStart cs)
  have hlength := congrArg List.length hfront
  have hlength' := congrArg List.length hback
  rw [← trim, h] at hlength'
  simp only [List.length_append] at hlength hlength'
  have hnil : front = [] := List.length_eq_zero_iff.mp (by omega)
  have hstart := startsSolid_trimStart cs
  rw [hnil, List.nil_append] at hfront
  rwa [← hfront] at hstart

/-- What trimming leaves is solid at both ends. -/
theorem solid_trim (cs : List Char) : StartsSolid (trim cs) ∧ EndsSolid (trim cs) := by
  obtain ⟨blanks, hback, -⟩ := trimEnd_spec (trimStart cs)
  have hstart := startsSolid_trimStart cs
  rw [hback] at hstart
  exact ⟨hstart.of_append, endsSolid_trimEnd _⟩

theorem trim_trim (cs : List Char) : trim (trim cs) = trim cs :=
  trim_eq_self (solid_trim cs).1 (solid_trim cs).2

theorem EndsSolid.append (h : EndsSolid vs) (hvs : vs ≠ []) : EndsSolid (us ++ vs) := by
  intro c hc
  rw [List.getLast?_append] at hc
  cases hlast : vs.getLast? with
  | none => exact absurd (List.getLast?_eq_none_iff.mp hlast) hvs
  | some d =>
      rw [hlast] at hc
      cases hc
      exact h c hlast

theorem EndsSolid.of_append (h : EndsSolid (us ++ vs)) : EndsSolid vs := by
  intro c hc
  refine h c ?_
  rw [List.getLast?_append, Option.mem_def.mp hc]
  rfl

/-- White space at the end is all that is taken off there. -/
theorem trimEnd_append (hus : EndsSolid us) (hvs : AllBlank vs) : trimEnd (us ++ vs) = us := by
  have hblank : ∀ c ∈ vs.reverse, isBlank c = true := fun c hc => hvs c (List.mem_reverse.mp hc)
  rw [trimEnd, List.reverse_append, List.dropWhile_append_of_pos hblank]
  exact trimEnd_eq_self hus

/-- White space around a text is all that trimming takes off. -/
theorem trim_padded (hus : AllBlank us) (hstart : StartsSolid cs) (hend : EndsSolid cs)
    (hne : cs ≠ []) (hvs : AllBlank vs) : trim (us ++ cs ++ vs) = cs := by
  rw [trim, List.append_assoc, trimStart_append hus (hstart.append hne), trimEnd_append hend hvs]

/-- What stands in front of a text that is not all white space is left alone. -/
theorem trimEnd_append_of_ne_nil (h : trimEnd vs ≠ []) :
    trimEnd (us ++ vs) = us ++ trimEnd vs := by
  obtain ⟨blanks, hvs, hblanks⟩ := trimEnd_spec vs
  have hsolid : EndsSolid (us ++ trimEnd vs) := (endsSolid_trimEnd vs).append h
  have htrim := trimEnd_append hsolid hblanks
  rwa [List.append_assoc, ← hvs] at htrim

theorem endsSolid_concat {c : Char} (hc : isBlank c = false) : EndsSolid (us ++ [c]) := by
  intro d hd
  rw [List.getLast?_concat] at hd
  cases hd
  exact hc

/-- White space behind the last solid character does not change which one that is. -/
theorem last_solid {bs ds : List Char} {c d : Char} (h : us ++ [c] ++ bs = vs ++ [d] ++ ds)
    (hc : isBlank c = false) (hd : isBlank d = false) (hbs : AllBlank bs) (hds : AllBlank ds) :
    c = d := by
  have htrim := congrArg trimEnd h
  rw [trimEnd_append (endsSolid_concat hc) hbs, trimEnd_append (endsSolid_concat hd) hds] at htrim
  exact List.singleton_inj.mp (List.append_inj' htrim rfl).2

/-! ### Words -/

/-- There is no white space. -/
def Solid (cs : List Char) : Prop := ∀ c ∈ cs, isBlank c = false

instance (cs : List Char) : Decidable (Solid cs) := List.decidableBAll _ cs

theorem Solid.starts (h : Solid cs) : StartsSolid cs := fun c hc => h c (List.mem_of_head? hc)

theorem Solid.ends (h : Solid cs) : EndsSolid cs := fun c hc => h c (List.mem_of_getLast? hc)

theorem cutAtBlank_of_solid (h : Solid us) : cutAtBlank us = (us, []) := by
  induction us with
  | nil => rfl
  | cons c us ih =>
      obtain ⟨hc, hus⟩ := List.forall_mem_cons.mp h
      rw [cutAtBlank, ih hus, if_neg (by rw [hc]; exact Bool.false_ne_true)]

theorem cutAtBlank_append (h : Solid us) {b : Char} (hb : isBlank b = true) (vs : List Char) :
    cutAtBlank (us ++ b :: vs) = (us, vs) := by
  induction us with
  | nil => exact if_pos hb
  | cons c us ih =>
      obtain ⟨hc, hus⟩ := List.forall_mem_cons.mp h
      rw [List.cons_append, cutAtBlank, ih hus, if_neg (by rw [hc]; exact Bool.false_ne_true)]

theorem extendFirst_ne_nil (c : Char) (ws : List (List Char)) : extendFirst c ws ≠ [] := by
  cases ws with
  | nil => exact List.cons_ne_nil _ _
  | cons w ws => exact List.cons_ne_nil _ _

theorem words_ne_nil (hstart : StartsSolid cs) (hne : cs ≠ []) : words cs ≠ [] := by
  cases cs with
  | nil => exact absurd rfl hne
  | cons c cs =>
      have hc : ¬ isBlank c = true := by
        rw [hstart c rfl]
        exact Bool.false_ne_true
      rw [words, piecesAtBlank, if_neg hc]
      cases piecesAtBlank cs with
      | nil => exact List.cons_ne_nil _ _
      | cons w ws => exact List.cons_ne_nil _ _

theorem piecesAtBlank_ne_nil (cs : List Char) : piecesAtBlank cs ≠ [] := by
  cases cs with
  | nil => exact List.cons_ne_nil _ _
  | cons c cs =>
      rw [piecesAtBlank]
      split
      · exact List.cons_ne_nil _ _
      · exact extendFirst_ne_nil _ _

theorem extendFirst_append {c : Char} {ws ws' : List (List Char)} (h : ws ≠ []) :
    extendFirst c (ws ++ ws') = extendFirst c ws ++ ws' := by
  cases ws with
  | nil => exact absurd rfl h
  | cons w ws => rfl

theorem piecesAtBlank_append {b : Char} (hb : isBlank b = true) (us vs : List Char) :
    piecesAtBlank (us ++ b :: vs) = piecesAtBlank us ++ piecesAtBlank vs := by
  induction us with
  | nil => exact if_pos hb
  | cons c us ih =>
      rw [List.cons_append, piecesAtBlank, piecesAtBlank, ih]
      split
      · rfl
      · exact extendFirst_append (piecesAtBlank_ne_nil us)

/-- White space divides a text into the words on either side of it. -/
theorem words_append {b : Char} (hb : isBlank b = true) (us vs : List Char) :
    words (us ++ b :: vs) = words us ++ words vs := by
  rw [words, piecesAtBlank_append hb, List.filter_append]
  rfl

end LambdaShell.Text
