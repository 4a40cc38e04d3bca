/-
Data lines that were written from values.

Truth values and integers stand on a data line as they are shown, and texts between quotation
marks that they do not hold.  Read again, such a line gives the values it was written from, each
of its own kind: what stands between marks is a text whatever it looks like, its commas do not
divide and its blanks are not trimmed, and no integer is too large to come back.
-/
import Mathlib
import LambdaShell.Proofs.Expr.Spelling
import LambdaShell.Proofs.Sliced.Data
import LambdaShell.Proofs.Text.SmallLetters
import LambdaShell.Proofs.Text.Trimming
import LambdaShell.Value.Literal
import LambdaShell.Value.Text

namespace LambdaShell

open Text Sliced Lexer

/-! ### Writing -/

/-- The marks a text is put between: double ones, unless it holds one. -/
def markFor (s : String) : Char := if '"' ∈ s.toList then '\'' else '"'

namespace Value

/-- A value as it is written on a data line. -/
def written : Value → List Char
  | str s => markFor s :: (s.toList ++ [markFor s])
  | v => v.display.toList

/-- The values that can be written on a data line: truth values, integers, and the texts that
lack one of the two quotation marks. -/
def IsWritable : Value → Prop
  | bool _ | int _ => True
  | str s => '"' ∉ s.toList ∨ '\'' ∉ s.toList
  | _ => False

end Value

/-- The values of a list on one line. -/
def dataLine (vs : List Value) : List Char := [',', ' '].intercalate (vs.map Value.written)

/-! ### Pieces that do not divide -/

/-- Read on with the mark `quote` open, the text has no comma that divides, and leaves `after`
open. -/
def Crosses (quote after : Option Char) (cs : List Char) : Prop :=
  ∀ rest, splitUnquoted quote (cs ++ rest) = extendBy cs (splitUnquoted after rest)

namespace Crosses

variable {quote after : Option Char} {c q : Char} {cs : List Char}

theorem nil : Crosses quote quote [] := fun rest => (extendBy_nil quote rest).symm

theorem cons (hc : ¬ (quote = none ∧ c = ',')) (h : Crosses (quoteAfter quote c) after cs) :
    Crosses quote after (c :: cs) := by
  intro rest
  rw [List.cons_append, splitUnquoted, if_neg hc, h rest]
  cases splitUnquoted after rest <;> rfl

/-- Within marks there is nothing but to wait for the closing one. -/
theorem quoted (hq : isQuote q = true) (hcs : q ∉ cs) :
    Crosses none none (q :: (cs ++ [q])) := by
  have hopen : ∀ cs : List Char, q ∉ cs → Crosses (some q) none (cs ++ [q]) := by
    intro cs hcs
    induction cs with
    | nil =>
        refine cons (fun h => nomatch h.1) ?_
        rw [quoteAfter, if_pos rfl]
        exact nil
    | cons c cs ih =>
        obtain ⟨hne, htail⟩ := not_or.mp fun h => hcs (List.mem_cons.mpr h)
        refine cons (fun h => nomatch h.1) ?_
        rw [quoteAfter, if_neg (Ne.symm hne)]
        exact ih htail
  refine cons ?_ ?_
  · rintro ⟨-, rfl⟩
    cases hq
  · rw [quoteAfter, if_pos hq]
    exact hopen cs hcs

/-- A text without commas and marks does not divide. -/
theorem plain (h : ∀ c ∈ cs, c ≠ ',' ∧ isQuote c = false) : Crosses none none cs := by
  induction cs with
  | nil => exact nil
  | cons c cs ih =>
      obtain ⟨⟨hcomma, hquote⟩, htail⟩ := List.forall_mem_cons.mp h
      refine cons (fun h => hcomma h.2) ?_
      rw [quoteAfter, hquote]
      exact ih htail

/-- A comma behind it divides. -/
theorem divided (h : Crosses none none cs) (rest : List Char) :
    splitUnquoted none (cs ++ ',' :: rest) = cs :: splitUnquoted none rest := by
  rw [h, splitUnquoted, if_pos ⟨rfl, rfl⟩, extendBy, List.append_nil]

theorem whole (h : Crosses none none cs) : splitUnquoted none cs = [cs] := by
  have hend := h []
  rwa [List.append_nil, splitUnquoted, extendBy, List.append_nil] at hend

end Crosses

/-- Pieces with a comma and a space between them are found again, each but the first with the
space in front of it. -/
theorem splitUnquoted_intercalate {p : List Char} {ps : List (List Char)}
    (hp : Crosses none none p) (hps : ∀ d ∈ ps, Crosses none none d) :
    splitUnquoted none ([',', ' '].intercalate (p :: ps)) = p :: ps.map (' ' :: ·) := by
  induction ps generalizing p with
  | nil =>
      rw [List.intercalate_singleton]
      exact hp.whole
  | cons e ps ih =>
      obtain ⟨he, hrest⟩ := List.forall_mem_cons.mp hps
      have hspaced : Crosses none none (' ' :: e) := .cons (fun h => nomatch h.2) he
      -- the space is the first character of the line that is left
      have hline : ' ' :: [',', ' '].intercalate (e :: ps)
          = [',', ' '].intercalate ((' ' :: e) :: ps) := by
        cases ps with
        | nil => rw [List.intercalate_singleton, List.intercalate_singleton]
        | cons f ps => rw [List.intercalate_cons_cons, List.intercalate_cons_cons]; rfl
      have hdivided := hp.divided (' ' :: [',', ' '].intercalate (e :: ps))
      rw [hline, ih hspaced hrest] at hdivided
      rw [List.intercalate_cons_cons, List.append_assoc, List.map_cons, ← hdivided, ← hline]
      rfl

/-! ### What is written for one value -/

/-- A piece of a line that is read as one value: it does not divide, and there is nothing to be
trimmed off it. -/
structure Spells (cs : List Char) (v : Value) : Prop where
  crosses : Crosses none none cs
  starts : StartsSolid cs
  ends : EndsSolid cs
  nonempty : cs ≠ []
  value : Value.ofTrimmed cs = v

namespace Spells

theorem isQuote_markFor (s : String) : isQuote (markFor s) = true := by
  unfold markFor
  split <;> rfl

theorem markFor_not_mem {s : String} (h : '"' ∉ s.toList ∨ '\'' ∉ s.toList) :
    markFor s ∉ s.toList := by
  unfold markFor
  split
  · rename_i hdouble
    exact h.resolve_left fun hnot => hnot hdouble
  · assumption

theorem not_isBlank_of_isQuote {q : Char} (h : isQuote q = true) : isBlank q = false := by
  rcases isQuote_iff.mp h with rfl | rfl <;> rfl

/-- A text is what stands between the marks. -/
theorem str {s : String} (h : '"' ∉ s.toList ∨ '\'' ∉ s.toList) :
    Spells (Value.str s).written (.str s) := by
  have hmark := isQuote_markFor s
  have hblank := not_isBlank_of_isQuote hmark
  refine ⟨.quoted hmark (markFor_not_mem h), ?_, ?_, List.cons_ne_nil _ _, ?_⟩
  · rintro c ⟨⟩
    exact hblank
  · intro c hc
    rw [Value.written, getLast?_quoted] at hc
    cases hc
    exact hblank
  · have hlast : (s.toList ++ [markFor s]).getLast? = some (markFor s) := List.getLast?_concat
    rw [Value.written, Value.ofTrimmed, unquoted?, if_pos ⟨hmark, hlast⟩, List.dropLast_concat]
    exact congrArg Value.str String.ofList_toList

/-- Words and numbers, with a sign or without, are neither divided nor trimmed. -/
theorem bare {cs : List Char} {v : Value} (hne : cs ≠ [])
    (hcs : ∀ c ∈ cs, isNameChar c = true ∨ c = '-') (hvalue : Value.ofTrimmed cs = v) :
    Spells cs v := by
  have hsolid : ∀ c ∈ cs, isBlank c = false := by
    intro c hc
    rcases hcs c hc with h | rfl
    · exact not_isBlank_of_isNameChar h
    · rfl
  have hplain : ∀ c ∈ cs, c ≠ ',' ∧ isQuote c = false := by
    intro c hc
    rcases hcs c hc with h | rfl
    · refine ⟨?_, Bool.eq_false_iff.mpr fun hquote => ?_⟩
      · rintro rfl
        cases h
      · rcases isQuote_iff.mp hquote with rfl | rfl <;> cases h
    · decide
  exact ⟨.plain hplain, fun c hc => hsolid c (List.mem_of_mem_head? hc),
    fun c hc => hsolid c (List.mem_of_mem_getLast? hc), hne, hvalue⟩

theorem bool (b : Bool) : Spells (Value.bool b).written (.bool b) := by
  have hletters : ∀ b, ∀ c ∈ (Value.bool b).written, isNameChar c = true := by
    intro b
    cases b <;> exact List.all_eq_true.mp rfl
  cases b
  · exact bare (List.cons_ne_nil _ _) (fun c hc => Or.inl (hletters false c hc)) rfl
  · exact bare (List.cons_ne_nil _ _) (fun c hc => Or.inl (hletters true c hc)) rfl

/-- An integer is its digits, behind a sign if it is negative. -/
theorem written_int (i : Int64) : ∃ n : Nat,
    (Value.int i).written = Nat.toDigits 10 n ∧ i.toInt = n ∨
    (Value.int i).written = '-' :: Nat.toDigits 10 n ∧ i.toInt = -n := by
  show ∃ n : Nat, (toString i.toInt).toList = _ ∧ _ ∨ (toString i.toInt).toList = _ ∧ _
  cases i.toInt with
  | ofNat n => exact ⟨n, Or.inl ⟨String.toList_ofList, rfl⟩⟩
  | negSucc n =>
      refine ⟨n + 1, Or.inr ⟨?_, rfl⟩⟩
      show ("-" ++ String.ofList (Nat.toDigits 10 (n + 1))).toList = _
      rw [String.toList_append, String.toList_ofList (l := Nat.toDigits 10 (n + 1))]
      rfl

theorem unquoted?_of_bare {cs : List Char} (h : ∀ c ∈ cs, isQuote c = false) :
    unquoted? cs = none := by
  cases cs with
  | nil => rfl
  | cons c cs =>
      rw [unquoted?, if_neg]
      rw [h c List.mem_cons_self]
      exact fun hq => Bool.false_ne_true hq.1

/-- Truth values are spelled with letters only. -/
theorem truthValue?_eq_none {cs : List Char} {c : Char} (hc : c ∈ cs) (h : c.isAlpha = false) :
    truthValue? cs = none := by
  have hnot : ∀ {word : List Char}, (∀ d ∈ word.map Char.toLower, d.isAlpha = true) →
      eqIgnoringAsciiCase cs word = false := by
    intro word hword
    refine Bool.eq_false_iff.mpr fun heq => ?_
    rw [← eq_of_beq heq] at hword
    have hletter := letters_of_map_toLower hword c hc
    rw [h] at hletter
    cases hletter
  have htrue : eqIgnoringAsciiCase cs "true".toList = false := hnot (List.all_eq_true.mp rfl)
  have hfalse : eqIgnoringAsciiCase cs "false".toList = false := hnot (List.all_eq_true.mp rfl)
  rw [truthValue?, htrue, hfalse]
  rfl

theorem not_isAlpha_of_isDigit {c : Char} (h : c.isDigit = true) : c.isAlpha = false := by
  simp only [Char.isDigit, Char.isAlpha, Char.isUpper, Char.isLower, Bool.and_eq_true,
    Bool.or_eq_false_iff, Bool.and_eq_false_iff, decide_eq_true_eq, decide_eq_false_iff_not,
    ge_iff_le, UInt32.le_iff_toNat_le] at h ⊢
  have h9 : ('9'.val).toNat = 57 := rfl
  have ha : ('a'.val).toNat = 97 := rfl
  have hA : ('A'.val).toNat = 65 := rfl
  omega

/-- Every integer of 64 bits is read as it is shown. -/
theorem int (i : Int64) : Spells (Value.int i).written (.int i) := by
  obtain ⟨n, hwritten⟩ := written_int i
  have hdigits : ∀ c ∈ Nat.toDigits 10 n, c.isDigit = true := isDigit_of_mem_toDigits
  have hchars : ∀ c ∈ (Value.int i).written, c.isDigit = true ∨ c = '-' := by
    intro c hc
    rcases hwritten with ⟨hcs, -⟩ | ⟨hcs, -⟩
    · exact Or.inl (hdigits c (hcs ▸ hc))
    · rcases List.mem_cons.mp (hcs ▸ hc) with rfl | hc
      · exact Or.inr rfl
      · exact Or.inl (hdigits c hc)
  have hname : ∀ c ∈ (Value.int i).written, isNameChar c = true ∨ c = '-' :=
    fun c hc => (hchars c hc).imp_left isNameChar_of_isDigit
  have hmark : ∀ c ∈ (Value.int i).written, isQuote c = false := by
    intro c hc
    refine Bool.eq_false_iff.mpr fun hquote => ?_
    rcases isQuote_iff.mp hquote with rfl | rfl <;> rcases hchars _ hc with h | h <;> cases h
  -- there is a digit in it at least, which is no letter
  obtain ⟨d, ds, hd⟩ := List.exists_cons_of_ne_nil (Nat.toDigits_ne_nil (b := 10) (n := n))
  have hmem : d ∈ (Value.int i).written := by
    rcases hwritten with ⟨hcs, -⟩ | ⟨hcs, -⟩ <;> rw [hcs, hd] <;> simp
  have hdigit : d.isDigit = true := hdigits d (hd ▸ List.mem_cons_self)
  have hletter : d.isAlpha = false := not_isAlpha_of_isDigit hdigit
  have hinteger : Number.integer? (Value.int i).written = some i.toInt := by
    rcases hwritten with ⟨hcs, hi⟩ | ⟨hcs, hi⟩
    · rw [hcs, hd, Token.integer?_eq hdigit, ← hd, Number.natural?_toDigits, hi]
      rfl
    · rw [hcs, hi]
      show (Number.natural? (Nat.toDigits 10 n)).map (fun n => -(n : Int)) = _
      rw [Number.natural?_toDigits]
      rfl
  have hread : Number.readInt64? (Value.int i).written = some i := by
    rw [Number.readInt64?, hinteger]
    exact Number.int64?_toInt i
  refine bare (List.ne_nil_of_mem hmem) hname ?_
  rw [Value.ofTrimmed, unquoted?_of_bare hmark, truthValue?_eq_none hmem hletter, hread]

end Spells

theorem Value.IsWritable.spells {v : Value} (h : v.IsWritable) : Spells v.written v := by
  cases v with
  | bool b => exact .bool b
  | int i => exact .int i
  | str s => exact .str h
  | null | float _ | record _ | list _ => exact h.elim

/-! ### Lines -/

theorem Spells.trim_spaced {cs : List Char} {v : Value} (h : Spells cs v) :
    trim (' ' :: cs) = cs := by
  have hblank : AllBlank [' '] := by decide
  have htrim := trim_padded hblank h.starts h.ends h.nonempty (show AllBlank [] by decide)
  rwa [List.append_nil, List.singleton_append] at htrim

theorem Spells.trim_eq {cs : List Char} {v : Value} (h : Spells cs v) : trim cs = cs :=
  trim_eq_self h.starts h.ends

theorem Spells.ofLiteral {cs : List Char} {v : Value} (h : Spells cs v) :
    Value.ofLiteral cs = v := by
  rw [Value.ofLiteral, h.trim_eq, h.value]

/-- **What is written is read back.**  A data line on which truth values and integers stand as
they are shown, and texts between quotation marks, is read as the values that were written. -/
theorem readData_dataLine {vs : List Value} (h : ∀ v ∈ vs, v.IsWritable) :
    readData (dataLine vs) = vs := by
  cases vs with
  | nil => rfl
  | cons v vs =>
      have hspells : ∀ w ∈ v :: vs, Spells w.written w := fun w hw => (h w hw).spells
      obtain ⟨hv, hvs⟩ := List.forall_mem_cons.mp hspells
      have hpieces : splitUnquoted none (dataLine (v :: vs))
          = v.written :: (vs.map Value.written).map (' ' :: ·) :=
        splitUnquoted_intercalate hv.crosses
          (List.forall_mem_map.mpr fun w hw => (hvs w hw).crosses)
      have htrimmed : (splitUnquoted none (dataLine (v :: vs))).map trim
          = (v :: vs).map Value.written := by
        rw [hpieces, List.map_cons, hv.trim_eq, List.map_map, List.map_map, List.map_cons]
        exact congrArg _ (List.map_congr_left fun w hw => (hvs w hw).trim_spaced)
      have hkept : ((v :: vs).map Value.written).filter (!·.isEmpty)
          = (v :: vs).map Value.written := by
        rw [List.filter_eq_self, List.forall_mem_map]
        intro w hw
        rw [Bool.not_eq_true', List.isEmpty_eq_false_iff]
        exact (hspells w hw).nonempty
      rw [readData, htrimmed, hkept, List.map_map]
      exact (List.map_congr_left fun w hw => (hspells w hw).ofLiteral).trans (List.map_id _)

/-- A number and a mark between marks, commas, blanks and nothing, and the least integer. -/
theorem readData_marked :
    readData "\"42\", '\"a, b\"', \"\", \"  \", true, -9223372036854775808".toList
      = [.str "42", .str "\"a, b\"", .str "", .str "  ", .bool true, .int Int64.minValue] := by
  have hline : dataLine
      [.str "42", .str "\"a, b\"", .str "", .str "  ", .bool true, .int Int64.minValue]
        = "\"42\", '\"a, b\"', \"\", \"  \", true, -9223372036854775808".toList := by
    cbv
  rw [← hline]
  refine readData_dataLine fun v hv => ?_
  fin_cases hv <;> first | trivial | exact Or.inl (by decide) | exact Or.inr (by decide)

end LambdaShell
