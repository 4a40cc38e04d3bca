/-
Data lines read by slices.

Here a data line is divided, and a literal taken out of its quotation marks, as a program does
that knows its text as bytes: places are byte offsets, found by adding up the lengths of
characters or by counting from the end, and what stands between two of them is sliced out.
Any slice might be refused.  None is, and what is read is what `readData` reads: a comma and a
quotation mark are one byte long, so one behind the one and one before the other is the
boundary of a character.
-/
import Mathlib
import LambdaShell.Proofs.Text.Slices
import LambdaShell.Proofs.Text.Trimming
import LambdaShell.Value.Literal

namespace LambdaShell.Sliced

open Text

variable {cs : List Char}

/-! ### Literals -/

/-- The text is at least two bytes long and has the same quotation mark at both ends. -/
def isQuoted (cs : List Char) : Bool :=
  2 ≤ byteLength cs && ((cs.head? == some '"' && cs.getLast? == some '"') ||
    (cs.head? == some '\'' && cs.getLast? == some '\''))

/-- The value of a literal that is not in quotes. -/
def ofBare (cs : List Char) : Value :=
  match truthValue? cs with
  | some b => .bool b
  | none =>
  match Number.readInt64? cs with
  | some i => .int i
  | none =>
  match (Number.readFloat? cs).filter (·.isFinite) with
  | some x => .float x
  | none => .str (String.ofList cs)

/-- The value that a literal stands for. -/
def ofLiteral (cs : List Char) : Option Value := do
  let token := trim cs
  if isQuoted token then
    let inner ← slice? 1 (byteLength token - 1) token
    return .str (String.ofList inner)
  else return ofBare token

theorem isQuote_iff {q : Char} : isQuote q = true ↔ q = '"' ∨ q = '\'' := by
  rw [isQuote, Bool.or_eq_true, beq_iff_eq, beq_iff_eq]

theorem utf8Size_of_isQuote {q : Char} (h : isQuote q = true) : q.utf8Size = 1 := by
  rcases isQuote_iff.mp h with rfl | rfl <;> rfl

theorem getLast?_quoted (q : Char) (inner : List Char) :
    (q :: (inner ++ [q])).getLast? = some q := by
  rw [← List.cons_append, List.getLast?_concat]

theorem isQuoted_iff : isQuoted cs = true ↔
    ∃ q inner, isQuote q = true ∧ cs = q :: (inner ++ [q]) := by
  unfold isQuoted
  simp only [Bool.and_eq_true, Bool.or_eq_true, decide_eq_true_eq, beq_iff_eq]
  constructor
  · rintro ⟨hlength, hends⟩
    obtain ⟨q, hq, hhead, hlast⟩ :
        ∃ q, isQuote q = true ∧ cs.head? = some q ∧ cs.getLast? = some q := by
      rcases hends with h | h
      · exact ⟨'"', rfl, h⟩
      · exact ⟨'\'', rfl, h⟩
    obtain ⟨tail, rfl⟩ := List.head?_eq_some_iff.mp hhead
    rcases List.eq_nil_or_concat tail with rfl | ⟨inner, d, rfl⟩
    · rw [byteLength_cons, byteLength_nil, utf8Size_of_isQuote hq] at hlength
      omega
    · rw [List.concat_eq_append] at hlast ⊢
      rw [← List.cons_append, List.getLast?_concat, Option.some.injEq] at hlast
      exact ⟨q, inner, hq, by rw [hlast]⟩
  · rintro ⟨q, inner, hq, rfl⟩
    refine ⟨?_, ?_⟩
    · simp only [byteLength_cons, byteLength_append, byteLength_nil, utf8Size_of_isQuote hq]
      omega
    · rw [getLast?_quoted, List.head?_cons]
      rcases isQuote_iff.mp hq with rfl | rfl
      · exact Or.inl ⟨rfl, rfl⟩
      · exact Or.inr ⟨rfl, rfl⟩

/-- The inside of a quoted text can be sliced out. -/
theorem slice?_quoted {q : Char} (hq : isQuote q = true) (inner : List Char) :
    slice? 1 (byteLength (q :: (inner ++ [q])) - 1) (q :: (inner ++ [q])) = some inner := by
  have hslice := slice?_append [q] inner [q]
  have hstop : byteLength (q :: (inner ++ [q])) - 1 = byteLength [q] + byteLength inner := by
    simp only [byteLength_cons, byteLength_append, byteLength_nil, utf8Size_of_isQuote hq]
    omega
  have hstart : byteLength [q] = 1 := by
    rw [byteLength_cons, byteLength_nil, utf8Size_of_isQuote hq]
  rw [hstop]
  rwa [hstart] at hslice ⊢

/-- **Literals are read without a refused slice.** -/
theorem ofLiteral_eq (cs : List Char) : ofLiteral cs = some (Value.ofLiteral cs) := by
  unfold ofLiteral Value.ofLiteral
  generalize trim cs = token
  dsimp only
  by_cases hquoted : isQuoted token = true
  · obtain ⟨q, inner, hq, rfl⟩ := isQuoted_iff.mp hquoted
    have hunquoted : unquoted? (q :: (inner ++ [q])) = some inner := by
      have hlast : (inner ++ [q]).getLast? = some q := List.getLast?_concat
      rw [unquoted?, if_pos ⟨hq, hlast⟩, List.dropLast_concat]
    rw [if_pos hquoted, slice?_quoted hq, Value.ofTrimmed, hunquoted]
    rfl
  · have hbare : unquoted? token = none := by
      cases token with
      | nil => rfl
      | cons q tail =>
          rw [unquoted?, if_neg]
          rintro ⟨hq, hlast⟩
          obtain ⟨inner, rfl⟩ := List.getLast?_eq_some_iff.mp hlast
          exact hquoted (isQuoted_iff.mpr ⟨q, inner, hq, rfl⟩)
    rw [if_neg hquoted, Value.ofTrimmed, hbare]
    rfl

/-! ### Data lines -/

/-- The pieces of a line between the commas outside its quoted runs, `start` being where the
open piece begins and `here` where the characters still to be read do. -/
def cutAtCommas (line : List Char) (quote : Option Char) (start here : Nat) :
    List Char → Option (List (List Char))
  | [] => do return [← suffix? start line]
  | c :: cs =>
    if quote = none ∧ c = ',' then do
      let piece ← slice? start here line
      return piece :: (← cutAtCommas line none (here + 1) (here + c.utf8Size) cs)
    else cutAtCommas line (quoteAfter quote c) start (here + c.utf8Size) cs

/-- The values of a data line. -/
def readData (line : List Char) : Option (List Value) := do
  let pieces ← cutAtCommas line none 0 0 line
  ((pieces.map trim).filter (!·.isEmpty)).mapM ofLiteral

/-- A list of pieces with a text in front of the first. -/
def extendBy (us : List Char) : List (List Char) → List (List Char)
  | [] => [us]
  | w :: ws => (us ++ w) :: ws

theorem extendBy_extendFirst (us : List Char) (c : Char) (ws : List (List Char)) :
    extendBy us (extendFirst c ws) = extendBy (us ++ [c]) ws := by
  cases ws with
  | nil => rfl
  | cons w ws => rw [extendFirst, extendBy, extendBy, List.append_assoc, List.singleton_append]

/-- An empty line has a piece as well. -/
theorem splitUnquoted_ne_nil (quote : Option Char) (cs : List Char) :
    splitUnquoted quote cs ≠ [] := by
  cases cs with
  | nil => exact List.cons_ne_nil _ _
  | cons c cs =>
      rw [splitUnquoted]
      split
      · exact List.cons_ne_nil _ _
      · exact extendFirst_ne_nil _ _

theorem extendBy_nil (quote : Option Char) (cs : List Char) :
    extendBy [] (splitUnquoted quote cs) = splitUnquoted quote cs := by
  obtain ⟨w, ws, hpieces⟩ := List.exists_cons_of_ne_nil (splitUnquoted_ne_nil quote cs)
  rw [hpieces]
  rfl

/-- What is still to be read is divided without a refused slice, and belongs to the piece that
is open. -/
theorem cutAtCommas_eq (cs front opened : List Char) (quote : Option Char) :
    cutAtCommas (front ++ (opened ++ cs)) quote (byteLength front)
      (byteLength front + byteLength opened) cs = some (extendBy opened (splitUnquoted quote cs)) := by
  induction cs generalizing front opened quote with
  | nil =>
      unfold cutAtCommas
      rw [List.append_nil, suffix?_append]
      simp [splitUnquoted, extendBy]
  | cons c cs ih =>
      unfold cutAtCommas splitUnquoted
      by_cases hcomma : quote = none ∧ c = ','
      · obtain ⟨rfl, rfl⟩ := hcomma
        -- the next piece begins one byte behind this one, which is the length of the comma
        have hrest := ih (front ++ opened ++ [',']) [] none
        have hstart : byteLength (front ++ opened ++ [','])
            = byteLength front + byteLength opened + 1 := by
          rw [byteLength_append, byteLength_append]
          rfl
        rw [hstart, extendBy_nil, List.append_assoc, List.append_assoc, List.nil_append,
          List.singleton_append] at hrest
        rw [if_pos ⟨rfl, rfl⟩, if_pos ⟨rfl, rfl⟩, slice?_append]
        show (cutAtCommas _ none (byteLength front + byteLength opened + 1)
          (byteLength front + byteLength opened + 1 + byteLength []) cs).bind _ = _
        rw [hrest, extendBy, List.append_nil]
        rfl
      · have hrest := ih front (opened ++ [c]) (quoteAfter quote c)
        rw [byteLength_append, byteLength_cons, byteLength_nil, Nat.add_zero, List.append_assoc,
          List.singleton_append, ← Nat.add_assoc] at hrest
        rw [if_neg hcomma, if_neg hcomma, hrest, extendBy_extendFirst]

/-- **Data lines are read without a refused slice.** -/
theorem readData_eq (line : List Char) : readData line = some (LambdaShell.readData line) := by
  have hpieces : cutAtCommas line none 0 0 line = some (splitUnquoted none line) := by
    rw [← extendBy_nil]
    exact cutAtCommas_eq line [] [] none
  have hvalues : ∀ pieces : List (List Char),
      pieces.mapM ofLiteral = some (pieces.map Value.ofLiteral) := by
    intro pieces
    induction pieces with
    | nil => rfl
    | cons piece pieces ih =>
        rw [List.mapM_cons, ofLiteral_eq, ih]
        rfl
  unfold readData
  rw [hpieces]
  exact hvalues _

end LambdaShell.Sliced
