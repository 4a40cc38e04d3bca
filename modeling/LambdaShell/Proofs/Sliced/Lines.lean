/-
Command lines read by slices.

The arguments of two commands are cut by byte offsets: `orderby` counts five bytes back from
the end, and `groupby` goes two bytes on from its last arrow and from there to a gap that a
scan has found.  Five bytes from the end need not be the boundary of a character; but this
slice is only asked for, and what it yields is used only if it is ` desc`, which has as many
characters as bytes.  The arrow is two bytes long, and a gap is found where a character
begins.
-/
import Mathlib
import LambdaShell.Proofs.Command.GroupBy
import LambdaShell.Proofs.Command.Scanning
import LambdaShell.Proofs.Command.Spelling
import LambdaShell.Proofs.Text.Slices

namespace LambdaShell.Sliced

open Text Command

variable {cs us : List Char}

/-! ### Name and argument -/

/-- Where the first white space of a text begins, and how long it is. -/
def firstBlank? : List Char → Option (Nat × Nat)
  | [] => none
  | c :: cs =>
    if isBlank c then some (0, c.utf8Size)
    else (firstBlank? cs).map fun (i, width) => (c.utf8Size + i, width)

/-- The name of the command in small letters, if there is one, and the argument. -/
def splitLine (line : List Char) : Option (Option (List Char) × List Char) :=
  match trim line with
  | [] => some (none, [])
  | cs =>
    match firstBlank? cs with
    | none => some (some (toLower cs), [])
    | some (i, width) => do
      let name ← prefix? i cs
      let rest ← suffix? (i + width) cs
      return (some (toLower name), trimStart rest)

/-- The first word ends where the first white space begins. -/
theorem firstBlank?_spec (cs : List Char) :
    (firstBlank? cs = none ∧ cutAtBlank cs = (cs, [])) ∨
      ∃ word blank rest, cs = word ++ blank :: rest ∧ cutAtBlank cs = (word, rest) ∧
        firstBlank? cs = some (byteLength word, blank.utf8Size) := by
  induction cs with
  | nil => exact Or.inl ⟨rfl, rfl⟩
  | cons c cs ih =>
      unfold firstBlank? cutAtBlank
      by_cases hblank : isBlank c = true
      · rw [if_pos hblank, if_pos hblank]
        exact Or.inr ⟨[], c, cs, rfl, rfl, rfl⟩
      · rw [if_neg hblank, if_neg hblank]
        rcases ih with ⟨hnone, hcut⟩ | ⟨word, blank, rest, rfl, hcut, hsome⟩
        · rw [hnone, hcut]
          exact Or.inl ⟨rfl, rfl⟩
        · rw [hsome, hcut]
          exact Or.inr ⟨c :: word, blank, rest, rfl, rfl, by rw [byteLength_cons]; rfl⟩

theorem splitLine_eq (line : List Char) : splitLine line = some (Command.splitLine line) := by
  unfold splitLine Command.splitLine
  cases trim line with
  | nil => rfl
  | cons c cs =>
      dsimp only
      rcases firstBlank?_spec (c :: cs) with ⟨hnone, hcut⟩ | ⟨word, blank, rest, hsplit, hcut, hsome⟩
      · rw [hnone, hcut]
        rfl
      · have hname : prefix? (byteLength word) (c :: cs) = some word := by
          rw [hsplit]
          exact prefix?_append word (blank :: rest)
        have hrest : suffix? (byteLength word + blank.utf8Size) (c :: cs) = some rest := by
          have hlength : byteLength word + blank.utf8Size = byteLength (word ++ [blank]) := by
            rw [byteLength_append]
            rfl
          rw [hsplit, hlength, List.append_cons word blank rest]
          exact suffix?_append (word ++ [blank]) rest
        rw [hsome, hcut]
        dsimp only
        rw [hname, hrest]
        rfl

/-! ### Sorting -/

/-- The lambda of an `orderby` argument, and whether it sorts downwards; the last five bytes
are only asked for. -/
def splitOrderBy (args : List Char) : Option (List Char × Bool) :=
  let cs := trim args
  let split := byteLength cs - 5
  if cs = [] then some (identityLambda, false)
  else if eqIgnoringAsciiCase cs "desc".toList then some (identityLambda, true)
  else if (suffix? split cs).any (eqIgnoringAsciiCase · " desc".toList) then do
    let front ← prefix? split cs
    return (trim front, true)
  else some (cs, false)

/-- A text that spells ` desc`, in any case of its letters, has five characters and bytes. -/
theorem desc_length (h : eqIgnoringAsciiCase us " desc".toList = true) :
    us.length = 5 ∧ byteLength us = 5 := by
  have hlength : us.length = 5 := length_of_eqIgnoringAsciiCase h
  have hascii : IsAscii us := by
    refine IsAscii.of_map_toLower ?_
    rw [eq_of_beq h]
    simp [IsAscii]
  exact ⟨hlength, (byteLength_of_ascii hascii).trans hlength⟩

/-- Before a last ` desc` a text can be cut. -/
theorem cutAtByte?_desc (h : eqIgnoringAsciiCase (cs.drop (cs.length - 5)) " desc".toList = true) :
    cutAtByte? (byteLength cs - 5) cs
      = some (cs.take (cs.length - 5), cs.drop (cs.length - 5)) := by
  have hsplit := List.take_append_drop (cs.length - 5) cs
  refine cutAtByte?_eq_some_iff.mpr ⟨hsplit.symm, ?_⟩
  have hlength := congrArg byteLength hsplit
  rw [byteLength_append, (desc_length h).2] at hlength
  omega

/-- The last five bytes are ` desc` exactly if the last five characters are. -/
theorem any_suffix?_desc : (suffix? (byteLength cs - 5) cs).any
      (eqIgnoringAsciiCase · " desc".toList) = true ↔
    eqIgnoringAsciiCase (cs.drop (cs.length - 5)) " desc".toList = true := by
  rw [Option.any_eq_true]
  constructor
  · rintro ⟨tail, htail, hdesc⟩
    obtain ⟨front, rfl, -⟩ := eq_append_of_suffix? htail
    have hfront : (front ++ tail).length - 5 = front.length := by
      rw [List.length_append, (desc_length hdesc).1, Nat.add_sub_cancel]
    rwa [hfront, List.drop_left]
  · intro hdesc
    exact ⟨_, by rw [suffix?, cutAtByte?_desc hdesc]; rfl, hdesc⟩

theorem splitOrderBy_eq (args : List Char) : splitOrderBy args = some (Command.splitOrderBy args) := by
  unfold splitOrderBy Command.splitOrderBy
  dsimp only
  split
  · rfl
  · split
    · rfl
    · by_cases hdesc : eqIgnoringAsciiCase ((trim args).drop ((trim args).length - 5))
          " desc".toList = true
      · rw [if_pos (any_suffix?_desc.mpr hdesc), if_pos hdesc, prefix?, cutAtByte?_desc hdesc]
        rfl
      · rw [if_neg fun h => hdesc (any_suffix?_desc.mp h), if_neg hdesc]

/-! ### Grouping -/

/-- The byte offset of the last arrow. -/
def lastArrow? : List Char → Option Nat
  | [] => none
  | c :: cs =>
    match lastArrow? cs with
    | some i => some (c.utf8Size + i)
    | none => if c = '=' ∧ cs.head? = some '>' then some 0 else none

/-- Reads one more character of a body, counting bytes. -/
def next (s : GapScan) (c : Char) : GapScan := { s.next c with position := s.position + c.utf8Size }

/-- Reads a body, counting bytes. -/
def run (cs : List Char) : GapScan := cs.foldl next .start

/-- The byte offset of the gap before an aggregate word, if the body of a lambda ends in
one. -/
def aggregateGap? (body : List Char) : Option (Option Nat) :=
  let s := run body
  match s.gap with
  | none => some none
  | some gap => do
    let word ← suffix? gap body
    let before ← prefix? gap body
    return if (trimEnd before).getLast?.any endsOperand && isPlainWord (trim word)
      && s.quote.isNone then some gap else none

/-- The key lambda of a `groupby` argument, if there is one, and the name of the aggregate. -/
def splitGroupBy (args : List Char) : Option (Option (List Char) × List Char) :=
  let cs := trim args
  let words := Text.words cs
  if cs = [] then some (none, defaultAggregate)
  else if words.length = 1 then some (some cs, defaultAggregate)
  else
    match lastArrow? cs with
    | none => do
      let first ← words[0]?
      let last ← words[words.length - 1]?
      return (some first, last)
    | some arrow => do
      let start := arrow + 2
      let body ← suffix? start cs
      match ← aggregateGap? body with
      | none => return (some cs, defaultAggregate)
      | some gap => do
        let key ← prefix? (start + gap) cs
        let word ← suffix? (start + gap) cs
        return (some (trim key), trim word)

/-- The arrow stands two bytes before the body. -/
theorem lastArrow?_eq (cs : List Char) :
    (lastArrow? cs).map (· + 2) = (cutAtLastArrow? cs).map fun p => byteLength p.1 := by
  induction cs with
  | nil => rfl
  | cons c cs ih =>
      unfold lastArrow? cutAtLastArrow?
      cases hcut : cutAtLastArrow? cs with
      | some p =>
          rw [hcut] at ih
          obtain ⟨i, hi, hlength⟩ := Option.map_eq_some_iff.mp ih
          rw [hi]
          simp [← hlength, Nat.add_assoc]
      | none =>
          rw [hcut, Option.map_none, Option.map_eq_none_iff] at ih
          rw [ih]
          dsimp only
          split <;> rfl

/-- What a scan knows that has counted characters, with bytes instead. -/
def inBytes (us : List Char) (s : GapScan) : GapScan :=
  { s with position := byteLength us, gap := s.gap.map fun gap => byteLength (us.take gap) }

/-- A gap that is found is where the scan stands. -/
theorem gap_next (s : GapScan) (c : Char) :
    (s.next c).gap = s.gap ∨ (s.next c).gap = some s.position := by
  unfold GapScan.next
  dsimp only
  cases s.quote with
  | some q =>
      dsimp only
      unfold GapScan.inside
      split_ifs <;> exact Or.inl rfl
  | none =>
      dsimp only
      unfold GapScan.outside
      split_ifs
      · exact Or.inl rfl
      · exact Or.inl rfl
      · exact Or.inl rfl
      · exact Or.inr rfl
      · exact Or.inl rfl

/-- A scan counts characters, and it has been where it found a gap. -/
theorem run_position (us : List Char) : (GapScan.run us).position = us.length ∧
    ∀ gap ∈ (GapScan.run us).gap, gap ≤ us.length := by
  induction us using List.reverseRecOn with
  | nil => exact ⟨rfl, nofun⟩
  | append_singleton us c ih =>
      obtain ⟨hposition, hgap⟩ := ih
      have hstep : GapScan.run (us ++ [c]) = (GapScan.run us).next c := GapScan.run_append us [c]
      rw [hstep, List.length_append]
      refine ⟨congrArg (· + 1) hposition, fun gap hmem => ?_⟩
      rcases gap_next (GapScan.run us) c with h | h
      · rw [h] at hmem
        have hle := hgap gap hmem
        omega
      · rw [h, hposition] at hmem
        cases hmem
        omega

/-- Counting characters or bytes, a scan goes the same way. -/
theorem next_inBytes {us : List Char} {s : GapScan} (hposition : s.position = us.length)
    (hgap : ∀ gap ∈ s.gap, gap ≤ us.length) (c : Char) :
    next (inBytes us s) c = inBytes (us ++ [c]) (s.next c) := by
  have hhere : byteLength ((us ++ [c]).take s.position) = byteLength us := by
    rw [hposition, List.take_left]
  have hkeep : (s.gap.map fun gap => byteLength ((us ++ [c]).take gap))
      = s.gap.map fun gap => byteLength (us.take gap) := by
    refine Option.map_congr fun gap hmem => ?_
    rw [List.take_append_of_le_length (hgap gap hmem)]
  have hlength : byteLength (us ++ [c]) = byteLength us + c.utf8Size := by
    rw [byteLength_append]
    rfl
  unfold next inBytes GapScan.next
  dsimp only
  rw [hlength]
  cases hquote : s.quote with
  | some q =>
      dsimp only
      unfold GapScan.inside
      dsimp only
      split_ifs <;> simp only [hkeep, hquote]
  | none =>
      dsimp only
      unfold GapScan.outside
      dsimp only
      split_ifs <;> simp only [hkeep, hhere, hquote, Option.map_some]

theorem run_eq (us : List Char) : run us = inBytes us (GapScan.run us) := by
  induction us using List.reverseRecOn with
  | nil => rfl
  | append_singleton us c ih =>
      obtain ⟨hposition, hgap⟩ := run_position us
      have hstep : GapScan.run (us ++ [c]) = (GapScan.run us).next c := GapScan.run_append us [c]
      rw [hstep, ← next_inBytes hposition hgap, ← ih]
      exact List.foldl_append

theorem aggregateGap?_eq (body : List Char) : aggregateGap? body
    = some ((Command.aggregateGap? body).map fun gap => byteLength (body.take gap)) := by
  unfold aggregateGap? Command.aggregateGap?
  dsimp only
  rw [run_eq]
  cases hgap : (GapScan.run body).gap with
  | none =>
      simp only [inBytes, hgap]
      rfl
  | some gap =>
      have hcut : cutAtByte? (byteLength (body.take gap)) body = some (body.take gap, body.drop gap) :=
        cutAtByte?_eq_some_iff.mpr ⟨(List.take_append_drop gap body).symm, rfl⟩
      simp only [inBytes, hgap, Option.map_some, suffix?, prefix?, hcut, Option.filter_some,
        Option.map_if]
      rfl

theorem splitGroupBy_eq (args : List Char) : splitGroupBy args = some (Command.splitGroupBy args) := by
  have hstart := (solid_trim args).1
  unfold splitGroupBy Command.splitGroupBy
  generalize trim args = cs at hstart
  dsimp only
  by_cases hcs : cs = []
  · subst hcs
    rfl
  rw [if_neg hcs]
  cases hwords : words cs with
  | nil => exact absurd hwords (words_ne_nil hstart hcs)
  | cons word rest =>
      cases rest with
      | nil => rfl
      | cons other more =>
          have hlast : (word :: other :: more)[(word :: other :: more).length - 1]?
              = some ((other :: more).getLastD word) := by
            rw [← List.getLast?_eq_getElem?, List.getLast?_cons, List.getLastD_eq_getLast?]
          have harrow := lastArrow?_eq cs
          rw [if_neg (by simp)]
          dsimp only
          cases hcut : cutAtLastArrow? cs with
          | none =>
              rw [hcut, Option.map_none, Option.map_eq_none_iff] at harrow
              rw [harrow, hlast]
              rfl
          | some p =>
              obtain ⟨front, body⟩ := p
              rw [hcut] at harrow
              obtain ⟨arrow, harrow, hfront⟩ := Option.map_eq_some_iff.mp harrow
              have hfront : arrow + 2 = byteLength front := hfront
              obtain rfl := cutAtLastArrow?_eq_some hcut
              rw [harrow]
              dsimp only
              rw [hfront, suffix?_append]
              show (aggregateGap? body).bind _ = _
              rw [aggregateGap?_eq]
              cases Command.aggregateGap? body with
              | none => rfl
              | some gap =>
                  have hgap : cutAtByte? (byteLength front + byteLength (body.take gap))
                      (front ++ body) = some (front ++ body.take gap, body.drop gap) := by
                    rw [← byteLength_append, cutAtByte?_eq_some_iff, List.append_assoc,
                      List.take_append_drop]
                    exact ⟨rfl, rfl⟩
                  show (prefix? (byteLength front + byteLength (body.take gap)) _).bind (fun key =>
                    (suffix? (byteLength front + byteLength (body.take gap)) _).bind _) = _
                  rw [prefix?, suffix?, hgap]
                  rfl

/-! ### Lines -/

/-- The command of that name with its argument. -/
def ofParts (name : String) (args : List Char) : Option (Except Failure Command) :=
  match name with
  | "orderby" | "sort" => do
    let (lambda, descending) ← splitOrderBy args
    return .ok (.orderBy (String.ofList lambda) descending)
  | "groupby" | "group" => do
    let (key, aggregate) ← splitGroupBy args
    match key with
    | some key => return .ok (.groupBy (String.ofList key) (Aggregate.ofName aggregate))
    | none => return .error (.format
      "GroupBy requires a key selector. Example: groupby x => (int)x % 2 count")
  | _ => some (Command.ofParts name args)

/-- The command of a line. -/
def ofLine (line : List Char) : Option (Except Failure Command) := do
  match ← splitLine line with
  | (none, _) => return .error (.format "Invalid command format.")
  | (some name, args) => ofParts (String.ofList name) (trim args)

theorem ofParts_eq (name : String) (args : List Char) :
    ofParts name args = some (Command.ofParts name args) := by
  have hgroup : (match (Command.splitGroupBy args).1 with
      | some key => return .ok (.groupBy (String.ofList key)
          (Aggregate.ofName (Command.splitGroupBy args).2))
      | none => return .error (.format
        "GroupBy requires a key selector. Example: groupby x => (int)x % 2 count") :
          Option (Except Failure Command)) = some (readGroupBy args) := by
    unfold readGroupBy
    obtain ⟨_ | key, aggregate⟩ := Command.splitGroupBy args <;> rfl
  unfold ofParts
  split
  · rw [splitOrderBy_eq]
    rfl
  · rw [splitOrderBy_eq]
    rfl
  · rw [splitGroupBy_eq]
    exact hgroup
  · rw [splitGroupBy_eq]
    exact hgroup
  · rfl

/-- **Command lines are read without a refused slice.** -/
theorem ofLine_eq (line : List Char) : ofLine line = some (Command.ofLine line) := by
  unfold ofLine Command.ofLine
  rw [splitLine_eq]
  obtain ⟨_ | name, args⟩ := Command.splitLine line
  · rfl
  · exact ofParts_eq _ _

end LambdaShell.Sliced
