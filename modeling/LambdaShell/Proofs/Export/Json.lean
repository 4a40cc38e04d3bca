/-
The keys of exported objects.

`objects` goes through a text of JSON one character at a time and collects the keys of every
object.  It knows nothing of the writer: a string is whatever stands between quotation
marks, escapes undone, a key is a string with a colon behind it, and it belongs to the
innermost object that is open.

Outside strings only braces, colons and quotation marks mean anything to it.  So it passes
over numbers, brackets, commas and white space unchanged, and over a written value it comes
out where it went in, having closed one object for each record in the value.
-/
import LambdaShell.Export.Format
import LambdaShell.Proofs.Expr.Spelling
import LambdaShell.Proofs.Value.Records

namespace LambdaShell

open Lexer

/-! ### Written numbers -/

/-- The text is made of letters, digits, points and signs. -/
def IsNumberText (cs : List Char) : Prop := ∀ c ∈ cs, isNumberChar c = true

instance (cs : List Char) : Decidable (IsNumberText cs) := List.decidableBAll _ cs

namespace IsNumberText

variable {us vs : List Char} {c : Char}

theorem append (hus : IsNumberText us) (hvs : IsNumberText vs) : IsNumberText (us ++ vs) :=
  List.forall_mem_append.mpr ⟨hus, hvs⟩

theorem cons (hc : isNumberChar c = true) (hus : IsNumberText us) : IsNumberText (c :: us) :=
  List.forall_mem_cons.mpr ⟨hc, hus⟩

theorem of_digits (h : ∀ c ∈ us, c.isDigit = true) : IsNumberText us := fun c hc => by
  rw [isNumberChar, isNameChar_of_isDigit (h c hc)]
  rfl

theorem replicate (n : Nat) (hc : isNumberChar c = true) : IsNumberText (List.replicate n c) := by
  intro d hd
  rw [(List.mem_replicate.mp hd).2]
  exact hc

theorem sub (h : IsNumberText us) (hvs : vs ⊆ us) : IsNumberText vs := fun c hc => h c (hvs hc)

end IsNumberText

namespace Number

variable {digits : List Char} {layout : Layout}

theorem isNumberText_toDigits (n : Nat) : IsNumberText (Nat.toDigits 10 n) :=
  .of_digits isDigit_of_mem_toDigits

theorem isNumberText_scientific (h : IsNumberText digits) (e : Int) :
    IsNumberText (scientificText digits e) := by
  have hsign : isNumberChar (if e < 0 then '-' else '+') = true := by
    split <;> rfl
  unfold scientificText
  refine ((h.sub (List.take_subset 1 digits)).append ?_).append
    (.cons rfl (.cons hsign (isNumberText_toDigits _)))
  split
  · exact List.forall_mem_nil _
  · exact .cons rfl (h.sub (List.drop_subset 1 digits))

theorem isNumberText_positional (h : IsNumberText digits)
    (hending : IsNumberText layout.wholeEnding) (point : Int) :
    IsNumberText (positionalText layout digits point) := by
  unfold positionalText
  split
  · exact .append (.cons rfl (.cons rfl (.replicate _ rfl))) h
  · split
    · exact (h.append (.replicate _ rfl)).append hending
    · exact (h.sub (List.take_subset _ _)).append (.cons rfl (h.sub (List.drop_subset _ _)))

theorem isNumberText_decimal (hending : IsNumberText layout.wholeEnding) (d : Decimal) :
    IsNumberText (d.text layout) := by
  have hdigits : IsNumberText
      ((Nat.toDigits 10 d.digits).reverse.dropWhile (· == '0')).reverse := by
    refine (isNumberText_toDigits d.digits).sub fun c hc => ?_
    exact List.mem_reverse.mp (List.dropWhile_subset _ (List.mem_reverse.mp hc))
  unfold Decimal.text
  dsimp only
  split
  · exact isNumberText_positional hdigits hending _
  · exact isNumberText_scientific hdigits _

theorem isNumberText_text (hending : IsNumberText layout.wholeEnding) (x : Double) :
    IsNumberText (layout.text x).toList := by
  have hfinite : ∀ m : Magnitude, IsNumberText (if m.mantissa = 0 then '0' :: layout.wholeEnding
      else (m.shortest layout.tie).text layout) := by
    intro m
    split
    · exact .cons rfl hending
    · exact isNumberText_decimal hending _
  unfold Layout.text signedText
  split
  · decide
  · split <;> decide
  · rw [String.toList_ofList]
    split
    · exact .cons rfl (hfinite _)
    · exact hfinite _

theorem isNumberText_int (i : Int) : IsNumberText (toString i).toList := by
  cases i with
  | ofNat n =>
      show IsNumberText (String.ofList (Nat.toDigits 10 n)).toList
      rw [String.toList_ofList]
      exact isNumberText_toDigits n
  | negSucc n =>
      show IsNumberText ("-" ++ String.ofList (Nat.toDigits 10 (n + 1))).toList
      rw [String.toList_append, String.toList_ofList (l := Nat.toDigits 10 (n + 1))]
      exact .append (by decide) (isNumberText_toDigits _)

end Number

theorem Value.isNumberText_jsonFloat (x : Double) : IsNumberText (jsonFloat x).toList := by
  unfold jsonFloat
  split
  · exact Number.isNumberText_text (by decide) x
  · decide

namespace Json

open Text Value

/-! ### The reader -/

/-- Where the reader stands. -/
inductive Place where
  | outside
  /-- In a string. -/
  | inside
  /-- In a string, behind a backslash. -/
  | escape
  /-- In an escape by code point, with that many digits to come behind those that amount to
  `value`. -/
  | code (left value : Nat)
  deriving DecidableEq

/-- What has been read. -/
structure Reader where
  /-- The keys of each object that is closed, in the order in which they were closed. -/
  closed : List (List String)
  /-- The keys so far of each object that is open, the innermost first. -/
  opened : List (List String)
  /-- The text of the string that was read last. -/
  text : List Char
  place : Place
  deriving DecidableEq

/-- Adds keys to the innermost of the open objects. -/
def extend (keys : List String) : List (List String) → List (List String)
  | [] => []
  | inner :: opened => (inner ++ keys) :: opened

/-- The character that an escape stands for, if it is not one by code point. -/
def unescaped (c : Char) : Char :=
  match c with
  | 'n' => '\n'
  | 'r' => '\r'
  | 't' => '\t'
  | 'b' => '\x08'
  | 'f' => '\x0c'
  | c => c

/-- The value of a hexadecimal digit. -/
def hexValue (c : Char) : Nat :=
  if 'a' ≤ c then c.toNat - 87 else if 'A' ≤ c then c.toNat - 55 else c.toNat - 48

namespace Reader

/-- Nothing has been read. -/
def start : Reader := ⟨[], [], [], .outside⟩

/-- A character that is part of a string. -/
def keep (r : Reader) (c : Char) : Reader := { r with text := r.text ++ [c], place := .inside }

/-- The innermost object ends. -/
def close (r : Reader) : Reader :=
  match r.opened with
  | [] => r
  | keys :: opened => { r with closed := r.closed ++ [keys], opened := opened }

/-- A character outside strings. -/
def outside (r : Reader) (c : Char) : Reader :=
  if c = '"' then { r with text := [], place := .inside }
  else if c = '{' then { r with opened := [] :: r.opened }
  else if c = '}' then r.close
  else if c = ':' then { r with opened := extend [String.ofList r.text] r.opened }
  else r

/-- Reads one more character. -/
def next (r : Reader) (c : Char) : Reader :=
  match r.place with
  | .outside => r.outside c
  | .inside =>
    if c = '"' then { r with place := .outside }
    else if c = '\\' then { r with place := .escape }
    else r.keep c
  | .escape => if c = 'u' then { r with place := .code 3 0 } else r.keep (unescaped c)
  | .code 0 value => r.keep (Char.ofNat (16 * value + hexValue c))
  | .code (left + 1) value => { r with place := .code left (16 * value + hexValue c) }

/-- Reads a text. -/
def run (r : Reader) (cs : List Char) : Reader := cs.foldl next r

theorem run_append (r : Reader) (us vs : List Char) : r.run (us ++ vs) = (r.run us).run vs :=
  List.foldl_append

theorem run_cons (r : Reader) (c : Char) (cs : List Char) : r.run (c :: cs) = (r.next c).run cs :=
  rfl

end Reader

/-- The keys of each object in a text, inner objects first. -/
def objects (cs : List Char) : List (List String) := (Reader.start.run cs).closed

/-! ### Strings -/

theorem hexValue_hexDigit (n : Nat) : hexValue (hexDigit n) = n % 16 := by
  have hall : ∀ m < 16, hexValue (Nat.digitChar m) = m := by decide
  exact hall _ (Nat.mod_lt n (by decide))

namespace Reader

variable {r s t : Reader} {cs : List Char}

theorem run_code (hr : r.place = .inside) (n : Nat) (hn : n < 256) :
    r.run ['\\', 'u', '0', '0', hexDigit (n / 16), hexDigit n] = r.keep (Char.ofNat n) := by
  obtain ⟨closed, opened, text, place⟩ := r
  obtain rfl : place = .inside := hr
  have hvalue : 16 * (16 * (16 * (16 * 0 + hexValue '0') + hexValue '0')
      + hexValue (hexDigit (n / 16))) + hexValue (hexDigit n) = n := by
    rw [hexValue_hexDigit, hexValue_hexDigit, show hexValue '0' = 0 by decide]
    omega
  show keep _ (Char.ofNat (16 * (16 * (16 * (16 * 0 + hexValue '0') + hexValue '0')
    + hexValue (hexDigit (n / 16))) + hexValue (hexDigit n))) = _
  rw [hvalue]
  rfl

/-- An escaped character is read as itself. -/
theorem run_escapedChar (hr : r.place = .inside) (c : Char) :
    r.run (escapedChar c) = r.keep c := by
  have hcode := run_code hr c.toNat
  obtain ⟨closed, opened, text, place⟩ := r
  obtain rfl : place = .inside := hr
  unfold escapedChar
  split
  case h_8 hquote hslash _ _ _ _ _ =>
    split
    · rw [hcode (by omega), Char.ofNat_toNat]
    · show (if c = '"' then _ else if c = '\\' then _ else keep _ c) = _
      rw [if_neg hquote, if_neg hslash]
  all_goals rfl

theorem run_escaped (cs : List Char) : ∀ r : Reader, r.place = .inside →
    r.run (cs.flatMap escapedChar) = { r with text := r.text ++ cs } := by
  induction cs with
  | nil =>
      intro r _
      simp [run]
  | cons c cs ih =>
      intro r hr
      rw [List.flatMap_cons, run_append, run_escapedChar hr, ih _ rfl]
      simp [keep, hr]

/-- A written string is read as its text. -/
theorem run_jsonString (hr : r.place = .outside) (s : String) :
    r.run (jsonString s).toList = { r with text := s.toList } := by
  have hopen : r.next '"' = { r with text := [], place := .inside } := by simp [next, hr, outside]
  rw [jsonString, String.toList_ofList, List.cons_append, run_cons, hopen, run_append,
    run_escaped _ _ rfl]
  simp [run, next, hr]

end Reader

/-! ### What a text holds -/

theorem extend_nil (opened : List (List String)) : extend [] opened = opened := by
  cases opened with
  | nil => rfl
  | cons inner opened => rw [extend, List.append_nil]

theorem extend_extend (us vs : List String) (opened : List (List String)) :
    extend vs (extend us opened) = extend (us ++ vs) opened := by
  cases opened with
  | nil => rfl
  | cons inner opened => rw [extend, extend, extend, List.append_assoc]

/-- From wherever outside strings the reader starts, it comes out of the text outside
strings again, with `keys` for the innermost object and with the keys of some whole
objects. -/
def Holds (cs : List Char) (keys : List String) (objects : List (List String)) : Prop :=
  ∀ r : Reader, r.place = .outside →
    ∃ text, r.run cs = ⟨r.closed ++ objects, extend keys r.opened, text, .outside⟩

variable {us vs cs : List Char} {keys keys' : List String} {whole whole' : List (List String)}

theorem Holds.append (hus : Holds us keys whole) (hvs : Holds vs keys' whole') :
    Holds (us ++ vs) (keys ++ keys') (whole ++ whole') := by
  intro r hr
  obtain ⟨text, hrun⟩ := hus r hr
  obtain ⟨text', hrun'⟩ := hvs _ (show (r.run us).place = .outside by rw [hrun])
  refine ⟨text', ?_⟩
  rw [Reader.run_append, hrun', hrun]
  simp only [extend_extend, List.append_assoc]

/-- There are no braces, colons and quotation marks in the text. -/
def IsPlain (cs : List Char) : Prop := ∀ c ∈ cs, c ∉ ['"', '{', '}', ':']

instance (cs : List Char) : Decidable (IsPlain cs) := List.decidableBAll _ cs

theorem isPlain_of_isNumberText (h : IsNumberText cs) : IsPlain cs := by
  intro c hc hmark
  have hmarks : ['"', '{', '}', ':'].all (fun m => !isNumberChar m) = true := by decide
  have hnot := List.all_eq_true.mp hmarks c hmark
  rw [h c hc] at hnot
  cases hnot

theorem holds_plain (h : IsPlain cs) : Holds cs [] [] := by
  intro r hr
  have hrun : r.run cs = r := by
    induction cs with
    | nil => rfl
    | cons c cs ih =>
        obtain ⟨hc, hcs⟩ := List.forall_mem_cons.mp h
        simp only [List.mem_cons, List.not_mem_nil, or_false, not_or] at hc
        have hnext : r.next c = r := by simp [Reader.next, hr, Reader.outside, hc]
        rw [Reader.run_cons, hnext, ih hcs]
  refine ⟨r.text, ?_⟩
  rw [hrun, List.append_nil, extend_nil, ← hr]

theorem holds_string (s : String) : Holds (jsonString s).toList [] [] := by
  intro r hr
  refine ⟨s.toList, ?_⟩
  rw [Reader.run_jsonString hr, List.append_nil, extend_nil, ← hr]

/-- A member is a key and what its value holds. -/
theorem holds_member (name : String) (h : Holds cs [] whole) :
    Holds ((jsonString name).toList ++ [':', ' '] ++ cs) [name] whole := by
  have hkey : Holds ((jsonString name).toList ++ [':', ' ']) [name] [] := by
    intro r hr
    refine ⟨name.toList, ?_⟩
    rw [Reader.run_append, Reader.run_jsonString hr]
    simp [Reader.run, Reader.next, hr, Reader.outside]
  exact hkey.append h

/-- Between braces the keys make an object of their own. -/
theorem holds_object (h : Holds cs keys whole) :
    Holds (['{'] ++ cs ++ ['}']) [] (whole ++ [keys]) := by
  intro r hr
  have hopen : r.run ['{'] = { r with opened := [] :: r.opened } := by
    simp [Reader.run, Reader.next, hr, Reader.outside]
  obtain ⟨text, hrun⟩ := h { r with opened := [] :: r.opened } hr
  refine ⟨text, ?_⟩
  rw [Reader.run_append, Reader.run_append, hopen, hrun, extend_nil, ← List.append_assoc]
  rfl

/-! ### Written values -/

theorem isPlain_append (hus : IsPlain us) (hvs : IsPlain vs) : IsPlain (us ++ vs) :=
  List.forall_mem_append.mpr ⟨hus, hvs⟩

theorem isPlain_lineBreak (depth : Nat) : IsPlain (lineBreak depth).toList := by
  have hspaces : ∀ n, IsPlain (("".pushn ' ' n).toList) := by
    intro n
    induction n with
    | zero => decide
    | succ n ih =>
        show IsPlain (("".pushn ' ' n).push ' ').toList
        rw [String.toList_push]
        exact isPlain_append ih (by decide)
  rw [lineBreak, String.toList_append]
  exact isPlain_append (by decide) (hspaces _)

/-- Between the brackets stand the members, divided by what means nothing to the reader. -/
theorem toList_indented (opening closing : String) (depth : Nat) (ms : List String) :
    ∃ before between behind, IsPlain before ∧ IsPlain between ∧ IsPlain behind ∧
      (indented opening closing depth ms).toList = opening.toList ++
        (before ++ between.intercalate (ms.map String.toList) ++ behind) ++ closing.toList := by
  cases ms with
  | nil =>
      refine ⟨[], [], [], by decide, by decide, by decide, ?_⟩
      simp [indented]
  | cons m ms =>
      refine ⟨_, _, _, isPlain_lineBreak (depth + 1),
        isPlain_append (show IsPlain [','] by decide) (isPlain_lineBreak (depth + 1)),
        isPlain_lineBreak depth, ?_⟩
      simp [indented, String.toList_intercalate]

/-- What divides the members adds nothing to what they hold. -/
theorem Holds.intercalate {between : List Char} {ms : List (List Char)} (h : Holds us keys whole)
    (hbetween : IsPlain between) (hms : Holds (between.intercalate ms) keys' whole') :
    Holds (between.intercalate (us :: ms)) (keys ++ keys') (whole ++ whole') := by
  cases ms with
  | nil =>
      rw [List.intercalate_singleton, ← List.append_nil us]
      exact h.append hms
  | cons m ms =>
      have hwhole := (h.append (holds_plain hbetween)).append hms
      rw [List.append_nil, List.append_nil] at hwhole
      rw [List.intercalate_cons_cons]
      exact hwhole

mutual

/-- A written value holds one object for each record in it. -/
theorem holds_prettyJson : ∀ (v : Value) (depth : Nat),
    Holds (prettyJson depth v).toList [] v.recordNames
  | record fields, depth => by
      obtain ⟨before, between, behind, hbefore, hbetween, hbehind, htext⟩ :=
        toList_indented "\x7b" "\x7d" depth (prettyFields (depth + 1) fields)
      have hmembers := holds_prettyFields fields (depth + 1) hbetween
      have hbody := ((holds_plain hbefore).append hmembers).append (holds_plain hbehind)
      simp only [List.nil_append, List.append_nil] at hbody
      show Holds (indented _ _ _ _).toList _ _
      rw [htext]
      exact holds_object hbody
  | list items, depth => by
      obtain ⟨before, between, behind, hbefore, hbetween, hbehind, htext⟩ :=
        toList_indented "[" "]" depth (prettyItems (depth + 1) items)
      have hmembers := holds_prettyItems items (depth + 1) hbetween
      have hbody := ((holds_plain hbefore).append hmembers).append (holds_plain hbehind)
      have hopen : Holds "[".toList [] [] := holds_plain (by decide)
      have hclose : Holds "]".toList [] [] := holds_plain (by decide)
      have hwhole := (hopen.append hbody).append hclose
      simp only [List.nil_append, List.append_nil] at hwhole
      show Holds (indented _ _ _ _).toList _ _
      rw [htext]
      exact hwhole
  | .null, _ => holds_plain (show IsPlain "null".toList by decide)
  | .bool b, _ =>
      holds_plain (show IsPlain (if b then "true" else "false").toList by cases b <;> decide)
  | .int i, _ => holds_plain (isPlain_of_isNumberText (Number.isNumberText_int i.toInt))
  | .float x, _ => holds_plain (isPlain_of_isNumberText (isNumberText_jsonFloat x))
  | .str s, _ => holds_string s

theorem holds_prettyFields : ∀ (fields : List (String × Value)) (depth : Nat)
    {between : List Char}, IsPlain between →
    Holds (between.intercalate ((prettyFields depth fields).map String.toList))
      (Fields.names fields) (recordNamesOfFields fields)
  | [], _, _, _ => holds_plain (List.forall_mem_nil _)
  | (name, v) :: fields, depth, between, hbetween => by
      have hmember := holds_member name (holds_prettyJson v depth)
      have hrest := holds_prettyFields fields depth hbetween
      have htext : (jsonString name ++ ": " ++ prettyJson depth v).toList
          = (jsonString name).toList ++ [':', ' '] ++ (prettyJson depth v).toList := by
        rw [String.toList_append, String.toList_append]
        rfl
      rw [← htext] at hmember
      exact hmember.intercalate hbetween hrest

theorem holds_prettyItems : ∀ (items : List Value) (depth : Nat)
    {between : List Char}, IsPlain between →
    Holds (between.intercalate ((prettyItems depth items).map String.toList))
      [] (recordNamesOfItems items)
  | [], _, _, _ => holds_plain (List.forall_mem_nil _)
  | v :: items, depth, _, hbetween =>
      (holds_prettyJson v depth).intercalate hbetween (holds_prettyItems items depth hbetween)

end

/-- **The keys of written objects are the names of the records**, one object for each. -/
theorem objects_prettyJson (depth : Nat) (v : Value) :
    objects (prettyJson depth v).toList = v.recordNames := by
  obtain ⟨text, hrun⟩ := holds_prettyJson v depth Reader.start rfl
  rw [objects, hrun]
  rfl

/-- Marks inside strings and in front of them are told apart, and inner objects come first. -/
example : objects "\x7b \"a\\\"\x7b\" : [\x7b\"\\u0042\":\":\"\x7d], \"c\":1\x7d".toList
    = [["B"], ["a\"\x7b", "c"]] := by decide

end Json

end LambdaShell
