/-
Writing tokens down.

Tokens that are spelled one by one, with a space between them, are read back as the same
tokens.  The space is all that is needed: a word, a number or a symbol is as long as it can
be, and none of them can be any longer than up to the next space.
-/
import LambdaShell.Proofs.Expr.Lexing

namespace LambdaShell

open Lexer

/-! ### Spellings -/

/-- A text as it stands between quotation marks. -/
def escape : List Char → List Char
  | [] => []
  | c :: cs => if c = '\\' ∨ c = '"' then '\\' :: c :: escape cs else c :: escape cs

/-- How a token is written. -/
def Token.spelling : Token → List Char
  | .str s => '"' :: (escape s.toList ++ ['"'])
  | t => t.text.toList

/-- A letter or an underscore, then letters, digits and underscores. -/
def isWordShaped : List Char → Bool
  | [] => false
  | c :: cs => isNameStart c && cs.all isNameChar

/-- The text is shaped like a word, and it is no keyword. -/
structure IsName (n : String) : Prop where
  shape : isWordShaped n.toList = true
  free : Keyword.ofWord? n = none

instance (n : String) : Decidable (IsName n) :=
  decidable_of_iff (isWordShaped n.toList = true ∧ Keyword.ofWord? n = none)
    ⟨fun h => ⟨h.1, h.2⟩, fun h => ⟨h.shape, h.free⟩⟩

/-- The token can be written down: it is no decimal, not negative, and its name is one. -/
def Token.Writable : Token → Prop
  | .float _ => False
  | .int i => 0 ≤ i.toInt
  | .name n => IsName n
  | _ => True

/-- All of the tokens can be written. -/
def AllWritable (ts : List Token) : Prop := ∀ t ∈ ts, t.Writable

/-- Tokens with a space between them. -/
def spell : List Token → List Char
  | [] => []
  | [t] => t.spelling
  | t :: u :: ts => t.spelling ++ ' ' :: spell (u :: ts)

/-- The text ends here or goes on with a space. -/
def Divided (rest : List Char) : Prop := rest = [] ∨ ∃ us, rest = ' ' :: us

/-- In front of the end or of a space, the token is read. -/
def Token.IsRead (t : Token) : Prop :=
  ∃ c more, t.spelling = c :: more ∧ isGap c = false ∧
    ∀ rest, Divided rest → scan c (more ++ rest) = ⟨.ok t, c :: more⟩

/-! ### Tokens that can be written -/

@[simp] theorem allWritable_nil : AllWritable [] := List.forall_mem_nil _

@[simp] theorem allWritable_cons {t : Token} {ts : List Token} :
    AllWritable (t :: ts) ↔ t.Writable ∧ AllWritable ts := List.forall_mem_cons

@[simp] theorem allWritable_append {ts us : List Token} :
    AllWritable (ts ++ us) ↔ AllWritable ts ∧ AllWritable us := List.forall_mem_append

@[simp] theorem writable_symbol (s : Symbol) : (Token.symbol s).Writable := trivial

@[simp] theorem writable_keyword (k : Keyword) : (Token.keyword k).Writable := trivial

@[simp] theorem writable_name {n : String} : (Token.name n).Writable ↔ IsName n := Iff.rfl

/-! ### One token -/

theorem takeWhile_divided {p : Char → Bool} (hp : p ' ' = false) {cs rest : List Char}
    (hcs : ∀ c ∈ cs, p c = true) (hrest : Divided rest) : (cs ++ rest).takeWhile p = cs := by
  rw [List.takeWhile_append_of_pos hcs]
  rcases hrest with rfl | ⟨us, rfl⟩
  · exact List.append_nil cs
  · rw [List.takeWhile_cons_of_neg (by rw [hp]; exact Bool.false_ne_true), List.append_nil]

theorem not_isGap_of_isNameChar {c : Char} (h : isNameChar c = true) : isGap c = false := by
  refine Bool.eq_false_iff.mpr fun hgap => ?_
  have hblank := not_isBlank_of_isNameChar h
  rw [isBlank_of_isGap hgap] at hblank
  cases hblank

/-! ### Digits -/

theorem isDigit_of_mem_toDigits {n : Nat} : ∀ c ∈ Nat.toDigits 10 n, c.isDigit = true :=
  fun _ hc => Nat.isDigit_of_mem_toDigits (by decide) (by decide) hc

theorem Number.natural?_toDigits (n : Nat) :
    Number.natural? (Nat.toDigits 10 n) = some n := by
  rw [Number.natural?,
    if_pos ⟨Nat.toDigits_ne_nil, List.all_eq_true.mpr isDigit_of_mem_toDigits⟩,
    Nat.ofDigitChars_toDigits (by decide) (by decide)]

theorem Number.int64?_toInt (i : Int64) : Number.int64? i.toInt = some i := by
  have hle := i.le_toInt
  have hlt := i.toInt_lt
  rw [Number.int64?, if_pos ⟨by omega, by omega⟩, Int64.ofInt_toInt]

/-! ### Tokens -/

namespace Token

theorem isRead_symbol (s : Symbol) : (Token.symbol s).IsRead := by
  cases s <;> refine ⟨_, _, rfl, by decide, ?_⟩ <;>
    · rintro rest (rfl | ⟨us, rfl⟩) <;> rfl

theorem isRead_word {w : String} {t : Token} (ht : wordToken w = t)
    (hspelling : t.spelling = w.toList)
    (hw : isWordShaped w.toList = true) : t.IsRead := by
  cases hchars : w.toList with
  | nil =>
      rw [hchars] at hw
      cases hw
  | cons c cs =>
      rw [hchars, isWordShaped, Bool.and_eq_true] at hw
      have hall : ∀ d ∈ c :: cs, isNameChar d = true :=
        List.forall_mem_cons.mpr ⟨isNameChar_of_isNameStart hw.1, List.all_eq_true.mp hw.2⟩
      refine ⟨c, cs, by rw [hspelling, hchars],
        not_isGap_of_isNameChar (hall c List.mem_cons_self), fun rest hrest => ?_⟩
      have htake := takeWhile_divided (by decide) hall hrest
      rw [scan, if_pos hw.1, scanWord, ← List.cons_append, htake, ← hchars,
        String.ofList_toList, ht]

theorem isRead_name {n : String} (h : IsName n) : (Token.name n).IsRead := by
  refine isRead_word (w := n) ?_ rfl h.shape
  rw [wordToken, h.free]

theorem isRead_keyword (k : Keyword) : (Token.keyword k).IsRead := by
  refine isRead_word (w := k.text) ?_ rfl ?_
  · cases k <;> rfl
  · cases k <;> rfl

/-! A whole number ends where its digits do, since a space starts no fraction, no exponent and
no letter behind it. -/

theorem spelling_int {i : Int64} (h : 0 ≤ i.toInt) :
    (Token.int i).spelling = Nat.toDigits 10 i.toInt.toNat := by
  show (toString i.toInt).toList = _
  obtain ⟨n, hn⟩ := Int.eq_ofNat_of_zero_le h
  rw [hn]
  exact String.toList_ofList

theorem integer?_eq {c : Char} {cs : List Char} (hc : c.isDigit = true) :
    Number.integer? (c :: cs) = (Number.natural? (c :: cs)).map fun n => (n : Int) := by
  unfold Number.integer?
  split
  · rename_i heq
    cases heq
    cases hc
  · rename_i heq
    cases heq
    cases hc
  · rfl

theorem readInt64?_toDigits {i : Int64} (h : 0 ≤ i.toInt) :
    Number.readInt64? (Nat.toDigits 10 i.toInt.toNat) = some i := by
  have hinteger : Number.integer? (Nat.toDigits 10 i.toInt.toNat) = some i.toInt := by
    cases hcs : Nat.toDigits 10 i.toInt.toNat with
    | nil => exact absurd hcs Nat.toDigits_ne_nil
    | cons c cs =>
        rw [integer?_eq (isDigit_of_mem_toDigits c (hcs ▸ List.mem_cons_self)), ← hcs,
          Number.natural?_toDigits]
        exact congrArg some (Int.toNat_of_nonneg h)
  rw [Number.readInt64?, hinteger]
  exact Number.int64?_toInt i

theorem not_isNameStart_of_isDigit {c : Char} (h : c.isDigit = true) : isNameStart c ≠ true := by
  intro hstart
  have hletter : isNameStart c = (decide (c.val ≥ 65 ∧ c.val ≤ 90) || c.val ≥ 97 && c.val ≤ 122
      || c == '_') := rfl
  simp only [hletter, Char.isDigit, Bool.or_eq_true, Bool.and_eq_true, decide_eq_true_eq,
    ge_iff_le, UInt32.le_iff_toNat_le, beq_iff_eq] at h hstart
  rcases hstart with (hupper | hlower) | rfl
  · have hle := Nat.le_trans hupper.1 h.2
    exact absurd hle (by decide)
  · have hle := Nat.le_trans hlower.1 h.2
    exact absurd hle (by decide)
  · exact absurd h.2 (by decide)

theorem isRead_int {i : Int64} (h : 0 ≤ i.toInt) : (Token.int i).IsRead := by
  have hdigits : ∀ c ∈ Nat.toDigits 10 i.toInt.toNat, c.isDigit = true := isDigit_of_mem_toDigits
  cases hcs : Nat.toDigits 10 i.toInt.toNat with
  | nil => exact absurd hcs Nat.toDigits_ne_nil
  | cons c cs =>
      rw [hcs] at hdigits
      have hc : c.isDigit = true := hdigits c List.mem_cons_self
      have hchar := isNameChar_of_isDigit hc
      refine ⟨c, cs, by rw [spelling_int h, hcs], not_isGap_of_isNameChar hchar,
        fun rest hrest => ?_⟩
      have hstart : isNameStart c ≠ true := not_isNameStart_of_isDigit hc
      have hwhole : Number.leadingDigits (c :: (cs ++ rest)) = c :: cs :=
        takeWhile_divided (by decide) hdigits hrest
      have hnext : (c :: (cs ++ rest)).drop (c :: cs).length = rest := List.drop_left
      have hread : Number.readInt64? (c :: cs) = some i := by
        rw [← hcs]
        exact readInt64?_toDigits h
      rw [scan, if_neg hstart, if_pos hc, scanNumber, hwhole]
      dsimp only
      rw [hnext]
      have hfraction : leadingFraction rest = [] := by
        rcases hrest with rfl | ⟨us, rfl⟩ <;> rfl
      rw [hfraction, if_pos rfl, hnext]
      have hexponent : Number.leadingExponent? rest = none := by
        rcases hrest with rfl | ⟨us, rfl⟩ <;> rfl
      have hletter : ∀ p : Char → Bool, p ' ' = false → ¬ rest.head?.any p = true := by
        intro p hp
        rcases hrest with rfl | ⟨us, rfl⟩
        · exact Bool.false_ne_true
        · rw [List.head?_cons, Option.any_some, hp]
          exact Bool.false_ne_true
      rw [hexponent]
      dsimp only
      rw [hnext, if_neg (hletter _ (by decide)), if_neg (hletter _ (by decide)), hread]
      rfl

theorem unescape_escape (cs : List Char) : unescape (escape cs) = some cs := by
  induction cs with
  | nil => rfl
  | cons c cs ih =>
      rw [escape]
      by_cases hc : c = '\\' ∨ c = '"'
      · rw [if_pos hc]
        rcases hc with rfl | rfl
        · show (unescape (escape cs)).map ('\\' :: ·) = _
          rw [ih]
          rfl
        · show (unescape (escape cs)).map ('"' :: ·) = _
          rw [ih]
          rfl
      · have hne : c ≠ '\\' := fun h => hc (Or.inl h)
        rw [if_neg hc, unescape]
        · rw [ih]
          rfl
        · intro d ds heq
          exact absurd heq hne
        · intro heq
          exact absurd heq hne

theorem stringBody_escape (cs rest : List Char) :
    stringBody '"' (escape cs ++ '"' :: rest) = (escape cs, true) := by
  induction cs with
  | nil => rfl
  | cons c cs ih =>
      rw [escape]
      by_cases hc : c = '\\' ∨ c = '"'
      · have hfeed : c ≠ '\n' := by rcases hc with rfl | rfl <;> decide
        rw [if_pos hc, List.cons_append, List.cons_append, stringBody, if_neg hfeed, ih]
      · have hquote : c ≠ '"' := fun h => hc (Or.inr h)
        have hslash : c ≠ '\\' := fun h => hc (Or.inl h)
        rw [if_neg hc, List.cons_append, stringBody, if_neg hquote, if_neg hslash, ih]
        intro d ds heq
        exact absurd heq hslash

theorem isRead_str (s : String) : (Token.str s).IsRead := by
  refine ⟨'"', escape s.toList ++ ['"'], rfl, by decide, fun rest hrest => ?_⟩
  have hbody := stringBody_escape s.toList rest
  rw [List.append_assoc]
  show scanString '"' (escape s.toList ++ '"' :: rest) = _
  unfold scanString
  rw [hbody]
  dsimp only
  rw [if_pos rfl, if_pos rfl, unescape_escape]
  dsimp only
  rw [String.ofList_toList]
  rfl

/-- **What is spelled is read**: a token that can be written down is read from its spelling,
up to the end of the text or to a space. -/
theorem Writable.isRead {t : Token} (h : t.Writable) : t.IsRead := by
  cases t with
  | symbol s => exact isRead_symbol s
  | keyword k => exact isRead_keyword k
  | int i => exact isRead_int h
  | float x => exact absurd h id
  | str s => exact isRead_str s
  | name n => exact isRead_name h

end Token

/-! ### Rows of tokens -/

theorem lexed_spell {ts : List Token} (h : AllWritable ts) :
    Lexed (spell ts) (ts.map fun t => (t.spelling, t)) := by
  induction ts with
  | nil => exact .nil
  | cons t ts ih =>
      obtain ⟨ht, hts⟩ := allWritable_cons.mp h
      obtain ⟨c, more, hspelling, hc, hscan⟩ := ht.isRead
      rw [List.map_cons, hspelling]
      cases ts with
      | nil =>
          have hread := Lexed.token hc (hscan [] (Or.inl rfl)) .nil
          rw [List.append_nil] at hread
          rw [spell, hspelling]
          exact hread
      | cons u ts =>
          rw [spell, hspelling]
          exact .token hc (hscan _ (Or.inr ⟨_, rfl⟩)) (.gap (by decide) (ih hts))

/-- The tokens of a text that was spelled are the tokens it was spelled from. -/
theorem tokenize_spell {ts : List Token} (h : AllWritable ts) :
    ∃ ls, tokenize (spell ts) = .ok ls ∧ ls.map (·.token) = ts := by
  obtain ⟨ls, hls, htokens⟩ := (lexed_spell h).tokenize_eq
  refine ⟨ls, hls, ?_⟩
  rw [htokens, List.map_map]
  exact List.map_id ts

end LambdaShell
