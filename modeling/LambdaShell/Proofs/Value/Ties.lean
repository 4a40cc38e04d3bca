/-
How far the order of values respects their equality.

Equal numbers are the same double, but for zeros of opposite sign, and the order takes
numbers for doubles.  Records and lists it takes for the texts that show them, and there equal
numbers can differ: a double is shown by the shortest text that reads back as it, an integer
by all its digits.  Everything else that equal values hold is shown alike.  Since the text of
a number ends where a comma, a bracket or a space follows, texts that differ at one place of
two equal values differ as a whole, and the values are ordered.

An integer below `2 ^ 53` in size is shown like its double, so this takes a larger one, or
zeros of opposite sign.
-/
import Mathlib
import LambdaShell.Proofs.Export.Json
import LambdaShell.Proofs.Number.WholeText
import LambdaShell.Proofs.Value.Equality
import LambdaShell.Proofs.Value.Order

namespace LambdaShell

/-! ### Texts of numbers and what follows them -/

/-- The text does not go on with a character that stands in numbers. -/
def Stops (cs : List Char) : Prop := ∀ c ∈ cs.head?, isNumberChar c = false

/-- The text of a number ends where no character of a number follows. -/
theorem append_eq_append_iff_of_stops {us vs r s : List Char} (hus : IsNumberText us)
    (hvs : IsNumberText vs) (hr : Stops r) (hs : Stops s) :
    us ++ r = vs ++ s ↔ us = vs ∧ r = s := by
  have hfront : ∀ {us r : List Char}, IsNumberText us → Stops r →
      (us ++ r).takeWhile isNumberChar = us := by
    intro us r hus hr
    rw [List.takeWhile_append_of_pos hus]
    cases r with
    | nil => exact List.append_nil us
    | cons c r =>
        rw [List.takeWhile_cons_of_neg (by rw [hr c rfl]; exact Bool.false_ne_true)]
        exact List.append_nil us
  constructor
  · intro h
    have hsame := congrArg (List.takeWhile isNumberChar) h
    rw [hfront hus hr, hfront hvs hs] at hsame
    subst hsame
    exact ⟨rfl, List.append_cancel_left h⟩
  · rintro ⟨rfl, rfl⟩
    rfl

namespace Value

/-! ### Numbers that are shown differently -/

/-- At one place two values hold what the relation holds between. -/
inductive AtOnePlace (R : Value → Value → Prop) : Value → Value → Prop where
  | here {v w : Value} (h : R v w) : AtOnePlace R v w
  | field {v w : Value} {m n : String} {a b : List (String × Value)}
      (hmem : ((m, v), (n, w)) ∈ a.zip b) (h : AtOnePlace R v w) :
      AtOnePlace R (record a) (record b)
  | item {v w : Value} {a b : List Value} (hmem : (v, w) ∈ a.zip b) (h : AtOnePlace R v w) :
      AtOnePlace R (list a) (list b)

/-- At one place the values hold numbers that are shown differently. -/
abbrev ShownApart : Value → Value → Prop :=
  AtOnePlace fun v w => v.IsNumber ∧ w.IsNumber ∧ v.display ≠ w.display

theorem shownApart_number {v w : Value} (hv : v.IsNumber) (hw : w.IsNumber) :
    ShownApart v w ↔ v.display ≠ w.display := by
  refine ⟨fun h => ?_, fun h => .here ⟨hv, hw, h⟩⟩
  cases h with
  | here h => exact h.2.2
  | field => obtain ⟨x, hx⟩ := hv; cases hx
  | item => obtain ⟨x, hx⟩ := hv; cases hx

theorem shownApart_record {a b : List (String × Value)} : ShownApart (record a) (record b) ↔
    ∃ p ∈ a.zip b, ShownApart p.1.2 p.2.2 := by
  constructor
  · intro h
    cases h with
    | here h => obtain ⟨⟨x, hx⟩, -⟩ := h; cases hx
    | field hmem h => exact ⟨_, hmem, h⟩
  · rintro ⟨⟨⟨m, v⟩, ⟨n, w⟩⟩, hmem, h⟩
    exact .field hmem h

theorem shownApart_list {a b : List Value} : ShownApart (list a) (list b) ↔
    ∃ p ∈ a.zip b, ShownApart p.1 p.2 := by
  constructor
  · intro h
    cases h with
    | here h => obtain ⟨⟨x, hx⟩, -⟩ := h; cases hx
    | item hmem h => exact ⟨_, hmem, h⟩
  · rintro ⟨⟨v, w⟩, hmem, h⟩
    exact .item hmem h

theorem isNumberText_display {v : Value} (h : v.IsNumber) : IsNumberText v.display.toList := by
  obtain ⟨x, hx⟩ := h
  cases v with
  | int i => exact Number.isNumberText_int _
  | float x => exact Number.isNumberText_text (by decide) x
  | _ => cases hx

/-! ### Texts of equal values -/

/-- Texts with a comma in front of each. -/
def continued : List String → List Char
  | [] => []
  | s :: ss => ',' :: ' ' :: (s.toList ++ continued ss)

theorem toList_intercalate_cons (s : String) (ss : List String) :
    (", ".intercalate (s :: ss)).toList = s.toList ++ continued ss := by
  induction ss generalizing s with
  | nil => simp [continued]
  | cons t ss ih =>
      have htail : ", ".toList.intercalate (t.toList :: ss.map String.toList)
          = t.toList ++ continued ss := by
        rw [← ih t, String.toList_intercalate]
        rfl
      rw [String.toList_intercalate, List.map_cons, List.map_cons, List.intercalate_cons_cons,
        htail, List.append_assoc]
      rfl

theorem toList_bracketed (opening closing s : String) (ss : List String) :
    (bracketed opening closing (s :: ss)).toList
      = opening.toList ++ (s.toList ++ (continued ss ++ closing.toList)) := by
  rw [bracketed, String.toList_append, String.toList_append, toList_intercalate_cons,
    List.append_assoc, List.append_assoc]

/-- Records that both have fields, or both have none, are shown alike if their fields are. -/
theorem display_record_append_iff {a b : List (String × Value)} {r s : List Char}
    (h : eqFields a b = true) :
    (record a).display.toList ++ r = (record b).display.toList ++ s ↔
      continued (displayFields a) ++ ' ' :: '\x7d' :: r
        = continued (displayFields b) ++ ' ' :: '\x7d' :: s := by
  cases a with
  | nil =>
      cases b with
      | nil => simp [display, displayFields, continued]
      | cons q b => cases h
  | cons p a =>
      cases b with
      | nil => cases h
      | cons q b =>
          simp [display, displayFields, toList_bracketed, continued]

/-- Lists that both have items, or both have none, are shown alike if their items are. -/
theorem display_list_append_iff {a b : List Value} {r s : List Char} (h : eqItems a b = true) :
    (list a).display.toList ++ r = (list b).display.toList ++ s ↔
      continued (displayItems a) ++ ']' :: r = continued (displayItems b) ++ ']' :: s := by
  cases a with
  | nil =>
      cases b with
      | nil => simp [display, displayItems, bracketed, continued]
      | cons w b => cases h
  | cons v a =>
      cases b with
      | nil => cases h
      | cons w b => simp [display, displayItems, toList_bracketed, continued]

theorem stops_continued (ss : List String) {c : Char} {cs : List Char}
    (hc : isNumberChar c = false) : Stops (continued ss ++ c :: cs) := by
  intro d hd
  cases ss with
  | nil =>
      cases hd
      exact hc
  | cons s ss =>
      cases hd
      rfl

theorem display_append_iff_of_isNumber {v w : Value} {r s : List Char} (hv : v.IsNumber)
    (hw : w.IsNumber) (hr : Stops r) (hs : Stops s) :
    v.display.toList ++ r = w.display.toList ++ s ↔ ¬ ShownApart v w ∧ r = s := by
  rw [append_eq_append_iff_of_stops (isNumberText_display hv) (isNumberText_display hw) hr hs,
    shownApart_number hv hw, not_not, String.toList_inj]

/-- What is neither number nor record nor list has nothing in it that is shown apart. -/
theorem display_append_iff_self {v : Value} {r s : List Char} (hv : ¬ v.IsNumber)
    (hfields : ∀ a, v ≠ record a) (hitems : ∀ a, v ≠ list a) :
    v.display.toList ++ r = v.display.toList ++ s ↔ ¬ ShownApart v v ∧ r = s := by
  have hself : ¬ ShownApart v v := fun h => by
    cases h with
    | here h => exact hv h.1
    | field => exact hfields _ rfl
    | item => exact hitems _ rfl
  rw [List.append_cancel_left_eq, and_iff_right hself]

mutual

/-- The texts of equal values are the same, with whatever follows, if nothing in the values is
shown apart. -/
theorem display_append_iff : ∀ {v w : Value} {r s : List Char}, eq v w = true → Stops r →
    Stops s → (v.display.toList ++ r = w.display.toList ++ s ↔ ¬ ShownApart v w ∧ r = s)
  | null, null, _, _, _, _, _ => display_append_iff_self nofun nofun nofun
  | bool _, bool _, _, _, h, _, _ => by
      obtain rfl := beq_iff_eq.mp h
      exact display_append_iff_self nofun nofun nofun
  | str _, str _, _, _, h, _, _ => by
      obtain rfl := beq_iff_eq.mp h
      exact display_append_iff_self nofun nofun nofun
  | int _, int _, _, _, _, hr, hs => display_append_iff_of_isNumber ⟨_, rfl⟩ ⟨_, rfl⟩ hr hs
  | int _, float _, _, _, _, hr, hs => display_append_iff_of_isNumber ⟨_, rfl⟩ ⟨_, rfl⟩ hr hs
  | float _, int _, _, _, _, hr, hs => display_append_iff_of_isNumber ⟨_, rfl⟩ ⟨_, rfl⟩ hr hs
  | float _, float _, _, _, _, hr, hs => display_append_iff_of_isNumber ⟨_, rfl⟩ ⟨_, rfl⟩ hr hs
  | record _, record _, _, _, h, _, _ => by
      rw [display_record_append_iff h, continuedFields_append_iff h, shownApart_record,
        List.cons.injEq, and_iff_right rfl]
      simp only [not_exists, not_and]
  | list _, list _, _, _, h, _, _ => by
      rw [display_list_append_iff h, continuedItems_append_iff h, shownApart_list]
      simp only [not_exists, not_and]

theorem continuedFields_append_iff : ∀ {a b : List (String × Value)} {r s : List Char},
    eqFields a b = true → (continued (displayFields a) ++ ' ' :: r
      = continued (displayFields b) ++ ' ' :: s
        ↔ (∀ p ∈ a.zip b, ¬ ShownApart p.1.2 p.2.2) ∧ r = s)
  | [], [], _, _, _ => by simp [displayFields, continued]
  | (m, v) :: a, (n, w) :: b, r, s, h => by
      rw [eqFields, Bool.and_eq_true, Bool.and_eq_true] at h
      obtain rfl := beq_iff_eq.mp h.1.1
      have hrest := continuedFields_append_iff (r := r) (s := s) h.2
      have hfirst := display_append_iff (r := continued (displayFields a) ++ ' ' :: r)
        (s := continued (displayFields b) ++ ' ' :: s) h.1.2 (stops_continued _ rfl)
        (stops_continued _ rfl)
      rw [List.zip_cons_cons, List.forall_mem_cons, and_assoc, ← hrest, ← hfirst]
      simp [displayFields, continued]

theorem continuedItems_append_iff : ∀ {a b : List Value} {r s : List Char},
    eqItems a b = true → (continued (displayItems a) ++ ']' :: r
      = continued (displayItems b) ++ ']' :: s ↔ (∀ p ∈ a.zip b, ¬ ShownApart p.1 p.2) ∧ r = s)
  | [], [], _, _, _ => by simp [displayItems, continued]
  | v :: a, w :: b, r, s, h => by
      rw [eqItems, Bool.and_eq_true] at h
      have hrest := continuedItems_append_iff (r := r) (s := s) h.2
      have hfirst := display_append_iff (r := continued (displayItems a) ++ ']' :: r)
        (s := continued (displayItems b) ++ ']' :: s) h.1 (stops_continued _ rfl)
        (stops_continued _ rfl)
      rw [List.zip_cons_cons, List.forall_mem_cons, and_assoc, ← hrest, ← hfirst]
      simp [displayItems, continued]

end

/-! ### Equal values -/

/-- The values are zeros of opposite sign, as doubles. -/
def OppositeZeros (v w : Value) : Prop :=
  ∃ x y, Eval.asFloat? v = some x ∧ Eval.asFloat? w = some y ∧ Number.OppositeZeros x y

/-- An integer of at least `2 ^ 53` in size, and the double that it is rounded to. -/
def RoundsTo (v w : Value) : Prop :=
  ∃ i : Int64, v = int i ∧ w = float (Number.ofInt64 i) ∧ 2 ^ 53 ≤ i.toInt.natAbs

/-- Zeros of opposite sign, or a large integer and its double, in either order. -/
def EqualUnlike (v w : Value) : Prop := OppositeZeros v w ∨ RoundsTo v w ∨ RoundsTo w v

/-- Equal numbers are the same double, or zeros of opposite sign. -/
theorem same_or_oppositeZeros {v w : Value} (hv : v.IsNumber) (h : eq v w = true) :
    (∃ x, Eval.asFloat? v = some x ∧ Eval.asFloat? w = some x) ∨ OppositeZeros v w := by
  have hdoubles : ∃ x y, Eval.asFloat? v = some x ∧ Eval.asFloat? w = some y ∧
      (x = y ∨ Number.OppositeZeros x y) := by
    cases v with
    | int i =>
        cases w with
        | int j => exact ⟨_, _, rfl, rfl, Or.inl (congrArg _ (beq_iff_eq.mp h))⟩
        | float y => exact ⟨_, _, rfl, rfl, Number.eq_or_oppositeZeros_of_beq h⟩
        | _ => cases h
    | float x =>
        cases w with
        | int j =>
            exact ⟨_, _, rfl, rfl, Number.eq_or_oppositeZeros_of_beq (Number.beq_symm h)⟩
        | float y => exact ⟨_, _, rfl, rfl, Number.eq_or_oppositeZeros_of_beq h⟩
        | _ => cases h
    | _ => obtain ⟨x, hx⟩ := hv; cases hx
  obtain ⟨x, y, hx, hy, rfl | hzeros⟩ := hdoubles
  · exact Or.inl ⟨x, hx, hy⟩
  · exact Or.inr ⟨x, y, hx, hy, hzeros⟩

/-- An integer that is shown differently from its double is large. -/
theorem roundsTo_of_display {i : Int64}
    (h : (int i).display ≠ (float (Number.ofInt64 i)).display) :
    RoundsTo (int i) (float (Number.ofInt64 i)) :=
  ⟨i, rfl, rfl, Nat.le_of_not_lt fun hsmall => h (Number.text_ofInt64 hsmall).symm⟩

/-- Equal numbers that are shown differently are zeros of opposite sign, or a large integer
and its double. -/
theorem equalUnlike_of_display {v w : Value} (hv : v.IsNumber) (h : eq v w = true)
    (hshown : v.display ≠ w.display) : EqualUnlike v w := by
  obtain ⟨x, hx, hy⟩ | hzeros := same_or_oppositeZeros hv h
  · refine Or.inr ?_
    cases v with
    | int i =>
        obtain rfl := Option.some.inj hx
        cases w with
        | int j =>
            obtain rfl : i = j := beq_iff_eq.mp h
            exact absurd rfl hshown
        | float y =>
            obtain rfl := Option.some.inj hy
            exact Or.inl (roundsTo_of_display hshown)
        | _ => cases hy
    | float y =>
        obtain rfl := Option.some.inj hx
        cases w with
        | int j =>
            obtain rfl := Option.some.inj hy
            exact Or.inr (roundsTo_of_display hshown.symm)
        | float z =>
            obtain rfl := Option.some.inj hy
            exact absurd rfl hshown
        | _ => cases hy
    | _ => cases hx
  · exact Or.inl hzeros

/-- What makes equal values look different is at one place in them. -/
theorem ShownApart.equalUnlike {v w : Value} (h : ShownApart v w) (heq : eq v w = true) :
    AtOnePlace EqualUnlike v w := by
  induction h with
  | here h => exact .here (equalUnlike_of_display h.1 heq h.2.2)
  | field hmem _ ih =>
      exact .field hmem (ih ((List.forall₂_iff_zip.mp (eqFields_iff.mp heq)).2 hmem).2)
  | item hmem _ ih =>
      exact .item hmem (ih ((List.forall₂_iff_zip.mp (eqItems_iff.mp heq)).2 hmem))

/-- Equal values are shown alike if nothing in them is shown apart. -/
theorem display_eq_iff {v w : Value} (h : eq v w = true) :
    v.display = w.display ↔ ¬ ShownApart v w := by
  have happend := @display_append_iff v w [] [] h nofun nofun
  rwa [List.append_nil, List.append_nil, String.toList_inj, and_iff_left rfl] at happend

/-- Equal values that are no numbers are a tie if they are shown alike. -/
theorem compare_eq_iff_display {v w : Value} (hv : ¬ v.IsNumber) (h : eq v w = true) :
    v.compare w = .eq ↔ v.display = w.display := by
  cases v with
  | null => cases w <;> first | exact iff_of_true rfl rfl | cases h
  | bool b =>
      cases w with
      | bool c =>
          obtain rfl : b = c := beq_iff_eq.mp h
          exact iff_of_true Std.ReflCmp.compare_self rfl
      | _ => cases h
  | str s =>
      cases w with
      | str t =>
          obtain rfl : s = t := beq_iff_eq.mp h
          exact iff_of_true Std.ReflCmp.compare_self rfl
      | _ => cases h
  | record a =>
      cases w with
      | record b => exact compare_eq_iff_eq
      | _ => cases h
  | list a =>
      cases w with
      | list b => exact compare_eq_iff_eq
      | _ => cases h
  | _ => exact absurd ⟨_, rfl⟩ hv

/-- **Equal values are ties in the order, up to what shows.**

Equal numbers are ties unless they are zeros of opposite sign.  Other equal values are ties
exactly if they do not hold, at one place, equal numbers that are shown differently: zeros of
opposite sign, or an integer of at least `2 ^ 53` in size and its double.  And no value comes
between two that are a tie. -/
theorem ties_of_eq (v w : Value) (h : (v == w) = true) :
    (v.IsNumber → ¬ OppositeZeros v w → v.compare w = .eq) ∧
      (¬ v.IsNumber → (v.compare w = .eq ↔ ¬ ShownApart v w)) ∧
      (ShownApart v w → AtOnePlace EqualUnlike v w) ∧
      (v.compare w = .eq → ∀ u, v.compare u = w.compare u) := by
  refine ⟨fun hv hzeros => ?_, fun hv => ?_, fun hapart => hapart.equalUnlike h,
    fun htie u => Std.TransCmp.congr_left htie⟩
  · obtain ⟨x, hx, hy⟩ := (same_or_oppositeZeros hv h).resolve_right hzeros
    rw [compare_of_asFloat? hx hy]
    exact Number.totalCompare_eq_iff.mpr rfl
  · rw [compare_eq_iff_display hv h, display_eq_iff h]

/-- A record with a seven in it as an integer and as a double, and lists that hold the first
integer without a double of its own and the double it is rounded to. -/
theorem sevens_tie_neighbours_apart :
    ((int 7 == float 7) = true ∧ (int 7).compare (float 7) = .eq) ∧
    ((record [("n", int 7)] == record [("n", float 7)]) = true ∧
      (record [("n", int 7)]).compare (record [("n", float 7)]) = .eq) ∧
    ((list [int 9007199254740993] == list [float 9007199254740992]) = true ∧
      (list [int 9007199254740993]).compare (list [float 9007199254740992]) ≠ .eq) := by
  have hnumbers : (int 7 == float 7) = true := by decide +kernel
  have hrecords : (record [("n", int 7)] == record [("n", float 7)]) = true := by decide +kernel
  have hlists : (list [int 9007199254740993] == list [float 9007199254740992]) = true := by
    decide +kernel
  have hsame : ¬ ShownApart (record [("n", int 7)]) (record [("n", float 7)]) := by
    rw [shownApart_record]
    rintro ⟨p, hp, happart⟩
    obtain rfl := List.mem_singleton.mp hp
    exact (shownApart_number ⟨_, rfl⟩ ⟨_, rfl⟩).mp happart (by decide +kernel)
  have hapart : ShownApart (list [int 9007199254740993]) (list [float 9007199254740992]) :=
    .item List.mem_cons_self (.here ⟨⟨_, rfl⟩, ⟨_, rfl⟩, by decide +kernel⟩)
  have hzeros : ¬ OppositeZeros (int 7) (float 7) := by
    rintro ⟨x, y, hx, -, hzero, -, -⟩
    obtain rfl := Option.some.inj hx
    exact absurd hzero (by decide +kernel)
  exact ⟨⟨hnumbers, (ties_of_eq _ _ hnumbers).1 ⟨_, rfl⟩ hzeros⟩,
    ⟨hrecords, ((ties_of_eq _ _ hrecords).2.1 nofun).mpr hsame⟩,
    ⟨hlists, fun htie => ((ties_of_eq _ _ hlists).2.1 nofun).mp htie hapart⟩⟩

/-- Equal lists are not always ties. -/
theorem neighbours_no_tie : ¬ ∀ v w : Value, (v == w) = true → v.compare w = .eq := by
  intro h
  have hlists : (list [int 9007199254740993] == list [float 9007199254740992]) = true := by
    decide +kernel
  have htie := h _ _ hlists
  exact absurd htie (by decide +kernel)

end Value

end LambdaShell
