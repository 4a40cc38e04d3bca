/-
What stands at the head of a sorted list.

One way to the least item is to go through the items once and keep the best; another is to
sort them and to look at the first.  Sorting is stable, and the first of a stable sort is the
leader of the items: before all that stood in front of it, or it would have stayed behind them,
and with nothing behind it that is before it.  So both ways lead to the same item where they go
by the same order.

They do so as long as null is not among the items and these are of one tier.  Sorting puts null
first, which the extremes take for a text, and it compares numbers and texts in one list, of
which the extremes pass over the texts.
-/
import Mathlib
import LambdaShell.Proofs.History
import LambdaShell.Proofs.Items.Extremes
import LambdaShell.Proofs.Items.LessThan

namespace LambdaShell

namespace Value

variable {v w : Value} {x y : Double}

theorem compare_of_number? (hv : v.number? = some x) (hw : w.number? = some y) :
    v.compare w = Number.totalCompare x y := by
  have hnull : ∀ {u : Value} {z}, u.number? = some z → u ≠ .null := by
    rintro u z hz rfl
    cases hz
  rw [compare_of_ne_null (hnull hv) (hnull hw), solidPlace, solidPlace, hv, hw]
  rfl

theorem compare_of_not_numeric (hv : v ≠ .null) (hw : w ≠ .null) (hv' : v.number? = none)
    (hw' : w.number? = none) : v.compare w = Ord.compare v.text w.text := by
  rw [compare_of_ne_null hv hw, solidPlace, solidPlace, hv', hw']
  rfl

/-- An item as it is reported where it is an extreme: a number as a double, and the rest as it
is. -/
def asExtreme (v : Value) : Value := v.number?.elim v .float

end Value

namespace Items

variable {k : Value → Value} {descending : Bool} {wanted : Ordering}
variable {items rest : List Value} {v : Value} {a b : Value × Nat}

/-! ### The head of a stable sort -/

/-- The side on which the first item of a sorted list is of the others. -/
def headSide (descending : Bool) : Ordering := if descending then .gt else .lt

theorem headSide_ne_eq (descending : Bool) : headSide descending ≠ .eq := by
  cases descending <;> decide

/-- An item that precedes one that stood before it is strictly on its side. -/
theorem Precedes.strictly (h : Precedes k descending a b) (hlt : b.2 < a.2) :
    (k a.1).compare (k b.1) = headSide descending := by
  have hordered := h.ordered
  have hstable : (k a.1).compare (k b.1) ≠ .eq := fun heq => absurd (h.stable heq) (by omega)
  cases descending <;> cases hcmp : (k a.1).compare (k b.1) <;> simp_all [headSide]

theorem Precedes.not_reverse (h : Precedes k descending a b) :
    (k b.1).compare (k a.1) ≠ headSide descending := by
  have hordered := compare_ne_swap.mp h.ordered
  cases descending <;> exact hordered

/-- Smaller numbers stand in front of a numbered item, and larger ones behind it. -/
theorem split_zipIdx (h : a ∈ items.zipIdx) : ∃ front back, items.zipIdx = front ++ a :: back ∧
    (∀ b ∈ front, b.2 < a.2) ∧ ∀ b ∈ back, a.2 < b.2 := by
  obtain ⟨front, back, hsplit⟩ := List.append_of_mem h
  have hnumbered := pairwise_zipIdx items
  rw [hsplit] at hnumbered
  obtain ⟨-, hback, hfront⟩ := List.pairwise_append.mp hnumbered
  refine ⟨front, back, hsplit, fun b hb => ?_, (List.pairwise_cons.mp hback).1⟩
  exact hfront b hb a List.mem_cons_self

/-- **The first of a stable sort is the leader of the items.** -/
theorem IsStableSort.leads (h : IsStableSort k descending items (v :: rest)) :
    Leads (fun u w => (k u).compare (k w) == headSide descending) items v := by
  obtain ⟨placed, hperm, hplaced, hpairwise⟩ := h
  cases placed with
  | nil => cases hplaced
  | cons p placed =>
      obtain ⟨rfl, -⟩ := List.cons.inj hplaced
      obtain ⟨front, back, hsplit, hfront, hback⟩ :=
        split_zipIdx (hperm.mem_iff.mp List.mem_cons_self)
      have hprecedes : ∀ q ∈ front ++ p :: back, q.2 ≠ p.2 → Precedes k descending p q := by
        intro q hq hne
        rw [← hsplit] at hq
        rcases List.mem_cons.mp (hperm.mem_iff.mpr hq) with rfl | hrest
        · exact absurd rfl hne
        · exact (List.pairwise_cons.mp hpairwise).1 q hrest
      refine ⟨front.map (·.1), back.map (·.1), ?_, ?_, ?_⟩
      · rw [← List.map_cons, ← List.map_append, ← hsplit]
        exact (List.zipIdx_map_fst 0 items).symm
      · refine List.forall_mem_map.mpr fun q hq => beq_iff_eq.mpr ?_
        have hlt : q.2 < p.2 := hfront q hq
        exact (hprecedes q (List.mem_append_left _ hq) hlt.ne).strictly hlt
      · refine List.forall_mem_map.mpr fun q hq => beq_eq_false_iff_ne.mpr ?_
        have hmem : q ∈ front ++ p :: back := List.mem_append_right _ (List.mem_cons_of_mem p hq)
        exact (hprecedes q hmem (hback q hq).ne').not_reverse

/-! ### Items of one tier -/

/-- The items are all numeric, or none is. -/
def OneTier (items : List Value) : Prop :=
  (∀ v ∈ items, v.isNumeric = true) ∨ ∀ v ∈ items, v.isNumeric = false

/-- Within a tier the leader by the order of values is an extreme. -/
theorem Leads.isExtreme (hnull : ∀ v ∈ items, v ≠ .null) (htier : OneTier items)
    (hwanted : wanted ≠ .eq) (h : Leads (fun v w => v.compare w == wanted) items v) :
    IsExtreme wanted items v.asExtreme := by
  have hmem : v ∈ items := h.mem
  rcases htier with hall | hnone
  · obtain ⟨x, hx⟩ := Option.isSome_iff_exists.mp (hall v hmem)
    have hextreme : v.asExtreme = .float x := by rw [Value.asExtreme, hx]; rfl
    rw [hextreme]
    refine isExtreme_float ⟨v, hmem, hx⟩ fun w hw y hy => ?_
    rw [byNumber, ← Value.compare_of_number? hy hx]
    exact h.not_before (isStrict_compare Value.compare hwanted) w hw
  · have hnumber : ∀ w ∈ items, w.number? = none := fun w hw =>
      Option.isNone_iff_eq_none.mp (by simpa [Value.isNumeric] using hnone w hw)
    have hextreme : v.asExtreme = v := by rw [Value.asExtreme, hnumber v hmem]; rfl
    rw [hextreme]
    refine Leads.isExtreme_byText (h.congr fun u hu w hw => ?_) hnone
    rw [byText, Value.compare_of_not_numeric (hnull u hu) (hnull w hw) (hnumber u hu)
      (hnumber w hw)]

/-- What is reported as an extreme is the head of the sorted items. -/
theorem IsStableSort.extreme_eq {sorted : List Value} (hnull : ∀ v ∈ items, v ≠ .null)
    (htier : OneTier items) (h : IsStableSort id descending items sorted) :
    extreme (headSide descending) items = (sorted.head?.getD .null).asExtreme := by
  cases sorted with
  | nil =>
      obtain rfl := h.perm.symm.eq_nil
      rfl
  | cons v rest =>
      have hside := headSide_ne_eq descending
      exact ((h.leads.isExtreme hnull htier hside).eq_extreme hside).symm

/-! ### Commands -/

/-- The line that sorts the items by themselves. -/
def sortLine (descending : Bool) : List Char :=
  (if descending then "sort desc" else "sort").toList

/-- The line that asks for the extreme at the head of the items so sorted. -/
def extremeLine (descending : Bool) : List Char :=
  (if descending then "max" else "min").toList

theorem run_extremeLine (dest : Destination) (t : Timeline) (descending : Bool) :
    t.run dest (extremeLine descending)
      = .ok (.item (extreme (headSide descending) t.current)) t := by
  cases descending with
  | true =>
      have hmax : Command.ofLine (extremeLine true) = .ok .max := by cbv
      rw [Timeline.run_of_ofLine hmax]
      rfl
  | false =>
      have hmin : Command.ofLine (extremeLine false) = .ok .min := by cbv
      rw [Timeline.run_of_ofLine hmin]
      rfl

theorem run_sortLine {dest : Destination} {t : Timeline} {sorted : List Value}
    (h : IsStableSort id descending t.current sorted) :
    t.run dest (sortLine descending) = .ok (.updated .applied) (t.push sorted) := by
  have hsort : Command.ofLine (sortLine descending) = .ok (.orderBy "x => x" descending) := by
    cases descending <;> cbv
  have hyields : (Command.orderBy "x => x" descending).Yields t.current sorted :=
    .orderBy compile_identity (h.orderBy_eq fun v _ => identity_call v)
  rw [Timeline.run_of_ofLine hsort,
    Command.execute_of_effect (Command.effect_eq_replace_iff.mpr hyields)]
  rfl

theorem run_first (dest : Destination) (t : Timeline) :
    t.run dest "first".toList = .ok (.item (t.current.head?.getD .null)) t := by
  have hfirst : Command.ofLine "first".toList = .ok (.first none) := by cbv
  rw [Timeline.run_of_ofLine hfirst]
  rfl

/-- **The extremes are at the head of the sorted items.**

Where null is not among the items and all or none are numeric, `min` reports what `first`
reports after `sort`, and `max` what it reports after `sort desc`, numbers as doubles.  Where
there are no items, this is null. -/
theorem extremes_head_sorted (dest : Destination) (t : Timeline) (descending : Bool)
    (hnull : ∀ v ∈ t.current, v ≠ .null) (htier : OneTier t.current) :
    ∃ next v, t.run dest (sortLine descending) = .ok (.updated .applied) next ∧
      next.run dest "first".toList = .ok (.item v) next ∧
      t.run dest (extremeLine descending) = .ok (.item v.asExtreme) t ∧
      (t.current = [] → v = .null ∧ v.asExtreme = .null) := by
  obtain ⟨sorted, -, hsorted⟩ :=
    orderBy_of_keys (k := id) descending fun v (_ : v ∈ t.current) => identity_call v
  refine ⟨t.push sorted, sorted.head?.getD .null, run_sortLine hsorted, run_first dest _, ?_,
    fun hempty => ?_⟩
  · rw [run_extremeLine, hsorted.extreme_eq hnull htier]
  · rw [hempty] at hsorted
    rw [hsorted.perm.eq_nil]
    exact ⟨rfl, rfl⟩

/-- A number, and a text and a number that stand for the same one. -/
def nines : List Value := [.int 10, .str "9", .int 9]

/-- A word, and two items with the same text. -/
def trues : List Value := [.str "no", .bool true, .str "true"]

theorem isStableSort_nines : IsStableSort id false nines [.str "9", .int 9, .int 10] := by
  refine ⟨[(.str "9", 1), (.int 9, 2), (.int 10, 0)], ?_, rfl, by decide +kernel⟩
  exact @List.perm_middle _ _ [_, _] []

theorem isStableSort_trues :
    IsStableSort id true trues [.bool true, .str "true", .str "no"] := by
  refine ⟨[(.bool true, 1), (.str "true", 2), (.str "no", 0)], ?_, rfl, by decide +kernel⟩
  exact @List.perm_middle _ _ [_, _] []

/-- Of two items that stand for nine the text is in front, and nine is the least; of two with
the same text the first is the greatest. -/
theorem nines_trues_head_sorted :
    ((∀ v ∈ nines, v ≠ .null) ∧ OneTier nines ∧
      (Timeline.start nines).run ⟨".", "", none⟩ (sortLine false)
        = .ok (.updated .applied) ((Timeline.start nines).push [.str "9", .int 9, .int 10]) ∧
      (Timeline.start nines).run ⟨".", "", none⟩ (extremeLine false)
        = .ok (.item (.float 9)) (.start nines)) ∧
    (∀ v ∈ trues, v ≠ .null) ∧ OneTier trues ∧
      (Timeline.start trues).run ⟨".", "", none⟩ (sortLine true)
        = .ok (.updated .applied)
            ((Timeline.start trues).push [.bool true, .str "true", .str "no"]) ∧
      (Timeline.start trues).run ⟨".", "", none⟩ (extremeLine true)
        = .ok (.item (.bool true)) (.start trues) := by
  have hnines : (∀ v ∈ nines, v ≠ .null) ∧ OneTier nines := by
    have hnumeric : ∀ v ∈ nines, v.isNumeric = true := by decide +kernel
    refine ⟨?_, Or.inl hnumeric⟩
    rintro v hv rfl
    cases hnumeric _ hv
  have htrues : (∀ v ∈ trues, v ≠ .null) ∧ OneTier trues := by
    refine ⟨?_, Or.inr (by decide +kernel)⟩
    simp [trues]
  have hnine : (Value.str "9").asExtreme = .float 9 := by
    have hnumber : (Value.str "9").number? = some 9 := by decide +kernel
    rw [Value.asExtreme, hnumber]
    rfl
  obtain ⟨next, v, hsort, hfirst, hleast, -⟩ :=
    extremes_head_sorted ⟨".", "", none⟩ (.start nines) false hnines.1 hnines.2
  rw [run_sortLine isStableSort_nines] at hsort
  cases hsort
  rw [run_first] at hfirst
  cases hfirst
  obtain ⟨next, w, hsort, hfirst, hgreatest, -⟩ :=
    extremes_head_sorted ⟨".", "", none⟩ (.start trues) true htrues.1 htrues.2
  rw [run_sortLine isStableSort_trues] at hsort
  cases hsort
  rw [run_first] at hfirst
  cases hfirst
  refine ⟨⟨hnines.1, hnines.2, run_sortLine isStableSort_nines, hleast.trans ?_⟩,
    htrues.1, htrues.2, run_sortLine isStableSort_trues, hgreatest⟩
  exact congrArg (fun v => EStateM.Result.ok (Answer.item v) (Timeline.start nines)) hnine

end Items

end LambdaShell
