/-
Sorting items by key.

What sorting has to achieve is said on numbered items: `IsStableSort` asks for an arrangement
of all items, each with the place where it stood, in which every item may stand before every
later one.  Of two items with keys that compare equal only the one that stood first may, so
there is one such arrangement at most, and `orderBy` finds it.

Two facts follow from there being only one.  A sorted list is the stable sort of itself, so
sorting again changes nothing; and reading both the items and the sorted list backwards turns
the direction round and nothing else.
-/
import Mathlib
import LambdaShell.Proofs.Outcome
import LambdaShell.Proofs.Value.Order

namespace LambdaShell.Items

variable {k : Value → Value} {key : Value → Outcome? Value} {descending : Bool}
variable {items sorted other : List Value}

/-! ### What a stable sort is -/

/-- The first of two numbered items may stand before the second: its key is not greater, or
not less if the order is downwards, and if the keys compare equal it stood there before. -/
structure Precedes (k : Value → Value) (descending : Bool) (a b : Value × Nat) : Prop where
  ordered : (k a.1).compare (k b.1) ≠ if descending then .lt else .gt
  stable : (k a.1).compare (k b.1) = .eq → a.2 < b.2

instance (k : Value → Value) (descending : Bool) (a b : Value × Nat) :
    Decidable (Precedes k descending a b) :=
  decidable_of_iff ((k a.1).compare (k b.1) ≠ (if descending then .lt else .gt) ∧
    ((k a.1).compare (k b.1) = .eq → a.2 < b.2)) ⟨fun h => ⟨h.1, h.2⟩, fun h => ⟨h.1, h.2⟩⟩

/-- The sorted list is an arrangement of the items in which each precedes all later ones. -/
def IsStableSort (k : Value → Value) (descending : Bool) (items sorted : List Value) : Prop :=
  ∃ placed : List (Value × Nat), placed.Perm items.zipIdx ∧ placed.map (·.1) = sorted ∧
    placed.Pairwise (Precedes k descending)

/-- Items are numbered upwards. -/
theorem pairwise_zipIdx (items : List Value) : items.zipIdx.Pairwise fun a b => a.2 < b.2 := by
  rw [← List.pairwise_map (f := Prod.snd), List.zipIdx_map_snd]
  exact List.pairwise_lt_range'

/-- What may stand in one order downwards may stand in the other order upwards. -/
theorem compare_ne_swap {v w : Value} : v.compare w ≠ (if descending then .lt else .gt) ↔
    w.compare v ≠ if !descending then .lt else .gt := by
  cases descending with
  | true => exact not_congr Std.OrientedCmp.gt_iff_lt.symm
  | false => exact not_congr Std.OrientedCmp.gt_iff_lt

theorem inOrder_iff {v w : Value} :
    inOrder descending v w = true ↔ v.compare w ≠ if descending then .lt else .gt := by
  cases descending with
  | true =>
      rw [compare_ne_swap]
      exact Ordering.ne_gt_iff_isLE.symm
  | false => exact Ordering.ne_gt_iff_isLE.symm

theorem inOrder_trans {u v w : Value} (huv : inOrder descending u v = true)
    (hvw : inOrder descending v w = true) : inOrder descending u w = true := by
  unfold inOrder at huv hvw ⊢
  cases descending with
  | true => exact Std.TransCmp.isLE_trans hvw huv
  | false => exact Std.TransCmp.isLE_trans huv hvw

theorem inOrder_total (descending : Bool) (v w : Value) :
    (inOrder descending v w || inOrder descending w v) = true := by
  have hswap : v.compare w = (w.compare v).swap := Std.OrientedCmp.eq_swap
  unfold inOrder
  rw [hswap]
  cases descending <;> cases w.compare v <;> rfl

/-- Two numbered items do not precede each other. -/
theorem Precedes.asymm {a b : Value × Nat} (hab : Precedes k descending a b)
    (hba : Precedes k descending b a) : False := by
  have heq : (k a.1).compare (k b.1) = .eq := by
    have hfirst := hab.ordered
    have hsecond := compare_ne_swap.mp hba.ordered
    cases descending <;> cases hkeys : (k a.1).compare (k b.1) <;> simp_all
  have hlt := hab.stable heq
  have hgt := hba.stable (Std.OrientedCmp.eq_comm.mp heq)
  omega

/-- **There is only one stable sort.** -/
theorem IsStableSort.unique (h : IsStableSort k descending items sorted)
    (h' : IsStableSort k descending items other) : other = sorted := by
  obtain ⟨placed, hperm, rfl, hplaced⟩ := h
  obtain ⟨placed', hperm', rfl, hplaced'⟩ := h'
  have hsame : placed' = placed :=
    List.Perm.eq_of_pairwise (fun a b _ _ hab hba => (hab.asymm hba).elim) hplaced' hplaced
      (hperm'.trans hperm.symm)
  rw [hsame]

/-! ### Sorted lists -/

/-- The keys of a sorted list never turn back. -/
theorem IsStableSort.pairwise (h : IsStableSort k descending items sorted) :
    sorted.Pairwise fun v w => (k v).compare (k w) ≠ if descending then .lt else .gt := by
  obtain ⟨placed, -, rfl, hplaced⟩ := h
  rw [List.pairwise_map]
  exact hplaced.imp Precedes.ordered

theorem IsStableSort.perm (h : IsStableSort k descending items sorted) : sorted.Perm items := by
  obtain ⟨placed, hperm, rfl, -⟩ := h
  have hitems := hperm.map (·.1)
  rwa [show items.zipIdx.map (·.1) = items from List.zipIdx_map_fst 0 items] at hitems

/-- A sorted list is the stable sort of itself. -/
theorem IsStableSort.again (h : IsStableSort k descending items sorted) :
    IsStableSort k descending sorted sorted := by
  refine ⟨sorted.zipIdx, List.Perm.refl _, List.zipIdx_map_fst 0 sorted, ?_⟩
  rw [List.pairwise_iff_getElem]
  intro i j hi hj hij
  rw [List.length_zipIdx] at hi hj
  rw [List.getElem_zipIdx, List.getElem_zipIdx]
  exact ⟨List.pairwise_iff_getElem.mp h.pairwise i j hi hj hij, fun _ => by omega⟩

/-- The place counted from the other end of a list of `n` items. -/
def fromEnd (n : Nat) (p : Value × Nat) : Value × Nat := (p.1, n - 1 - p.2)

/-- The items in reverse are the items numbered from the other end. -/
theorem zipIdx_reverse (items : List Value) :
    items.reverse.zipIdx = (items.zipIdx.map (fromEnd items.length)).reverse := by
  refine List.ext_getElem (by simp) fun i hi _ => ?_
  have hi : i < items.length := by simpa using hi
  rw [List.getElem_zipIdx, List.getElem_reverse, List.getElem_reverse, List.getElem_map,
    List.getElem_zipIdx]
  simp only [fromEnd, List.length_map, List.length_zipIdx, Prod.mk.injEq, true_and]
  omega

theorem Precedes.fromEnd {a b : Value × Nat} {n : Nat} (h : Precedes k descending a b)
    (hb : b.2 < n) : Precedes k (!descending) (fromEnd n b) (fromEnd n a) := by
  refine ⟨compare_ne_swap.mp h.ordered, fun heq => ?_⟩
  have hlt : a.2 < b.2 := h.stable (Std.OrientedCmp.eq_comm.mp heq)
  show n - 1 - b.2 < n - 1 - a.2
  omega

/-- A sorted list read backwards is the items read backwards, sorted the other way. -/
theorem IsStableSort.reverse (h : IsStableSort k descending items sorted) :
    IsStableSort k (!descending) items.reverse sorted.reverse := by
  obtain ⟨placed, hperm, rfl, hplaced⟩ := h
  refine ⟨(placed.map (Items.fromEnd items.length)).reverse, ?_, ?_, ?_⟩
  · rw [zipIdx_reverse]
    exact (placed.map _).reverse_perm.trans
      ((hperm.map _).trans (items.zipIdx.map _).reverse_perm.symm)
  · rw [List.map_reverse, List.map_map]
    rfl
  · rw [List.pairwise_reverse, List.pairwise_map]
    refine hplaced.imp_of_mem fun {a b} _ hb hab => hab.fromEnd ?_
    have hmem : (b.1, b.2) ∈ items.zipIdx := hperm.mem_iff.mp hb
    exact List.snd_lt_of_mem_zipIdx hmem

/-! ### Sorting by key -/

/-- Where every item has a key, each item is paired with its key. -/
theorem withKeys_of_keys (hkeys : ∀ v ∈ items, key v = .ok (k v)) :
    withKeys key items = .ok (items.map fun v => (k v, v)) := by
  induction items with
  | nil => rfl
  | cons v items ih =>
      obtain ⟨hv, hitems⟩ := List.forall_mem_cons.mp hkeys
      rw [withKeys, hv, ih hitems]
      rfl

/-- The pairs are sorted as the items are by their keys. -/
theorem orderBy_eq_mergeSort (hkeys : ∀ v ∈ items, key v = .ok (k v)) :
    orderBy key descending items
      = .ok (items.mergeSort fun v w => inOrder descending (k v) (k w)) := by
  have hsnd : ((items.map fun v => (k v, v)).mergeSort fun a b => inOrder descending a.1 b.1).map
      (·.2) = items.mergeSort fun v w => inOrder descending (k v) (k w) := by
    rw [List.map_mergeSort (s := fun v w => inOrder descending (k v) (k w)), List.map_map,
      show ((·.2) ∘ fun v => (k v, v)) = id from rfl, List.map_id]
    intro a ha b hb
    obtain ⟨v, -, rfl⟩ := List.mem_map.mp ha
    obtain ⟨w, -, rfl⟩ := List.mem_map.mp hb
    rfl
  rw [← hsnd, orderBy, withKeys_of_keys hkeys]
  rfl

/-- Numbered items are arranged by their keys and then by their places. -/
theorem precedes_of_zipIdxLE {a b : Value × Nat} (hne : a.2 ≠ b.2)
    (h : List.zipIdxLE (fun v w => inOrder descending (k v) (k w)) a b = true) :
    Precedes k descending a b := by
  unfold List.zipIdxLE at h
  split at h
  · rename_i hab
    refine ⟨inOrder_iff.mp hab, fun heq => ?_⟩
    have hba : inOrder descending (k b.1) (k a.1) = true := by
      rw [inOrder_iff, Std.OrientedCmp.eq_comm.mp heq]
      cases descending <;> decide
    rw [if_pos hba, decide_eq_true_eq] at h
    omega
  · cases h

/-- The numbered items in the order in which the items are sorted are their stable sort. -/
theorem isStableSort_mergeSort (k : Value → Value) (descending : Bool) (items : List Value) :
    IsStableSort k descending items
      (items.mergeSort fun v w => inOrder descending (k v) (k w)) := by
  refine ⟨items.zipIdx.mergeSort (List.zipIdxLE fun v w => inOrder descending (k v) (k w)),
    List.mergeSort_perm _ _, List.mergeSort_zipIdx, ?_⟩
  have hsorted := List.pairwise_mergeSort
    (List.zipIdxLE_trans fun u v w => inOrder_trans (u := k u) (v := k v) (w := k w))
    (List.zipIdxLE_total fun v w => inOrder_total descending (k v) (k w)) items.zipIdx
  have hplaces : (items.zipIdx.mergeSort
      (List.zipIdxLE fun v w => inOrder descending (k v) (k w))).Pairwise fun a b => a.2 ≠ b.2 := by
    rw [← List.pairwise_map (f := Prod.snd)]
    refine ((List.mergeSort_perm _ _).map _).nodup_iff.mpr ?_
    rw [List.zipIdx_map_snd]
    exact List.nodup_range'
  exact (hsorted.and hplaces).imp fun h => precedes_of_zipIdxLE h.2 h.1

/-- Sorting by keys that all items have finds their stable sort. -/
theorem orderBy_of_keys (descending : Bool) (hkeys : ∀ v ∈ items, key v = .ok (k v)) :
    ∃ sorted, orderBy key descending items = .ok sorted ∧
      IsStableSort k descending items sorted :=
  ⟨_, orderBy_eq_mergeSort hkeys, isStableSort_mergeSort k descending items⟩

/-- Sorting by keys that all items have answers what is a stable sort of them. -/
theorem IsStableSort.orderBy_eq (h : IsStableSort k descending items sorted)
    (hkeys : ∀ v ∈ items, key v = .ok (k v)) : orderBy key descending items = .ok sorted := by
  obtain ⟨found, horder, hfound⟩ := orderBy_of_keys descending hkeys
  rw [horder, hfound.unique h]

/-- The first item without a key decides how sorting fails. -/
theorem withKeys_error {front back : List Value} {v : Value} {e : EvalError}
    (hfront : ∀ u ∈ front, ∃ w, key u = .ok w) (hv : key v = .error e) :
    withKeys key (front ++ v :: back) = .error e := by
  induction front with
  | nil =>
      rw [List.nil_append, withKeys, hv]
      rfl
  | cons u front ih =>
      obtain ⟨⟨w, hw⟩, hrest⟩ := List.forall_mem_cons.mp hfront
      rw [List.cons_append, withKeys, hw, ih hrest]
      rfl

/--
**Sorting is stable in both directions, and its result is the only one.**

Where every item has a key, the sorted list is the one stable sort of the items; sorting it
again by the same keys changes nothing, and sorting the items backwards the other way gives
it backwards.  Where some item has none, sorting fails as the first such item does.
-/
theorem orderBy_stable_sort (key : Value → Outcome? Value) (descending : Bool)
    (items : List Value) :
    (∀ k : Value → Value, (∀ v ∈ items, key v = .ok (k v)) →
      ∃ sorted, orderBy key descending items = .ok sorted ∧
        (∀ other, IsStableSort k descending items other ↔ other = sorted) ∧
        orderBy key descending sorted = .ok sorted ∧
        orderBy key (!descending) items.reverse = .ok sorted.reverse) ∧
      ∀ front v back e, items = front ++ v :: back → (∀ u ∈ front, ∃ w, key u = .ok w) →
        key v = .error e → orderBy key descending items = .error e := by
  refine ⟨fun k hkeys => ?_, ?_⟩
  · obtain ⟨sorted, horder, hsorted⟩ := orderBy_of_keys descending hkeys
    refine ⟨sorted, horder, fun other => ⟨hsorted.unique, ?_⟩, ?_, ?_⟩
    · rintro rfl
      exact hsorted
    · exact hsorted.again.orderBy_eq fun v hv => hkeys v (hsorted.perm.mem_iff.mp hv)
    · exact hsorted.reverse.orderBy_eq fun v hv => hkeys v (List.mem_reverse.mp hv)
  · rintro front v back e rfl hfront hv
    rw [orderBy, withKeys_error hfront hv]
    rfl

/-- A record with a name and a rank. -/
def ranked (name : String) (rank : Int64) : Value :=
  .record [("Name", .str name), ("Rank", .int rank)]

/-- The rank of such a record. -/
def rankOf : Value → Value
  | .record [_, (_, rank)] => rank
  | _ => .null

/-- Of four records with two ranks those of one rank keep their order in either direction, and
where null has no rank there is no sorting. -/
theorem fourRanked_stable_sort :
    (∀ v ∈ [ranked "b" 1, ranked "a" 2, ranked "c" 1, ranked "d" 2],
      Eval.member v "Rank" = .ok (rankOf v)) ∧
    orderBy (Eval.member · "Rank") true [ranked "b" 1, ranked "a" 2, ranked "c" 1, ranked "d" 2]
      = .ok [ranked "a" 2, ranked "d" 2, ranked "b" 1, ranked "c" 1] ∧
    orderBy (Eval.member · "Rank") false [ranked "d" 2, ranked "c" 1, ranked "a" 2, ranked "b" 1]
      = .ok [ranked "c" 1, ranked "b" 1, ranked "d" 2, ranked "a" 2] ∧
    orderBy (Eval.member · "Rank") true ([ranked "b" 1] ++ .null :: [.int 1])
      = .error (.nullReference "Rank") := by
  have hkeys : ∀ v ∈ [ranked "b" 1, ranked "a" 2, ranked "c" 1, ranked "d" 2],
      Eval.member v "Rank" = .ok (rankOf v) := by
    simp only [List.forall_mem_cons]
    exact ⟨rfl, rfl, rfl, rfl, List.forall_mem_nil _⟩
  have hfront : ∀ u ∈ [ranked "b" 1], ∃ w, Eval.member u "Rank" = .ok w :=
    List.forall_mem_singleton.mpr ⟨.int 1, rfl⟩
  have hplaced : IsStableSort rankOf true
      [ranked "b" 1, ranked "a" 2, ranked "c" 1, ranked "d" 2]
      [ranked "a" 2, ranked "d" 2, ranked "b" 1, ranked "c" 1] := by
    refine ⟨[(ranked "a" 2, 1), (ranked "d" 2, 3), (ranked "b" 1, 0), (ranked "c" 1, 2)],
      ?_, rfl, ?_⟩
    · exact (@List.perm_middle _ _ [_, _] [_]).trans (.cons _ (.cons _ (.swap _ _ _)))
    · decide +kernel
  obtain ⟨hsort, hfail⟩ := orderBy_stable_sort (Eval.member · "Rank") true
    [ranked "b" 1, ranked "a" 2, ranked "c" 1, ranked "d" 2]
  obtain ⟨sorted, horder, hunique, -, hreverse⟩ := hsort rankOf hkeys
  obtain rfl := (hunique _).mp hplaced
  obtain ⟨-, hfail⟩ := orderBy_stable_sort (Eval.member · "Rank") true
    ([ranked "b" 1] ++ .null :: [.int 1])
  exact ⟨hkeys, horder, hreverse, hfail _ _ _ _ rfl hfront rfl⟩

end LambdaShell.Items
