/-
Where the items of a result come from.

No query makes up an item.  What is kept, sorted, found or gathered are the items that were
there; a projection answers what its lambda makes of one of them, and a group has the key
that the lambda made of one of its members.  The least and the greatest item are among the
items as well, unless they are numbers, which are answered as doubles.

Nor does a query make up a failure: where it fails, what it applies to the items failed on
one of them.
-/
import LambdaShell.Items.Query
import LambdaShell.Proofs.Outcome

namespace LambdaShell.Items

variable {items kept : List Value} {v w : Value}

/-! ### Lists -/

theorem mem_of_filter {test : Value → Outcome? Bool} (h : filter test items = .ok kept) :
    ∀ v ∈ kept, v ∈ items := by
  induction items generalizing kept with
  | nil =>
      cases h
      exact List.forall_mem_nil _
  | cons u items ih =>
      obtain ⟨passes, -, h⟩ := Outcome.bind_eq_ok.mp h
      obtain ⟨rest, hrest, h⟩ := Outcome.bind_eq_ok.mp h
      cases h
      intro v hv
      cases passes with
      | false => exact List.mem_cons_of_mem u (ih hrest v hv)
      | true =>
          rcases List.mem_cons.mp hv with rfl | hv
          · exact List.mem_cons_self
          · exact List.mem_cons_of_mem u (ih hrest v hv)

theorem mem_of_select {project : Value → Outcome? Value} (h : select project items = .ok kept) :
    ∀ w ∈ kept, ∃ v ∈ items, project v = .ok w := by
  induction items generalizing kept with
  | nil =>
      cases h
      exact List.forall_mem_nil _
  | cons u items ih =>
      obtain ⟨first, hfirst, h⟩ := Outcome.bind_eq_ok.mp h
      obtain ⟨rest, hrest, h⟩ := Outcome.bind_eq_ok.mp h
      cases h
      refine List.forall_mem_cons.mpr ⟨⟨u, List.mem_cons_self, hfirst⟩, fun w hw => ?_⟩
      obtain ⟨v, hv, hvw⟩ := ih hrest w hw
      exact ⟨v, List.mem_cons_of_mem u hv, hvw⟩

/-- Each pair is an item with its key. -/
theorem mem_of_withKeys {key : Value → Outcome? Value} {keyed : List (Value × Value)}
    (h : withKeys key items = .ok keyed) : ∀ p ∈ keyed, p.2 ∈ items ∧ key p.2 = .ok p.1 := by
  induction items generalizing keyed with
  | nil =>
      cases h
      exact List.forall_mem_nil _
  | cons u items ih =>
      obtain ⟨first, hfirst, h⟩ := Outcome.bind_eq_ok.mp h
      obtain ⟨rest, hrest, h⟩ := Outcome.bind_eq_ok.mp h
      cases h
      refine List.forall_mem_cons.mpr ⟨⟨List.mem_cons_self, hfirst⟩, fun p hp => ?_⟩
      obtain ⟨hmem, hkey⟩ := ih hrest p hp
      exact ⟨List.mem_cons_of_mem u hmem, hkey⟩

theorem mem_of_orderBy {key : Value → Outcome? Value} {descending : Bool}
    (h : orderBy key descending items = .ok kept) : ∀ v ∈ kept, v ∈ items := by
  obtain ⟨keyed, hkeyed, h⟩ := Outcome.bind_eq_ok.mp h
  cases h
  intro v hv
  obtain ⟨p, hp, rfl⟩ := List.mem_map.mp hv
  exact (mem_of_withKeys hkeyed p (List.mem_mergeSort.mp hp)).1

theorem mem_of_distinctFrom : ∀ v ∈ distinctFrom kept items, v ∈ items := by
  induction items generalizing kept with
  | nil => exact List.forall_mem_nil _
  | cons u items ih =>
      intro v hv
      rw [distinctFrom] at hv
      split at hv
      · exact List.mem_cons_of_mem u (ih v hv)
      · rcases List.mem_cons.mp hv with rfl | hv
        · exact List.mem_cons_self
        · exact List.mem_cons_of_mem u (ih v hv)

theorem mem_of_distinct : ∀ v ∈ distinct items, v ∈ items := mem_of_distinctFrom

/-! ### Single items -/

theorem mem_of_find {test : Value → Outcome? Bool} (h : find test items = .ok (some v)) :
    v ∈ items := by
  induction items with
  | nil => cases h
  | cons u items ih =>
      obtain ⟨passes, -, h⟩ := Outcome.bind_eq_ok.mp h
      cases passes with
      | false => exact List.mem_cons_of_mem u (ih h)
      | true =>
          cases h
          exact List.mem_cons_self

theorem mem_of_champion {α : Type} {before : α → α → Bool} {as : List α} {a : α}
    (h : champion before as = some a) : a ∈ as := by
  cases as with
  | nil => cases h
  | cons b as =>
      cases h
      induction as generalizing b with
      | nil => exact List.mem_cons_self
      | cons c as ih =>
          rw [List.foldl_cons]
          split
          · exact List.mem_cons_of_mem b (ih c)
          · rcases List.mem_cons.mp (ih b) with hb | hrest
            · rw [hb]
              exact List.mem_cons_self
            · exact List.mem_cons_of_mem b (List.mem_cons_of_mem c hrest)

/-- An extreme item is one of the items, a number, or null. -/
theorem extreme_cases (wanted : Ordering) (items : List Value) :
    extreme wanted items ∈ items ∨ (∃ x, extreme wanted items = .float x) ∨
      extreme wanted items = .null := by
  unfold extreme
  split
  · exact Or.inr (Or.inl ⟨_, rfl⟩)
  · cases hbest : champion (fun v w => compare v.text w.text == wanted)
        (items.filter (!·.isNumeric)) with
    | none => exact Or.inr (Or.inr rfl)
    | some v => exact Or.inl (List.mem_filter.mp (mem_of_champion hbest)).1

/-! ### Groups -/

/-- What is true of all keys and of all members of groups remains so as long as it is true
of what is added. -/
theorem forall_insert {K P : Value → Prop} {key item : Value} {groups : Groups} (hkey : K key)
    (hitem : P item) (h : ∀ g ∈ groups, K g.key ∧ ∀ v ∈ g.members, P v) :
    ∀ g ∈ groups.insert key item, K g.key ∧ ∀ v ∈ g.members, P v := by
  induction groups with
  | nil => exact List.forall_mem_singleton.mpr ⟨hkey, List.forall_mem_singleton.mpr hitem⟩
  | cons f groups ih =>
      obtain ⟨⟨hf, hmembers⟩, hgroups⟩ := List.forall_mem_cons.mp h
      rw [Groups.insert]
      split
      · refine List.forall_mem_cons.mpr ⟨⟨hf, ?_⟩, hgroups⟩
        exact List.forall_mem_append.mpr ⟨hmembers, List.forall_mem_singleton.mpr hitem⟩
      · exact List.forall_mem_cons.mpr ⟨⟨hf, hmembers⟩, ih hgroups⟩

theorem forall_foldl_insert {K P : Value → Prop} {pairs : List (Value × Value)} {groups : Groups}
    (hpairs : ∀ p ∈ pairs, K p.1 ∧ P p.2)
    (h : ∀ g ∈ groups, K g.key ∧ ∀ v ∈ g.members, P v) :
    ∀ g ∈ pairs.foldl (fun groups p => groups.insert p.1 p.2) groups,
      K g.key ∧ ∀ v ∈ g.members, P v := by
  induction pairs generalizing groups with
  | nil => exact h
  | cons p pairs ih =>
      obtain ⟨⟨hkey, hitem⟩, hpairs⟩ := List.forall_mem_cons.mp hpairs
      exact ih hpairs (forall_insert hkey hitem h)

/-- The key of a group is the key of an item, and its members are items. -/
theorem mem_of_groupBy {key : Value → Outcome? Value} {groups : Groups}
    (h : groupBy key items = .ok groups) :
    ∀ g ∈ groups, (∃ v ∈ items, key v = .ok g.key) ∧ ∀ v ∈ g.members, v ∈ items := by
  obtain ⟨keyed, hkeyed, h⟩ := Outcome.bind_eq_ok.mp h
  cases h
  refine forall_foldl_insert (K := fun k => ∃ v ∈ items, key v = .ok k) (fun p hp => ?_)
    (List.forall_mem_nil _)
  obtain ⟨hmem, hkey⟩ := mem_of_withKeys hkeyed p hp
  exact ⟨⟨p.2, hmem, hkey⟩, hmem⟩

/-! ### Failures -/

section Failures

open Outcome

variable {P : EvalError → Prop} {test : Value → Outcome? Bool} {f : Value → Outcome? Value}

theorem failsOnly_filter (h : ∀ v ∈ items, FailsOnly P (test v)) :
    FailsOnly P (filter test items) := by
  induction items with
  | nil => exact .ok []
  | cons v items ih =>
      obtain ⟨hv, hitems⟩ := List.forall_mem_cons.mp h
      exact hv.bind fun passes => (ih hitems).bind fun rest => .ok _

theorem failsOnly_select (h : ∀ v ∈ items, FailsOnly P (f v)) : FailsOnly P (select f items) := by
  induction items with
  | nil => exact .ok []
  | cons v items ih =>
      obtain ⟨hv, hitems⟩ := List.forall_mem_cons.mp h
      exact hv.bind fun w => (ih hitems).bind fun rest => .ok _

theorem failsOnly_withKeys (h : ∀ v ∈ items, FailsOnly P (f v)) :
    FailsOnly P (withKeys f items) := by
  induction items with
  | nil => exact .ok []
  | cons v items ih =>
      obtain ⟨hv, hitems⟩ := List.forall_mem_cons.mp h
      exact hv.bind fun key => (ih hitems).bind fun rest => .ok _

theorem failsOnly_orderBy (descending : Bool) (h : ∀ v ∈ items, FailsOnly P (f v)) :
    FailsOnly P (orderBy f descending items) :=
  (failsOnly_withKeys h).bind fun _ => .ok _

theorem failsOnly_groupBy (h : ∀ v ∈ items, FailsOnly P (f v)) :
    FailsOnly P (groupBy f items) :=
  (failsOnly_withKeys h).bind fun _ => .ok _

theorem failsOnly_find (h : ∀ v ∈ items, FailsOnly P (test v)) :
    FailsOnly P (find test items) := by
  induction items with
  | nil => exact .ok none
  | cons v items ih =>
      obtain ⟨hv, hitems⟩ := List.forall_mem_cons.mp h
      refine hv.bind fun passes => ?_
      cases passes with
      | true => exact .ok _
      | false => exact ih hitems

theorem failsOnly_any (h : ∀ v ∈ items, FailsOnly P (test v)) : FailsOnly P (any test items) := by
  induction items with
  | nil => exact .ok false
  | cons v items ih =>
      obtain ⟨hv, hitems⟩ := List.forall_mem_cons.mp h
      refine hv.bind fun passes => ?_
      cases passes with
      | true => exact .ok _
      | false => exact ih hitems

theorem failsOnly_all (h : ∀ v ∈ items, FailsOnly P (test v)) : FailsOnly P (all test items) := by
  induction items with
  | nil => exact .ok true
  | cons v items ih =>
      obtain ⟨hv, hitems⟩ := List.forall_mem_cons.mp h
      refine hv.bind fun passes => ?_
      cases passes with
      | true => exact ih hitems
      | false => exact .ok _

end Failures

end LambdaShell.Items
