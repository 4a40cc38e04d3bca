/-
How items come to be in their groups.

Where an item goes is decided when it is inserted, by the keys that are there then; an
`Insertion` is that moment.  Nothing is known of the equality of keys but its answers: `1`
and `1.0` share a group, and NaN does not even find the group that it opened.  So it will
not do to speak of the group of a key.  What is said instead goes by the number of a group:
`place` is the first whose key equals the new one, or else a new last group.

Three views of the groups are followed through one insertion, and from there through a run
of them: the keys in order, the members of the group of a given number, and all members one
group after the other.
-/
import Mathlib
import LambdaShell.Proofs.Command.Effects
import LambdaShell.Proofs.Items.Members

namespace LambdaShell

theorem Items.items_of_withKeys {key : Value → Outcome? Value} {items : List Value}
    {pairs : List (Value × Value)} (h : withKeys key items = .ok pairs) :
    pairs.map (·.2) = items := by
  induction items generalizing pairs with
  | nil =>
      cases h
      rfl
  | cons v items ih =>
      obtain ⟨k, -, h⟩ := Outcome.bind_eq_ok.mp h
      obtain ⟨rest, hrest, h⟩ := Outcome.bind_eq_ok.mp h
      cases h
      rw [List.map_cons, ih hrest]

/-! ### Insertions -/

namespace Groups

/-- The keys in order. -/
def keys (groups : Groups) : List Value := groups.map (·.key)

/-- The members of the group of that number; there are none if there is no such group. -/
def membersAt (groups : Groups) (n : Nat) : List Value := groups[n]?.elim [] (·.members)

/-- All members, one group after the other. -/
def items (groups : Groups) : List Value := groups.flatMap (·.members)

/-- No group has a key that equals `key`. -/
def lacks (groups : Groups) (key : Value) : Bool := groups.keys.all fun k => !(k == key)

/-- The number of the first group whose key equals `key`; if there is none, that of a new
last group. -/
def place (groups : Groups) (key : Value) : Nat := groups.keys.findIdx (· == key)

/-- The groups after pairs of a key and an item have been inserted, one by one. -/
def insertAll (groups : Groups) (pairs : List (Value × Value)) : Groups :=
  pairs.foldl (fun groups p => groups.insert p.1 p.2) groups

end Groups

/-- A key and an item that are inserted, and the groups as they are then. -/
structure Insertion where
  groups : Groups
  key : Value
  item : Value

namespace Insertion

/-- The insertion opens a new group. -/
def opens (i : Insertion) : Bool := i.groups.lacks i.key

/-- The number of the group that takes the item. -/
def place (i : Insertion) : Nat := i.groups.place i.key

/-- The insertions of pairs of a key and an item, from given groups on. -/
def run (groups : Groups) : List (Value × Value) → List Insertion
  | [] => []
  | p :: pairs => ⟨groups, p.1, p.2⟩ :: run (groups.insert p.1 p.2) pairs

end Insertion

namespace Groups

variable {groups : Groups} {key item : Value} {pairs : List (Value × Value)}

/-! ### One insertion -/

theorem keys_insert (key item : Value) (groups : Groups) : (groups.insert key item).keys
    = groups.keys ++ if groups.lacks key then [key] else [] := by
  induction groups with
  | nil => rfl
  | cons g groups ih =>
      rw [insert]
      by_cases hg : (g.key == key) = true
      · simp [keys, lacks, hg]
      · simp only [Bool.not_eq_true] at hg
        simp only [keys, lacks, List.map_cons, List.all_cons, hg, Bool.false_eq_true, if_false,
          Bool.not_false, Bool.true_and, List.cons_append, List.cons.injEq, true_and]
        exact ih

theorem membersAt_insert (key item : Value) (groups : Groups) (n : Nat) :
    (groups.insert key item).membersAt n
      = groups.membersAt n ++ if groups.place key = n then [item] else [] := by
  induction groups generalizing n with
  | nil => cases n <;> simp [insert, membersAt, place, keys]
  | cons g groups ih =>
      rw [insert]
      by_cases hg : (g.key == key) = true
      · cases n <;> simp [membersAt, place, keys, List.findIdx_cons, hg]
      · cases n with
        | zero => simp [membersAt, place, keys, List.findIdx_cons, hg]
        | succ n => simpa [membersAt, place, keys, List.findIdx_cons, hg] using ih n

theorem items_insert (key item : Value) (groups : Groups) :
    (groups.insert key item).items.Perm (groups.items ++ [item]) := by
  induction groups with
  | nil => exact List.Perm.refl _
  | cons g groups ih =>
      rw [insert]
      by_cases hg : (g.key == key) = true
      · simp only [items, hg, if_true, List.flatMap_cons, List.append_assoc]
        exact List.perm_append_comm.append_left _
      · simp only [items, hg, List.flatMap_cons, List.append_assoc]
        exact ih.append_left _

theorem filled_insert (h : ∀ g ∈ groups, g.members ≠ []) :
    ∀ g ∈ groups.insert key item, g.members ≠ [] := by
  induction groups with
  | nil => simp [insert]
  | cons f groups ih =>
      obtain ⟨hf, hgroups⟩ := List.forall_mem_cons.mp h
      rw [insert]
      split
      · simpa using hgroups
      · exact List.forall_mem_cons.mpr ⟨hf, ih hgroups⟩

/-- A new key is matched by none of those before it. -/
theorem apart_insert (h : groups.keys.Pairwise fun k l => (k == l) = false) :
    (groups.insert key item).keys.Pairwise fun k l => (k == l) = false := by
  rw [keys_insert]
  by_cases hlacks : groups.lacks key = true
  · rw [if_pos hlacks, List.pairwise_append]
    refine ⟨h, List.pairwise_singleton _ _, fun k hk l hl => ?_⟩
    rw [List.mem_singleton.mp hl]
    simpa using List.all_eq_true.mp hlacks k hk
  · rwa [if_neg hlacks, List.append_nil]

/-- The group that takes the item has a key that equals the new one, or it is new and has the
new key. -/
theorem key_at_place (key item : Value) (groups : Groups) :
    ∃ k, (groups.insert key item).keys[groups.place key]? = some k ∧
      ((k == key) = true ∨ groups.lacks key = true ∧ k = key) := by
  rw [keys_insert]
  by_cases hlacks : groups.lacks key = true
  · have hplace : groups.place key = groups.keys.length := by
      refine List.findIdx_eq_length.mpr fun k hk => ?_
      simpa using List.all_eq_true.mp hlacks k hk
    refine ⟨key, ?_, Or.inr ⟨hlacks, rfl⟩⟩
    rw [if_pos hlacks, hplace]
    exact List.getElem?_concat_length
  · have hlt : groups.place key < groups.keys.length := by
      refine List.findIdx_lt_length.mpr ?_
      simpa [lacks] using hlacks
    refine ⟨groups.keys[groups.place key], ?_, Or.inl (List.findIdx_getElem (w := hlt))⟩
    rw [if_neg hlacks, List.append_nil, List.getElem?_eq_getElem hlt]

/-! ### Runs of insertions -/

theorem keys_insertAll (pairs : List (Value × Value)) (groups : Groups) :
    (groups.insertAll pairs).keys
      = groups.keys ++ ((Insertion.run groups pairs).filter (·.opens)).map (·.key) := by
  induction pairs generalizing groups with
  | nil => exact (List.append_nil _).symm
  | cons p pairs ih =>
      show ((groups.insert p.1 p.2).insertAll pairs).keys = _
      rw [ih, keys_insert, List.append_assoc, Insertion.run, List.filter_cons]
      by_cases hlacks : groups.lacks p.1 = true
      · simp [Insertion.opens, hlacks]
      · simp [Insertion.opens, hlacks]

theorem membersAt_insertAll (pairs : List (Value × Value)) (groups : Groups) (n : Nat) :
    (groups.insertAll pairs).membersAt n
      = groups.membersAt n
        ++ ((Insertion.run groups pairs).filter (·.place = n)).map (·.item) := by
  induction pairs generalizing groups with
  | nil => exact (List.append_nil _).symm
  | cons p pairs ih =>
      show ((groups.insert p.1 p.2).insertAll pairs).membersAt n = _
      rw [ih, membersAt_insert, List.append_assoc, Insertion.run, List.filter_cons]
      by_cases hplace : groups.place p.1 = n
      · simp [Insertion.place, hplace]
      · simp [Insertion.place, hplace]

theorem items_insertAll (pairs : List (Value × Value)) (groups : Groups) :
    (groups.insertAll pairs).items.Perm (groups.items ++ pairs.map (·.2)) := by
  induction pairs generalizing groups with
  | nil => rw [List.map_nil, List.append_nil]; exact List.Perm.refl _
  | cons p pairs ih =>
      refine (ih (groups.insert p.1 p.2)).trans ?_
      rw [List.map_cons, List.append_cons groups.items]
      exact (items_insert p.1 p.2 groups).append_right _

/-- What every insertion keeps is true behind a run of insertions. -/
theorem insertAll_induction {P : Groups → Prop} (hinsert : ∀ key item groups, P groups →
    P (groups.insert key item)) (h : P groups) : P (groups.insertAll pairs) := by
  induction pairs generalizing groups with
  | nil => exact h
  | cons p pairs ih => exact ih (hinsert p.1 p.2 groups h)

/-- The group that took an item keeps its number and its key. -/
theorem home_insertAll {i : Insertion} (h : i ∈ Insertion.run groups pairs) :
    ∃ k, (groups.insertAll pairs).keys[i.place]? = some k ∧
      ((k == i.key) = true ∨ i.opens = true ∧ k = i.key) := by
  induction pairs generalizing groups with
  | nil => cases h
  | cons p pairs ih =>
      rcases List.mem_cons.mp h with rfl | h
      · obtain ⟨k, hk, hkey⟩ := key_at_place p.1 p.2 groups
        refine ⟨k, ?_, hkey⟩
        have hkeys := keys_insertAll pairs (groups.insert p.1 p.2)
        obtain ⟨hlt, -⟩ := List.getElem?_eq_some_iff.mp hk
        show ((groups.insert p.1 p.2).insertAll pairs).keys[groups.place p.1]? = some k
        rw [hkeys, List.getElem?_append_left hlt]
        exact hk
      · exact ih h

/-! ### Records of groups -/

/-- What is read of a record of each group, is read of the records in order. -/
theorem select_rows {aggregate : Aggregate} (name : String) (f : Group → Value)
    (h : ∀ g, Eval.member (row aggregate g) name = .ok (f g)) (groups : Groups) :
    Items.select (Eval.member · name) (groups.rows aggregate) = .ok (groups.map f) := by
  induction groups with
  | nil => rfl
  | cons g groups ih =>
      have hrest : Items.select (Eval.member · name) (groups.map (row aggregate))
          = .ok (groups.map f) := ih
      rw [rows, List.map_cons, Items.select, h, hrest]
      rfl

theorem select_keys (aggregate : Aggregate) (groups : Groups) :
    Items.select (Eval.member · "Key") (groups.rows aggregate) = .ok groups.keys :=
  select_rows "Key" (·.key) (fun _ => rfl) groups

theorem select_counts (groups : Groups) :
    Items.select (Eval.member · "Count") (groups.rows .count)
      = .ok (((groups.map (·.members.length)).map Int64.ofNat).map .int) := by
  rw [List.map_map, List.map_map]
  exact select_rows "Count" (fun g => .int (.ofNat g.members.length)) (fun _ => rfl) groups

theorem select_lists (groups : Groups) :
    Items.select (Eval.member · "Items") (groups.rows .items)
      = .ok ((groups.map (·.members)).map .list) := by
  rw [List.map_map]
  exact select_rows "Items" (fun g => .list g.members) (fun _ => rfl) groups

theorem sum_ofNat (ns : List Nat) : (ns.map Int64.ofNat).sum = Int64.ofNat ns.sum := by
  induction ns with
  | nil => rfl
  | cons n ns ih => rw [List.map_cons, List.sum_cons, List.sum_cons, ih, Int64.ofNat_add]

theorem sum_toInt_ofNat {ns : List Nat} (h : ns.sum < 2 ^ 63) :
    ((ns.map Int64.ofNat).map (·.toInt)).sum = ns.sum := by
  induction ns with
  | nil => rfl
  | cons n ns ih =>
      rw [List.sum_cons] at h
      have hn : (Int64.ofNat n).toInt = n := Int64.toInt_ofNat_of_lt (by omega)
      rw [List.map_cons, List.map_cons, List.sum_cons, List.sum_cons, ih (by omega), hn]
      exact (Int.natCast_add n ns.sum).symm

theorem sum_lengths (pairs : List (Value × Value)) :
    ((insertAll [] pairs).map (·.members.length)).sum = pairs.length := by
  have hitems : (insertAll [] pairs).items.length = pairs.length := by
    rw [(items_insertAll pairs []).length_eq]
    exact List.length_map _
  rw [← hitems]
  exact List.length_flatMap.symm

/-! ### The partition -/

/-- What groups have to do with the pairs that were inserted, one by one, where there was no
group before. -/
structure IsPartition (pairs : List (Value × Value)) (groups : Groups) : Prop where
  /-- No group is empty. -/
  filled : ∀ g ∈ groups, g.members ≠ []
  /-- No key equals a later one. -/
  apart : groups.keys.Pairwise fun k l => (k == l) = false
  /-- The keys are those that equalled no key when they were inserted, in this order. -/
  opened : groups.keys = ((Insertion.run [] pairs).filter (·.opens)).map (·.key)
  /-- The group that took an item is there, and its key equals the key of the item, or the item
  opened it with that key. -/
  home : ∀ i ∈ Insertion.run [] pairs, ∃ k, groups.keys[i.place]? = some k ∧
    ((k == i.key) = true ∨ i.opens = true ∧ k = i.key)
  /-- The members of a group are the items that it took, in the order of insertion. -/
  members : ∀ n, groups.membersAt n
    = ((Insertion.run [] pairs).filter (·.place = n)).map (·.item)
  /-- The groups together have as many members as there were insertions. -/
  sizes : (groups.map (·.members.length)).sum = pairs.length
  /-- There is one record for each group, in the same order and with its key. -/
  keyed : ∀ aggregate,
    Items.select (Eval.member · "Key") (groups.rows aggregate) = .ok groups.keys
  /-- The counts add up to the number of insertions: as integers of 64 bits, and as whole
  numbers unless that number itself is too large for 64 bits. -/
  counted : ∃ counts : List Int64,
    Items.select (Eval.member · "Count") (groups.rows .count) = .ok (counts.map .int) ∧
      counts.sum = .ofNat pairs.length ∧
      (pairs.length < 2 ^ 63 → (counts.map (·.toInt)).sum = pairs.length)
  /-- The lists of members together are a rearrangement of the items. -/
  listed : ∃ lists : List (List Value),
    Items.select (Eval.member · "Items") (groups.rows .items) = .ok (lists.map .list) ∧
      lists.flatten.Perm (pairs.map (·.2))

theorem isPartition_insertAll (pairs : List (Value × Value)) :
    IsPartition pairs (insertAll [] pairs) where
  filled := by
    refine insertAll_induction (P := fun groups => ∀ g ∈ groups, g.members ≠ []) ?_ ?_
    · intro key item groups h
      exact filled_insert h
    · exact List.forall_mem_nil _
  apart := by
    refine insertAll_induction (P := fun groups => groups.keys.Pairwise fun k l => (k == l) = false)
      ?_ ?_
    · intro key item groups h
      exact apart_insert h
    · exact List.Pairwise.nil
  opened := keys_insertAll pairs []
  home := fun _ h => home_insertAll h
  members := membersAt_insertAll pairs []
  sizes := sum_lengths pairs
  keyed := fun aggregate => select_keys aggregate _
  counted := by
    refine ⟨_, select_counts _, ?_, fun h => ?_⟩
    · rw [sum_ofNat, sum_lengths]
    · rw [sum_toInt_ofNat (by rwa [sum_lengths]), sum_lengths]
  listed := by
    refine ⟨_, select_lists _, ?_⟩
    rw [← List.flatMap_def]
    exact items_insertAll pairs []

/-- A `groupby` that succeeds inserts each item of the present sequence under the key that the
lambda makes of it. -/
theorem execute_groupBy {dest : Destination} {t next : Timeline} {lambda : String}
    {aggregate : Aggregate} {answer : Answer}
    (h : (Command.groupBy lambda aggregate).execute dest t = .ok answer next) :
    ∃ l pairs, Lambda.compile lambda.toList .any = .ok l ∧
      (∀ p ∈ pairs, l.call p.2 = .ok p.1) ∧ pairs.map (·.2) = t.current ∧
      next.current = (insertAll [] pairs).rows aggregate := by
  have hruns := Command.execute_runs dest t (.groupBy lambda aggregate)
  rw [h] at hruns
  cases hruns with
  | said hsaid => cases hsaid
  | replaced hyields =>
      cases hyields with
      | groupBy hcompile hgroups =>
          obtain ⟨pairs, hpairs, hall⟩ := Outcome.bind_eq_ok.mp hgroups
          cases hall
          exact ⟨_, pairs, hcompile, fun p hp => (Items.mem_of_withKeys hpairs p hp).2,
            Items.items_of_withKeys hpairs, rfl⟩

/--
**Grouping is a partition in first-seen order.**

Whatever pairs of a key and an item are inserted one by one, each item is in exactly one
group: the first whose key equalled its key then, or else the one that it opened.  No group is
empty, no key equals a later one, and both groups and members stand in the order in which they
came.  A `groupby` makes its records from such groups, with every item of the present sequence
inserted under the key that the lambda makes of it.
-/
theorem groups_partition :
    (∀ pairs : List (Value × Value), IsPartition pairs (insertAll [] pairs)) ∧
      ∀ (dest : Destination) (t next : Timeline) (lambda : String) (aggregate : Aggregate)
        (answer : Answer),
        (Command.groupBy lambda aggregate).execute dest t = .ok answer next →
          ∃ l pairs, Lambda.compile lambda.toList .any = .ok l ∧
            (∀ p ∈ pairs, l.call p.2 = .ok p.1) ∧ pairs.map (·.2) = t.current ∧
            next.current = (insertAll [] pairs).rows aggregate :=
  ⟨isPartition_insertAll, fun _ _ _ _ _ _ h => execute_groupBy h⟩

/-- Keys of which the first two are equal and the last two are not, though they are the same. -/
def onesAndNans : List (Value × Value) :=
  [(.int 1, .str "a"), (.float 1, .str "b"), (.float (0.0 / 0.0), .str "c"),
    (.float (0.0 / 0.0), .str "d")]

/-- Three numbers, the middle one even. -/
def oddEvenOdd : Timeline := .start [.int 7, .int 8, .int 9]

/-- The one opens a group that takes the other, and either NaN opens a group of its own; and of
three numbers grouped by parity the first and the last are counted together. -/
theorem onesAndNans_partition :
    (insertAll [] onesAndNans = [⟨.int 1, [.str "a", .str "b"]⟩,
        ⟨.float (0.0 / 0.0), [.str "c"]⟩, ⟨.float (0.0 / 0.0), [.str "d"]⟩] ∧
      IsPartition onesAndNans (insertAll [] onesAndNans)) ∧
    (Command.groupBy "x => (int)x % 2" .count).execute ⟨".", "", none⟩ oddEvenOdd
      = .ok (.updated .applied) (oddEvenOdd.push [.record [("Key", .int 1), ("Count", .int 2)],
          .record [("Key", .int 0), ("Count", .int 1)]]) ∧
    ∃ pairs, pairs.map (·.2) = [.int 7, .int 8, .int 9] ∧ IsPartition pairs (insertAll [] pairs) ∧
      (insertAll [] pairs).rows .count = [.record [("Key", .int 1), ("Count", .int 2)],
        .record [("Key", .int 0), ("Count", .int 1)]] := by
  obtain ⟨hpartition, hcommand⟩ := groups_partition
  have hrun : (Command.groupBy "x => (int)x % 2" .count).execute ⟨".", "", none⟩ oddEvenOdd
      = .ok (.updated .applied) (oddEvenOdd.push [.record [("Key", .int 1), ("Count", .int 2)],
          .record [("Key", .int 0), ("Count", .int 1)]]) := by cbv
  obtain ⟨l, pairs, -, -, hitems, hrows⟩ := hcommand _ _ _ _ _ _ hrun
  exact ⟨⟨rfl, hpartition onesAndNans⟩, hrun, pairs, hitems, hpartition pairs, hrows.symm⟩

end Groups

end LambdaShell
