/-
Which items are left when repeated ones are dropped.

An item is kept exactly if no item that is kept and stood before it equals it.  Said of
numbered items this is `AreKept`, and it leaves no choice: whether an item is kept is settled
by those before it.  So `distinct` is known once it is seen to keep items in this way, and a
list in which no item equals a later one is all that is kept of it.

Grouping opens a group for a key exactly if no key of a group equals it.  The keys of the
groups are what is kept of the keys for that reason, though the two loops know nothing of each
other.
-/
import Mathlib
import LambdaShell.Proofs.Items.Grouping
import LambdaShell.Proofs.Items.LessThan

namespace LambdaShell.Items

variable {items kept : List Value} {placed other : List (Value × Nat)} {v : Value}

/-! ### What is kept -/

/-- Of the numbered items those are kept that no item kept before them equals. -/
structure AreKept (items : List Value) (placed : List (Value × Nat)) : Prop where
  sublist : placed.Sublist items.zipIdx
  mem_iff : ∀ p ∈ items.zipIdx,
    p ∈ placed ↔ ∀ q ∈ placed, q.2 < p.2 → (q.1 == p.1) = false

theorem AreKept.ordered (h : AreKept items placed) : placed.Pairwise fun q p => q.2 < p.2 :=
  (pairwise_zipIdx items).sublist h.sublist

/-- Whether an item is kept is settled by those before it. -/
theorem AreKept.mem_iff_mem (h : AreKept items placed) (h' : AreKept items other) :
    ∀ (n : Nat) (p : Value × Nat), p ∈ items.zipIdx → p.2 = n → (p ∈ placed ↔ p ∈ other) := by
  intro n
  induction n using Nat.strong_induction_on with
  | _ n ih =>
      intro p hp hn
      rw [h.mem_iff p hp, h'.mem_iff p hp]
      constructor
      · intro hall q hq hlt
        exact hall q ((ih q.2 (by omega) q (h'.sublist.subset hq) rfl).mpr hq) hlt
      · intro hall q hq hlt
        exact hall q ((ih q.2 (by omega) q (h.sublist.subset hq) rfl).mp hq) hlt

/-- **There is only one choice of what to keep.** -/
theorem AreKept.unique (h : AreKept items placed) (h' : AreKept items other) :
    other = placed := by
  have hperm : other.Perm placed := by
    refine (List.perm_ext_iff_of_nodup ?_ ?_).mpr fun p => ⟨fun hp => ?_, fun hp => ?_⟩
    · exact h'.ordered.imp fun hlt heq => by rw [heq] at hlt; omega
    · exact h.ordered.imp fun hlt heq => by rw [heq] at hlt; omega
    · exact (h.mem_iff_mem h' p.2 p (h'.sublist.subset hp) rfl).mpr hp
    · exact (h.mem_iff_mem h' p.2 p (h.sublist.subset hp) rfl).mp hp
  refine hperm.eq_of_pairwise (fun a b _ _ hab hba => ?_) h'.ordered h.ordered
  omega

/-- A dropped item equals one that is kept and stood before it. -/
theorem AreKept.exists_of_not_mem (h : AreKept items placed) {p : Value × Nat}
    (hp : p ∈ items.zipIdx) (hdropped : p ∉ placed) :
    ∃ q ∈ placed, q.2 < p.2 ∧ (q.1 == p.1) = true := by
  by_contra hnone
  refine hdropped ((h.mem_iff p hp).mpr fun q hq hlt => ?_)
  by_contra heq
  exact hnone ⟨q, hq, hlt, by simpa using heq⟩

/-- No kept item equals a later one. -/
theorem AreKept.apart (h : AreKept items placed) :
    (placed.map (·.1)).Pairwise fun v w => (v == w) = false := by
  rw [List.pairwise_map]
  refine h.ordered.imp_of_mem fun {q p} hq hp hlt => ?_
  exact (h.mem_iff p (h.sublist.subset hp)).mp hp q hq hlt

/-- Where no item equals a later one, all are kept. -/
theorem areKept_self (h : items.Pairwise fun v w => (v == w) = false) :
    AreKept items items.zipIdx := by
  refine ⟨List.Sublist.refl _, fun p hp => ⟨fun _ q hq hlt => ?_, fun _ => hp⟩⟩
  obtain ⟨hq2, hq1⟩ := List.getElem?_eq_some_iff.mp (List.mk_mem_zipIdx_iff_getElem?.mp hq)
  obtain ⟨hp2, hp1⟩ := List.getElem?_eq_some_iff.mp (List.mk_mem_zipIdx_iff_getElem?.mp hp)
  rw [← hq1, ← hp1]
  exact List.pairwise_iff_getElem.mp h q.2 p.2 hq2 hp2 hlt

/-! ### What `distinct` keeps -/

/-- What is kept up to now, and one more item that may be kept. -/
def keep (kept : List Value) (v : Value) : List Value :=
  if kept.any (· == v) then kept else kept ++ [v]

theorem append_distinctFrom (items kept : List Value) :
    kept ++ distinctFrom kept items = items.foldl keep kept := by
  induction items generalizing kept with
  | nil => exact List.append_nil kept
  | cons v items ih =>
      rw [List.foldl_cons, ← ih, distinctFrom]
      by_cases hv : kept.any (· == v) = true
      · rw [keep, if_pos hv, if_pos hv]
      · rw [keep, if_neg hv, if_neg hv, ← List.append_cons]

theorem distinct_concat (items : List Value) (v : Value) :
    distinct (items ++ [v]) = keep (distinct items) v := by
  have hfold : ∀ items : List Value, distinct items = items.foldl keep [] :=
    fun items => append_distinctFrom items []
  rw [hfold, hfold, List.foldl_append]
  rfl

theorem zipIdx_concat (items : List Value) (v : Value) :
    (items ++ [v]).zipIdx = items.zipIdx ++ [(v, items.length)] := by
  rw [List.zipIdx_append, Nat.zero_add]
  rfl

/-- The places of kept items are those of items. -/
theorem AreKept.lt_length (h : AreKept items placed) {q : Value × Nat} (hq : q ∈ placed) :
    q.2 < items.length := by
  have hmem : (q.1, q.2) ∈ items.zipIdx := h.sublist.subset hq
  exact List.snd_lt_of_mem_zipIdx hmem

/-- One more item is dropped if it equals one that is kept. -/
theorem AreKept.drop (h : AreKept items placed) (hv : ∃ q ∈ placed, (q.1 == v) = true) :
    AreKept (items ++ [v]) placed := by
  refine ⟨?_, fun p hp => ?_⟩
  · rw [zipIdx_concat]
    exact h.sublist.trans (List.sublist_append_left _ _)
  · rw [zipIdx_concat] at hp
    rcases List.mem_append.mp hp with hp | hp
    · exact h.mem_iff p hp
    · obtain rfl := List.mem_singleton.mp hp
      obtain ⟨q, hq, heq⟩ := hv
      constructor
      · intro hmem
        exact absurd (h.lt_length hmem) (lt_irrefl _)
      · intro hall
        rw [hall q hq (h.lt_length hq)] at heq
        cases heq

/-- One more item is kept if it equals none that is kept. -/
theorem AreKept.add (h : AreKept items placed) (hv : ∀ q ∈ placed, (q.1 == v) = false) :
    AreKept (items ++ [v]) (placed ++ [(v, items.length)]) := by
  refine ⟨?_, fun p hp => ?_⟩
  · rw [zipIdx_concat]
    exact h.sublist.append (List.Sublist.refl _)
  · rw [zipIdx_concat] at hp
    rcases List.mem_append.mp hp with hp | hp
    · -- the new item stands behind `p`, so nothing changes for `p`
      have hpos : p.2 < items.length := List.snd_lt_of_mem_zipIdx (show (p.1, p.2) ∈ _ from hp)
      have hlast : p ∉ [(v, items.length)] := by
        intro hmem
        rw [List.mem_singleton.mp hmem] at hpos
        exact absurd hpos (lt_irrefl _)
      rw [List.mem_append, or_iff_left hlast, h.mem_iff p hp, List.forall_mem_append]
      refine (and_iff_left fun q hq hlt => ?_).symm
      rw [List.mem_singleton.mp hq] at hlt
      exact absurd hpos (by omega)
    · refine iff_of_true (List.mem_append_right _ hp) ?_
      obtain rfl := List.mem_singleton.mp hp
      refine List.forall_mem_append.mpr ⟨fun q hq _ => hv q hq, fun q hq hlt => ?_⟩
      rw [List.mem_singleton.mp hq] at hlt
      exact absurd hlt (lt_irrefl _)

theorem exists_areKept (items : List Value) :
    ∃ placed, AreKept items placed ∧ placed.map (·.1) = distinct items := by
  induction items using List.reverseRecOn with
  | nil => exact ⟨[], ⟨List.Sublist.refl _, fun p hp => by cases hp⟩, rfl⟩
  | append_singleton items v ih =>
      obtain ⟨placed, hkept, hplaced⟩ := ih
      rw [distinct_concat, keep, ← hplaced, List.any_map]
      by_cases hv : placed.any (fun q => q.1 == v) = true
      · refine ⟨placed, hkept.drop (List.any_eq_true.mp hv), ?_⟩
        exact (if_pos hv).symm
      · refine ⟨placed ++ [(v, items.length)], hkept.add fun q hq => ?_, ?_⟩
        · by_contra hq'
          exact hv (List.any_eq_true.mpr ⟨q, hq, by simpa using hq'⟩)
        · rw [List.map_append]
          exact (if_neg hv).symm

theorem AreKept.eq_distinct (h : AreKept items placed) : placed.map (·.1) = distinct items := by
  obtain ⟨found, hfound, hdistinct⟩ := exists_areKept items
  rw [hfound.unique h, hdistinct]

theorem apart_distinct (items : List Value) :
    (distinct items).Pairwise fun v w => (v == w) = false := by
  obtain ⟨placed, hkept, hplaced⟩ := exists_areKept items
  rw [← hplaced]
  exact hkept.apart

theorem distinct_distinct (items : List Value) : distinct (distinct items) = distinct items := by
  rw [← (areKept_self (apart_distinct items)).eq_distinct]
  exact List.zipIdx_map_fst 0 _

/-! ### Keys of groups -/

theorem keys_insertAll_eq (pairs : List (Value × Value)) (groups : Groups) :
    (groups.insertAll pairs).keys
      = groups.keys ++ distinctFrom groups.keys (pairs.map (·.1)) := by
  induction pairs generalizing groups with
  | nil => exact (List.append_nil _).symm
  | cons p pairs ih =>
      have hlacks : groups.lacks p.1 = !groups.keys.any (· == p.1) := by
        rw [Groups.lacks, List.not_any_eq_all_not]
      show ((groups.insert p.1 p.2).insertAll pairs).keys = _
      rw [ih, Groups.keys_insert, hlacks, List.map_cons, distinctFrom]
      by_cases hp : groups.keys.any (· == p.1) = true
      · simp [hp]
      · simp [hp]

/-- The keys of the groups are what is kept of the keys. -/
theorem keys_insertAll_nil (pairs : List (Value × Value)) :
    (Groups.insertAll [] pairs).keys = distinct (pairs.map (·.1)) :=
  keys_insertAll_eq pairs []

theorem groupBy_identity (items : List Value) :
    groupBy identity.call items = .ok (Groups.insertAll [] (items.map fun v => (v, v))) := by
  rw [groupBy, withKeys_of_keys (k := id) fun v _ => identity_call v]
  rfl

/-- Grouping items by themselves makes records with what is kept of them as keys. -/
theorem effect_groupBy_identity (dest : Destination) (items : List Value)
    (aggregate : Aggregate) :
    ∃ rows, (Command.groupBy "x => x" aggregate).effect dest items = .replace (.ok rows) ∧
      select (Eval.member · "Key") rows = .ok (distinct items) := by
  refine ⟨_, Command.effect_eq_replace_iff.mpr
    (.groupBy compile_identity (groupBy_identity items)), ?_⟩
  have hkeys : (items.map fun v => (v, v)).map (·.1) = items := by
    rw [List.map_map]
    exact List.map_id items
  rw [Groups.select_keys, keys_insertAll_nil, hkeys]

/--
**`distinct` keeps one representative of whatever it sees.**

There is one way to keep exactly those items that no item kept before them equals, and
`distinct` keeps the items in this way.  So what it keeps stands in the order of the items, none
of it equals a later one, every item it drops equals one that is kept and stood before it, and
doing it again changes nothing.  Grouping the items by themselves makes one record of each
kept item, with that item as its key.
-/
theorem distinct_keeps_representatives (items : List Value) :
    (∃ placed, (∀ other, AreKept items other ↔ other = placed) ∧
      placed.map (·.1) = distinct items ∧
      ∀ p ∈ items.zipIdx, p ∉ placed → ∃ q ∈ placed, q.2 < p.2 ∧ (q.1 == p.1) = true) ∧
    (distinct items).Sublist items ∧
    ((distinct items).Pairwise fun v w => (v == w) = false) ∧
    distinct (distinct items) = distinct items ∧
    ∀ (dest : Destination) (aggregate : Aggregate), ∃ rows,
      (Command.groupBy "x => x" aggregate).effect dest items = .replace (.ok rows) ∧
        select (Eval.member · "Key") rows = .ok (distinct items) := by
  obtain ⟨placed, hkept, hplaced⟩ := exists_areKept items
  refine ⟨⟨placed, fun other => ⟨hkept.unique, ?_⟩, hplaced, ?_⟩, ?_, apart_distinct items,
    distinct_distinct items, fun dest aggregate => effect_groupBy_identity dest items aggregate⟩
  · rintro rfl
    exact hkept
  · intro p hp hdropped
    exact hkept.exists_of_not_mem hp hdropped
  · have hsublist := hkept.sublist.map Prod.fst
    rwa [hplaced, List.zipIdx_map_fst] at hsublist

/-- One as an integer and as a double, with a NaN behind each. -/
def onesBetweenNans : List Value := [.int 1, .float (0.0 / 0.0), .float 1, .float (0.0 / 0.0)]

/-- The double is dropped for the integer in front; both NaN are kept. -/
theorem onesBetweenNans_distinct :
    distinct onesBetweenNans = [.int 1, .float (0.0 / 0.0), .float (0.0 / 0.0)] ∧
      ∃ placed, AreKept onesBetweenNans placed ∧ placed.map (·.1) = distinct onesBetweenNans ∧
        (.float 1, 2) ∈ onesBetweenNans.zipIdx ∧ (.float 1, 2) ∉ placed ∧
        ∃ q ∈ placed, q.2 < 2 ∧ (q.1 == .float 1) = true := by
  obtain ⟨⟨placed, hunique, hplaced, hdropped⟩, -⟩ := distinct_keeps_representatives onesBetweenNans
  have hkept : AreKept onesBetweenNans placed := (hunique placed).mpr rfl
  have hone : ((.int 1, 0) : Value × Nat) ∈ placed :=
    (hkept.mem_iff _ (by simp [onesBetweenNans])).mpr fun q _ hlt => absurd hlt (Nat.not_lt_zero _)
  have hmem : ((.float 1, 2) : Value × Nat) ∈ onesBetweenNans.zipIdx := by simp [onesBetweenNans]
  have hnot : ((.float 1, 2) : Value × Nat) ∉ placed := by
    intro hin
    have hdiffer := (hkept.mem_iff _ hmem).mp hin _ hone (by decide)
    exact absurd hdiffer (by decide +kernel)
  exact ⟨rfl, placed, hkept, hplaced, hmem, hnot, hdropped _ hmem hnot⟩

end LambdaShell.Items
