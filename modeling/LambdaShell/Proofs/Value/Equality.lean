/-
How far equality of values is an equivalence.

Equality goes through two values side by side and compares what it finds at the same place.
It is symmetric, and reflexive but for NaN.  It is transitive but for one thing: integers
are compared with each other exactly, and with doubles after rounding.  So a double may be
equal to two integers that differ; `Blurs` says where that can happen, and it can not happen
among integers below `2 ^ 53`.
-/
import LambdaShell.Proofs.Number.Doubles
import LambdaShell.Value.Basic

namespace LambdaShell.Value

/-! ### What is in a value -/

/-- The first value is the second, or somewhere in it. -/
inductive Inside : Value → Value → Prop where
  | self (v : Value) : Inside v v
  | field {v w : Value} {name : String} {fields : List (String × Value)}
      (hmem : (name, w) ∈ fields) (h : Inside v w) : Inside v (record fields)
  | item {v w : Value} {items : List Value} (hmem : w ∈ items) (h : Inside v w) :
      Inside v (list items)

/-- There is no NaN in the value. -/
def NanFree (v : Value) : Prop := ∀ x, Inside (float x) v → x.isNaN = false

/-- At one place the values hold different integers that are the same double. -/
inductive Blurs : Value → Value → Prop where
  | here {i j : Int64} (hne : i ≠ j) (h : (Number.ofInt64 i == Number.ofInt64 j) = true) :
      Blurs (int i) (int j)
  | field {v w : Value} {m n : String} {a b : List (String × Value)}
      (hmem : ((m, v), (n, w)) ∈ a.zip b) (h : Blurs v w) : Blurs (record a) (record b)
  | item {v w : Value} {a b : List Value} (hmem : (v, w) ∈ a.zip b) (h : Blurs v w) :
      Blurs (list a) (list b)

/-- Only integers of at least `2 ^ 53` blur. -/
theorem Blurs.large {u w : Value} (h : Blurs u w) : ∃ i j, Inside (int i) u ∧
    Inside (int j) w ∧ i ≠ j ∧ 2 ^ 53 ≤ i.toInt.natAbs ∧ 2 ^ 53 ≤ j.toInt.natAbs := by
  induction h with
  | here hne h => exact ⟨_, _, .self _, .self _, hne, Number.large_of_ofInt64_beq hne h⟩
  | field hmem _ ih =>
      obtain ⟨i, j, hi, hj, hlarge⟩ := ih
      have hzip := List.of_mem_zip hmem
      exact ⟨i, j, .field hzip.1 hi, .field hzip.2 hj, hlarge⟩
  | item hmem _ ih =>
      obtain ⟨i, j, hi, hj, hlarge⟩ := ih
      have hzip := List.of_mem_zip hmem
      exact ⟨i, j, .item hzip.1 hi, .item hzip.2 hj, hlarge⟩

/-! ### Symmetry -/

mutual

theorem eq_symm : ∀ {v w : Value}, eq v w = true → eq w v = true
  | null, null, _ => rfl
  | bool _, bool _, h => beq_iff_eq.mpr (beq_iff_eq.mp h).symm
  | int _, int _, h => beq_iff_eq.mpr (beq_iff_eq.mp h).symm
  | float _, float _, h => Number.beq_symm h
  | int _, float _, h => h
  | float _, int _, h => h
  | str _, str _, h => beq_iff_eq.mpr (beq_iff_eq.mp h).symm
  | record _, record _, h => eqFields_symm h
  | list _, list _, h => eqItems_symm h

theorem eqFields_symm : ∀ {a b : List (String × Value)}, eqFields a b = true → eqFields b a = true
  | [], [], _ => rfl
  | (m, v) :: a, (n, w) :: b, h => by
      rw [eqFields, Bool.and_eq_true, Bool.and_eq_true] at h ⊢
      exact ⟨⟨beq_iff_eq.mpr (beq_iff_eq.mp h.1.1).symm, eq_symm h.1.2⟩, eqFields_symm h.2⟩

theorem eqItems_symm : ∀ {a b : List Value}, eqItems a b = true → eqItems b a = true
  | [], [], _ => rfl
  | v :: a, w :: b, h => by
      rw [eqItems, Bool.and_eq_true] at h ⊢
      exact ⟨eq_symm h.1, eqItems_symm h.2⟩

end

/-! ### Reflexivity -/

mutual

theorem eq_self : ∀ {v : Value}, v.NanFree → eq v v = true
  | null, _ => rfl
  | bool _, _ => beq_iff_eq.mpr rfl
  | int _, _ => beq_iff_eq.mpr rfl
  | float x, h => (Number.beq_self_iff x).mpr (h x (.self _))
  | str _, _ => beq_iff_eq.mpr rfl
  | record _, h => eqFields_self fun _ hmem x hx => h x (.field hmem hx)
  | list _, h => eqItems_self fun _ hmem x hx => h x (.item hmem hx)

theorem eqFields_self : ∀ {a : List (String × Value)}, (∀ p ∈ a, NanFree p.2) →
    eqFields a a = true
  | [], _ => rfl
  | (n, v) :: a, h => by
      rw [eqFields, Bool.and_eq_true, Bool.and_eq_true]
      obtain ⟨hv, ha⟩ := List.forall_mem_cons.mp h
      exact ⟨⟨beq_iff_eq.mpr rfl, eq_self hv⟩, eqFields_self ha⟩

theorem eqItems_self : ∀ {a : List Value}, (∀ v ∈ a, NanFree v) → eqItems a a = true
  | [], _ => rfl
  | v :: a, h => by
      rw [eqItems, Bool.and_eq_true]
      obtain ⟨hv, ha⟩ := List.forall_mem_cons.mp h
      exact ⟨eq_self hv, eqItems_self ha⟩

end

/-! ### What equal values have at the same place -/

theorem eqFields_iff {a b : List (String × Value)} : eqFields a b = true ↔
    List.Forall₂ (fun p q => p.1 = q.1 ∧ eq p.2 q.2 = true) a b := by
  induction a generalizing b with
  | nil => cases b <;> simp [eqFields]
  | cons p a ih =>
      cases b with
      | nil => simp [eqFields]
      | cons q b => simp [eqFields, ih]

theorem eqItems_iff {a b : List Value} : eqItems a b = true ↔
    List.Forall₂ (fun v w => eq v w = true) a b := by
  induction a generalizing b with
  | nil => cases b <;> simp [eqItems]
  | cons v a ih =>
      cases b with
      | nil => simp [eqItems]
      | cons w b => simp [eqItems, ih]

/-- What is equal to itself has no NaN in it. -/
theorem nanFree_of_eq_self {v : Value} (hv : eq v v = true) : v.NanFree := by
  intro x h
  induction h with
  | self => exact (Number.beq_self_iff x).mp hv
  | field hmem _ ih => exact ih (List.forall₂_same.mp (eqFields_iff.mp hv) _ hmem).2
  | item hmem _ ih => exact ih (List.forall₂_same.mp (eqItems_iff.mp hv) _ hmem)

/-- Equal values do not blur. -/
theorem Blurs.not_eq {u w : Value} (h : Blurs u w) : ¬ eq u w = true := by
  induction h with
  | here hne _ => exact fun heq => hne (beq_iff_eq.mp heq)
  | field hmem _ ih =>
      exact fun heq => ih ((List.forall₂_iff_zip.mp (eqFields_iff.mp heq)).2 hmem).2
  | item hmem _ ih => exact fun heq => ih ((List.forall₂_iff_zip.mp (eqItems_iff.mp heq)).2 hmem)

/-! ### Transitivity -/

mutual

/-- Values that are equal to the same are equal, unless they blur. -/
theorem eq_trans_of_not_blurs : ∀ {u v w : Value}, eq u v = true → eq v w = true →
    ¬ Blurs u w → eq u w = true
  | null, null, null, _, _, _ => rfl
  | bool _, bool _, bool _, huv, hvw, _ =>
      beq_iff_eq.mpr ((beq_iff_eq.mp huv).trans (beq_iff_eq.mp hvw))
  | int _, int _, int _, huv, hvw, _ =>
      beq_iff_eq.mpr ((beq_iff_eq.mp huv).trans (beq_iff_eq.mp hvw))
  | int _, int _, float _, huv, hvw, _ => by
      obtain rfl := beq_iff_eq.mp huv
      exact hvw
  | int i, float x, int j, huv, hvw, hblurs => by
      by_contra hne
      exact hblurs (.here (fun heq => hne (beq_iff_eq.mpr heq))
        (Number.beq_trans huv (Number.beq_symm hvw)))
  | int _, float _, float _, huv, hvw, _ => Number.beq_trans huv hvw
  | float _, int _, int _, huv, hvw, _ => by
      obtain rfl := beq_iff_eq.mp hvw
      exact huv
  | float _, int _, float _, huv, hvw, _ => Number.beq_trans (Number.beq_symm huv) hvw
  | float _, float _, int _, huv, hvw, _ => Number.beq_trans hvw (Number.beq_symm huv)
  | float _, float _, float _, huv, hvw, _ => Number.beq_trans huv hvw
  | str _, str _, str _, huv, hvw, _ =>
      beq_iff_eq.mpr ((beq_iff_eq.mp huv).trans (beq_iff_eq.mp hvw))
  | record _, record _, record _, huv, hvw, h =>
      eqFields_trans_of_not_blurs huv hvw fun hmem hblurs => h (.field hmem hblurs)
  | list _, list _, list _, huv, hvw, h =>
      eqItems_trans_of_not_blurs huv hvw fun hmem hblurs => h (.item hmem hblurs)

theorem eqFields_trans_of_not_blurs : ∀ {a b c : List (String × Value)}, eqFields a b = true →
    eqFields b c = true → (∀ {m n u w}, ((m, u), (n, w)) ∈ a.zip c → ¬ Blurs u w) →
      eqFields a c = true
  | [], [], [], _, _, _ => rfl
  | (_, u) :: a, (_, v) :: b, (_, w) :: c, hab, hbc, h => by
      rw [eqFields, Bool.and_eq_true, Bool.and_eq_true] at hab hbc ⊢
      have hname := (beq_iff_eq.mp hab.1.1).trans (beq_iff_eq.mp hbc.1.1)
      have hhead := eq_trans_of_not_blurs hab.1.2 hbc.1.2 (h List.mem_cons_self)
      have htail := eqFields_trans_of_not_blurs hab.2 hbc.2 fun hmem =>
        h (List.mem_cons_of_mem _ hmem)
      exact ⟨⟨beq_iff_eq.mpr hname, hhead⟩, htail⟩

theorem eqItems_trans_of_not_blurs : ∀ {a b c : List Value}, eqItems a b = true →
    eqItems b c = true → (∀ {u w}, (u, w) ∈ a.zip c → ¬ Blurs u w) → eqItems a c = true
  | [], [], [], _, _, _ => rfl
  | u :: a, v :: b, w :: c, hab, hbc, h => by
      rw [eqItems, Bool.and_eq_true] at hab hbc ⊢
      have hhead := eq_trans_of_not_blurs hab.1 hbc.1 (h List.mem_cons_self)
      have htail := eqItems_trans_of_not_blurs hab.2 hbc.2 fun hmem =>
        h (List.mem_cons_of_mem _ hmem)
      exact ⟨hhead, htail⟩

end

/-! ### Equality -/

/-- **Equality of values is an equivalence up to NaN and to rounding.**  It is symmetric; the
values that are equal to themselves are those without a NaN; and two values that are equal to
the same value are equal to each other, unless at one place they hold different integers that
are the same double, which takes integers of at least `2 ^ 53`. -/
theorem eq_equivalence_up_to_rounding (u v w : Value) :
    ((u == v) = true → (v == u) = true) ∧
      ((u == v) = true → (v == w) = true → ((u == w) = true ↔ ¬ Blurs u w)) ∧
      ((v == v) = true ↔ v.NanFree) ∧
      (Blurs u w → ∃ i j, Inside (int i) u ∧ Inside (int j) w ∧ i ≠ j ∧
        2 ^ 53 ≤ i.toInt.natAbs ∧ 2 ^ 53 ≤ j.toInt.natAbs) := by
  refine ⟨eq_symm, fun huv hvw => ⟨?_, ?_⟩, ⟨?_, ?_⟩, Blurs.large⟩
  · exact fun huw hblurs => hblurs.not_eq huw
  · exact eq_trans_of_not_blurs huv hvw
  · exact nanFree_of_eq_self
  · exact eq_self

/-- Two integers that are different and the same double, and the double between them. -/
theorem neighbours_blur :
    (int 9007199254740993 == float 9007199254740992) = true ∧
      (float 9007199254740992 == int 9007199254740992) = true ∧
      Blurs (int 9007199254740993) (int 9007199254740992) ∧
      (float 9007199254740992 == int 9007199254740993) = true ∧
      ((int 9007199254740993 == int 9007199254740992) = true ↔
        ¬ Blurs (int 9007199254740993) (int 9007199254740992)) ∧
      ∃ i j, Inside (int i) (int 9007199254740993) ∧ Inside (int j) (int 9007199254740992) ∧
        i ≠ j ∧ 2 ^ 53 ≤ i.toInt.natAbs ∧ 2 ^ 53 ≤ j.toInt.natAbs := by
  have hleft : (int 9007199254740993 == float 9007199254740992) = true := by decide +kernel
  have hright : (float 9007199254740992 == int 9007199254740992) = true := by decide +kernel
  have hblurs : Blurs (int 9007199254740993) (int 9007199254740992) :=
    .here (by decide) (by decide +kernel)
  obtain ⟨hsymm, htrans, -, hlarge⟩ := eq_equivalence_up_to_rounding (int 9007199254740993)
    (float 9007199254740992) (int 9007199254740992)
  exact ⟨hleft, hright, hblurs, hsymm hleft, htrans hleft hright, hlarge hblurs⟩

/-- The first integer that is no double of its own is equal to the double of its neighbour,
and so is the neighbour. -/
theorem eq_not_transitive : ¬ ∀ u v w : Value, (u == v) = true → (v == w) = true →
    (u == w) = true := by
  intro h
  have hleft : (int 9007199254740993 == float 9007199254740992) = true := by decide +kernel
  have hright : (float 9007199254740992 == int 9007199254740992) = true := by decide +kernel
  have hends := h _ _ _ hleft hright
  exact absurd hends (by decide +kernel)

end LambdaShell.Value
