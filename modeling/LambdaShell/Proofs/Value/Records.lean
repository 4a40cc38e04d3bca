/-
Records without repeated names.

A value is well named if no record in it, however deep, has two fields of one name.  What
is in a well-named value is well named, and what is put together from well-named values is,
as long as the names of each new record differ.  The values of a data line hold nothing and
are well named for that reason.
-/
import LambdaShell.Proofs.Value.Equality
import LambdaShell.Value.Literal

namespace LambdaShell

/-- Values of the kind hold no other values. -/
def Kind.isScalar : Kind → Bool
  | record | list => false
  | _ => true

namespace Value

variable {v w : Value} {name : String} {fields : Fields} {items : List Value}

/-- No record in the value has two fields of one name. -/
def WellNamed (v : Value) : Prop :=
  ∀ fields, Inside (record fields) v → (Fields.names fields).Nodup

/-! ### Putting values together -/

theorem wellNamed_of_isScalar (h : v.kind.isScalar = true) : v.WellNamed := by
  intro fields hin
  cases hin <;> cases h

theorem wellNamed_record : (record fields).WellNamed ↔
    (Fields.names fields).Nodup ∧ ∀ p ∈ fields, p.2.WellNamed := by
  constructor
  · intro h
    refine ⟨h fields (.self _), ?_⟩
    rintro ⟨name, v⟩ hp inner hin
    exact h inner (.field hp hin)
  · rintro ⟨hnames, hfields⟩ inner hin
    cases hin with
    | self => exact hnames
    | field hmem hin => exact hfields _ hmem inner hin

theorem wellNamed_list : (list items).WellNamed ↔ ∀ v ∈ items, v.WellNamed := by
  constructor
  · exact fun h v hv inner hin => h inner (.item hv hin)
  · intro h inner hin
    cases hin with
    | item hmem hin => exact h _ hmem inner hin

theorem WellNamed.get? (h : (record fields).WellNamed) (hw : Fields.get? fields name = some w) :
    w.WellNamed := by
  obtain ⟨front, back, rfl, -⟩ := List.lookup_eq_some_iff.mp hw
  exact (wellNamed_record.mp h).2 (name, w) (by simp)

/-! ### The records in a value -/

mutual

/-- The names of each record in a value, inner records first. -/
def recordNames : Value → List (List String)
  | record fields => recordNamesOfFields fields ++ [Fields.names fields]
  | list items => recordNamesOfItems items
  | _ => []

/-- The names of each record in the fields of a record. -/
def recordNamesOfFields : List (String × Value) → List (List String)
  | [] => []
  | (_, v) :: fields => recordNames v ++ recordNamesOfFields fields

/-- The names of each record in the items of a list. -/
def recordNamesOfItems : List Value → List (List String)
  | [] => []
  | v :: items => recordNames v ++ recordNamesOfItems items

end

theorem recordNamesOfFields_eq (fields : Fields) :
    recordNamesOfFields fields = fields.flatMap fun p => recordNames p.2 := by
  induction fields with
  | nil => rfl
  | cons p fields ih => exact congrArg (recordNames p.2 ++ ·) ih

theorem recordNamesOfItems_eq (items : List Value) :
    recordNamesOfItems items = items.flatMap recordNames := by
  induction items with
  | nil => rfl
  | cons v items ih => exact congrArg (recordNames v ++ ·) ih

theorem mem_recordNames (h : Inside (record fields) v) : Fields.names fields ∈ v.recordNames := by
  induction h with
  | self => exact List.mem_append_right _ List.mem_cons_self
  | field hmem _ ih =>
      refine List.mem_append_left _ ?_
      rw [recordNamesOfFields_eq]
      exact List.mem_flatMap.mpr ⟨_, hmem, ih⟩
  | @item w items hmem _ ih =>
      show _ ∈ recordNamesOfItems items
      rw [recordNamesOfItems_eq]
      exact List.mem_flatMap.mpr ⟨_, hmem, ih⟩

mutual

theorem WellNamed.nodup : ∀ {v : Value}, v.WellNamed → ∀ names ∈ v.recordNames, names.Nodup
  | record _, h =>
      have hparts := wellNamed_record.mp h
      List.forall_mem_append.mpr
        ⟨nodup_of_wellNamed_fields hparts.2, List.forall_mem_singleton.mpr hparts.1⟩
  | list _, h => nodup_of_wellNamed_items (wellNamed_list.mp h)
  | null, _ | bool _, _ | int _, _ | float _, _ | str _, _ => List.forall_mem_nil _

theorem nodup_of_wellNamed_fields : ∀ {fields : List (String × Value)},
    (∀ p ∈ fields, p.2.WellNamed) → ∀ names ∈ recordNamesOfFields fields, names.Nodup
  | [], _ => List.forall_mem_nil _
  | (_, _) :: _, h =>
      have hparts := List.forall_mem_cons.mp h
      List.forall_mem_append.mpr ⟨hparts.1.nodup, nodup_of_wellNamed_fields hparts.2⟩

theorem nodup_of_wellNamed_items : ∀ {items : List Value},
    (∀ v ∈ items, v.WellNamed) → ∀ names ∈ recordNamesOfItems items, names.Nodup
  | [], _ => List.forall_mem_nil _
  | _ :: _, h =>
      have hparts := List.forall_mem_cons.mp h
      List.forall_mem_append.mpr ⟨hparts.1.nodup, nodup_of_wellNamed_items hparts.2⟩

end

/-- A value is well named exactly if no list of the names of a record repeats one. -/
theorem wellNamed_iff : v.WellNamed ↔ ∀ names ∈ v.recordNames, names.Nodup :=
  ⟨WellNamed.nodup, fun h _ hin => h _ (mem_recordNames hin)⟩

instance (v : Value) : Decidable v.WellNamed :=
  decidable_of_iff (∀ names ∈ v.recordNames, names.Nodup) wellNamed_iff.symm

/-! ### Data lines -/

theorem isScalar_ofTrimmed (cs : List Char) : (ofTrimmed cs).kind.isScalar = true := by
  unfold ofTrimmed
  split
  · rfl
  · split
    · rfl
    · split
      · rfl
      · split <;> rfl

theorem wellNamed_of_readData (line : List Char) : ∀ v ∈ readData line, v.WellNamed := by
  intro v hv
  obtain ⟨piece, -, rfl⟩ := List.mem_map.mp hv
  exact wellNamed_of_isScalar (isScalar_ofTrimmed _)

end Value

end LambdaShell
