/-
The least and the greatest item.

`champion` goes through a list once, and what it holds gives way only to what is strictly
before it.  It ends with the *leader* of the list, which is before everything that stands in
front of it and has nothing behind it that is before it.  A list has one leader at most, so
this says which of several equally good elements is chosen: the first.

The extremes of items are sought in two tiers.  Where some item is numeric, only numbers
count, and then it does not matter how the items are arranged: the total order tells all
doubles apart, so all leaders of the numbers in any arrangement are the same double.  Where no
item is numeric the texts decide, and of equal texts the first.
-/
import Mathlib
import LambdaShell.Items.Query
import LambdaShell.Proofs.Number.TotalOrder

namespace LambdaShell.Items

/-! ### Leaders -/

section Leaders

variable {α : Type} {before : α → α → Bool} {as : List α} {a b : α}

/-- An order in which some elements are strictly before others. -/
structure IsStrict (before : α → α → Bool) : Prop where
  asymm : ∀ a b, before a b = true → before b a = false
  trans_of_not : ∀ a b c, before a b = true → before c b = false → before a c = true

theorem isStrict_compare (cmp : α → α → Ordering) [Std.TransCmp cmp] {wanted : Ordering}
    (h : wanted ≠ .eq) : IsStrict fun a b => cmp a b == wanted := by
  have hswap : ∀ a b, cmp a b = (cmp b a).swap := fun a b => Std.OrientedCmp.eq_swap
  cases wanted with
  | eq => exact absurd rfl h
  | lt =>
      refine ⟨fun a b hab => ?_, fun a b c hab hcb => ?_⟩
      · rw [hswap b a, eq_of_beq hab]
        rfl
      · refine beq_iff_eq.mpr (Std.TransCmp.lt_of_lt_of_isLE (eq_of_beq hab) ?_)
        rw [hswap b c]
        cases hcmp : cmp c b with
        | lt => simp [hcmp] at hcb
        | _ => rfl
  | gt =>
      refine ⟨fun a b hab => ?_, fun a b c hab hcb => ?_⟩
      · rw [hswap b a, eq_of_beq hab]
        rfl
      · refine beq_iff_eq.mpr (Std.TransCmp.gt_of_gt_of_isGE (eq_of_beq hab) ?_)
        rw [hswap b c]
        cases hcmp : cmp c b with
        | gt => simp [hcmp] at hcb
        | _ => rfl

/-- The element is before all in front of it, and nothing behind it is before it. -/
def Leads (before : α → α → Bool) (as : List α) (a : α) : Prop :=
  ∃ front back, as = front ++ a :: back ∧ (∀ b ∈ front, before a b = true) ∧
    ∀ b ∈ back, before b a = false

theorem Leads.mem (h : Leads before as a) : a ∈ as := by
  obtain ⟨front, back, rfl, -, -⟩ := h
  exact List.mem_append_right _ List.mem_cons_self

theorem Leads.not_before (hbefore : IsStrict before) (h : Leads before as a) :
    ∀ b ∈ as, before b a = false := by
  obtain ⟨front, back, rfl, hfront, hback⟩ := h
  refine List.forall_mem_append.mpr ⟨fun b hb => ?_, List.forall_mem_cons.mpr ⟨?_, hback⟩⟩
  · exact hbefore.asymm a b (hfront b hb)
  · refine Bool.eq_false_of_not_eq_true fun hself => ?_
    rw [hbefore.asymm a a hself] at hself
    cases hself

/-- **A list has one leader at most.** -/
theorem Leads.unique (h : Leads before as a) (h' : Leads before as b) : a = b := by
  obtain ⟨front, back, rfl, hfront, hback⟩ := h
  obtain ⟨front', back', hsame, hfront', hback'⟩ := h'
  rcases List.append_eq_append_iff.mp hsame with ⟨mid, hmid, hrest⟩ | ⟨mid, hmid, hrest⟩
  · cases mid with
    | nil => exact (List.cons.inj hrest).1
    | cons c mid =>
        -- `a` stands in front of `b`, and `b` behind `a`
        obtain ⟨rfl, rfl⟩ := List.cons.inj hrest
        have hba := hfront' a (by rw [hmid]; simp)
        rw [hback b (by simp)] at hba
        cases hba
  · cases mid with
    | nil => exact (List.cons.inj hrest).1.symm
    | cons c mid =>
        obtain ⟨rfl, rfl⟩ := List.cons.inj hrest
        have hab := hfront b (by rw [hmid]; simp)
        rw [hback' a (by simp)] at hab
        cases hab

/-- A new last element that is before the leader takes its place. -/
theorem Leads.replace (hbefore : IsStrict before) (h : Leads before as a)
    (hb : before b a = true) : Leads before (as ++ [b]) b := by
  refine ⟨as, [], rfl, fun c hc => ?_, List.forall_mem_nil _⟩
  exact hbefore.trans_of_not b a c hb (h.not_before hbefore c hc)

/-- A new last element that is not before the leader changes nothing. -/
theorem Leads.stay (h : Leads before as a) (hb : before b a = false) :
    Leads before (as ++ [b]) a := by
  obtain ⟨front, back, rfl, hfront, hback⟩ := h
  refine ⟨front, back ++ [b], by rw [List.append_assoc, List.cons_append], hfront, ?_⟩
  exact List.forall_mem_append.mpr ⟨hback, List.forall_mem_singleton.mpr hb⟩

theorem leads_champion (hbefore : IsStrict before) (a : α) (as : List α) :
    Leads before (a :: as) (as.foldl (fun best b => if before b best then b else best) a) := by
  induction as using List.reverseRecOn with
  | nil => exact ⟨[], [], rfl, List.forall_mem_nil _, List.forall_mem_nil _⟩
  | append_singleton as b ih =>
      rw [List.foldl_append, ← List.cons_append, List.foldl_cons, List.foldl_nil]
      generalize as.foldl (fun best b => if before b best then b else best) a = best at ih ⊢
      by_cases hb : before b best = true
      · rw [if_pos hb]
        exact ih.replace hbefore hb
      · rw [if_neg hb]
        exact ih.stay (Bool.eq_false_of_not_eq_true hb)

/-- **The champion is the leader.** -/
theorem champion_eq_some_iff (hbefore : IsStrict before) :
    champion before as = some a ↔ Leads before as a := by
  cases as with
  | nil =>
      refine iff_of_false nofun ?_
      rintro ⟨front, back, hsplit, -, -⟩
      exact absurd hsplit.symm (by simp)
  | cons b as =>
      have hleads := leads_champion hbefore b as
      constructor
      · intro h
        cases h
        exact hleads
      · intro h
        exact congrArg some (hleads.unique h)

theorem champion_eq_none_iff : champion before as = none ↔ as = [] := by
  cases as with
  | nil => exact iff_of_true rfl rfl
  | cons b as => exact iff_of_false nofun nofun

/-- Who leads depends on the comparisons within the list only. -/
theorem Leads.congr {other : α → α → Bool} (h : Leads before as a)
    (hsame : ∀ b ∈ as, ∀ c ∈ as, before b c = other b c) : Leads other as a := by
  have ha : a ∈ as := h.mem
  obtain ⟨front, back, rfl, hfront, hback⟩ := h
  refine ⟨front, back, rfl, fun b hb => ?_, fun b hb => ?_⟩
  · rw [← hsame a ha b (List.mem_append_left _ hb)]
    exact hfront b hb
  · rw [← hsame b (List.mem_append_right _ (List.mem_cons_of_mem a hb)) a ha]
    exact hback b hb

end Leaders

/-! ### Extremes -/

variable {wanted : Ordering} {items other : List Value} {v w : Value} {x y : Double}

/-- The first of two doubles is on the wanted side of the second. -/
def byNumber (wanted : Ordering) (x y : Double) : Bool := Number.totalCompare x y == wanted

/-- The text of the first item is on the wanted side of the text of the second, code point by
code point. -/
def byText (wanted : Ordering) (v w : Value) : Bool := compare v.text w.text == wanted

instance : Std.TransCmp Number.totalCompare :=
  inferInstanceAs (Std.TransCmp (compareOn Number.rank))

theorem isStrict_byNumber (h : wanted ≠ .eq) : IsStrict (byNumber wanted) :=
  isStrict_compare Number.totalCompare h

theorem isStrict_byText (h : wanted ≠ .eq) : IsStrict (byText wanted) :=
  isStrict_compare (compareOn Value.text) h

/-- Of two different doubles one is on the wanted side of the other. -/
theorem eq_of_not_byNumber (h : wanted ≠ .eq) (hxy : byNumber wanted x y = false)
    (hyx : byNumber wanted y x = false) : x = y := by
  have hswap : Number.totalCompare x y = (Number.totalCompare y x).swap := Std.OrientedCmp.eq_swap
  refine Number.totalCompare_eq_iff.mp ?_
  unfold byNumber at hxy hyx
  cases wanted <;> cases hcmp : Number.totalCompare y x <;> simp_all

theorem mem_numbers : x ∈ numbers items ↔ ∃ v ∈ items, v.number? = some x := List.mem_filterMap

theorem numbers_eq_nil_iff : numbers items = [] ↔ ∀ v ∈ items, v.isNumeric = false := by
  simp [numbers, List.filterMap_eq_nil_iff, Value.isNumeric]

theorem numbers_filter (items : List Value) :
    numbers (items.filter (·.isNumeric)) = numbers items := by
  induction items with
  | nil => rfl
  | cons v items ih =>
      unfold numbers at ih ⊢
      cases hv : v.number? with
      | none => rw [List.filter_cons_of_neg (by simp [Value.isNumeric, hv]), ih,
          List.filterMap_cons_none hv]
      | some x => rw [List.filter_cons_of_pos (by simp [Value.isNumeric, hv]),
          List.filterMap_cons_some hv, List.filterMap_cons_some hv, ih]

/-- What is answered where the item that is furthest to the wanted side is asked for. -/
structure IsExtreme (wanted : Ordering) (items : List Value) (v : Value) : Prop where
  /-- Where some item is numeric it is the number of an item, as a double, and the number of no
  item is further to the wanted side. -/
  numeric : (∃ w ∈ items, w.isNumeric = true) → ∃ x, v = .float x ∧
    (∃ w ∈ items, w.number? = some x) ∧
    ∀ w ∈ items, ∀ y, w.number? = some y → byNumber wanted y x = false
  /-- Where no item is numeric it is the first of those whose text is furthest to that side. -/
  textual : items ≠ [] → (∀ w ∈ items, w.isNumeric = false) → Leads (byText wanted) items v
  /-- Where there are no items it is null. -/
  empty : items = [] → v = .null

theorem isExtreme_float (hx : ∃ v ∈ items, v.number? = some x)
    (hbest : ∀ w ∈ items, ∀ y, w.number? = some y → byNumber wanted y x = false) :
    IsExtreme wanted items (.float x) := by
  obtain ⟨v, hv, hx⟩ := hx
  refine ⟨fun _ => ⟨x, rfl, ⟨v, hv, hx⟩, hbest⟩, fun _ hnone => ?_, ?_⟩
  · have hnumeric : v.isNumeric = false := hnone v hv
    rw [Value.isNumeric, hx] at hnumeric
    cases hnumeric
  · rintro rfl
    cases hv

theorem Leads.isExtreme_byText (h : Leads (byText wanted) items v)
    (hnone : ∀ w ∈ items, w.isNumeric = false) : IsExtreme wanted items v := by
  refine ⟨?_, fun _ _ => h, ?_⟩
  · rintro ⟨w, hw, hnumeric⟩
    rw [hnone w hw] at hnumeric
    cases hnumeric
  · rintro rfl
    cases h.mem

theorem isExtreme_null (wanted : Ordering) : IsExtreme wanted [] .null := by
  refine ⟨?_, fun hitems => absurd rfl hitems, fun _ => rfl⟩
  rintro ⟨w, hw, -⟩
  cases hw

theorem isExtreme_extreme (h : wanted ≠ .eq) (items : List Value) :
    IsExtreme wanted items (extreme wanted items) := by
  unfold extreme
  cases hbest : champion (fun x y => Number.totalCompare x y == wanted) (numbers items) with
  | some x =>
      have hleads := (champion_eq_some_iff (isStrict_byNumber h)).mp hbest
      refine isExtreme_float (mem_numbers.mp hleads.mem) fun w hw y hy => ?_
      exact hleads.not_before (isStrict_byNumber h) y (mem_numbers.mpr ⟨w, hw, hy⟩)
  | none =>
      have hnone := numbers_eq_nil_iff.mp (champion_eq_none_iff.mp hbest)
      have hall : items.filter (!·.isNumeric) = items :=
        List.filter_eq_self.mpr fun w hw => by rw [hnone w hw]; rfl
      dsimp only
      rw [hall]
      cases hfirst : champion (fun v w => compare v.text w.text == wanted) items with
      | some v =>
          have hleads := (champion_eq_some_iff (isStrict_byText h)).mp hfirst
          exact hleads.isExtreme_byText hnone
      | none =>
          obtain rfl := champion_eq_none_iff.mp hfirst
          exact isExtreme_null wanted

/-- **There is only one extreme.** -/
theorem IsExtreme.unique (hv : IsExtreme wanted items v) (h : wanted ≠ .eq)
    (hw : IsExtreme wanted items w) : v = w := by
  by_cases hsome : ∃ u ∈ items, u.isNumeric = true
  · obtain ⟨x, rfl, ⟨u, hu, hx⟩, hbest⟩ := hv.numeric hsome
    obtain ⟨y, rfl, ⟨u', hu', hy⟩, hbest'⟩ := hw.numeric hsome
    rw [eq_of_not_byNumber h (hbest' u hu x hx) (hbest u' hu' y hy)]
  · have hnone : ∀ u ∈ items, u.isNumeric = false := by simpa using hsome
    by_cases hitems : items = []
    · rw [hv.empty hitems, hw.empty hitems]
    · exact (hv.textual hitems hnone).unique (hw.textual hitems hnone)

theorem IsExtreme.eq_extreme (hv : IsExtreme wanted items v) (h : wanted ≠ .eq) :
    v = extreme wanted items :=
  hv.unique h (isExtreme_extreme h items)

/-- Where some item is numeric, only which numeric items there are matters. -/
theorem extreme_congr (h : wanted ≠ .eq) (hsome : ∃ v ∈ items, v.isNumeric = true)
    (hsame : ∀ v, v.isNumeric = true → (v ∈ other ↔ v ∈ items)) :
    extreme wanted other = extreme wanted items := by
  have hnumber : ∀ {v x}, v.number? = some x → (v ∈ other ↔ v ∈ items) := fun hx =>
    hsame _ (by rw [Value.isNumeric, hx]; rfl)
  obtain ⟨u, hu, hnumeric⟩ := hsome
  obtain ⟨x, hextreme, ⟨w, hw, hx⟩, hbest⟩ :=
    (isExtreme_extreme h other).numeric ⟨u, (hsame u hnumeric).mpr hu, hnumeric⟩
  rw [hextreme]
  refine (isExtreme_float ⟨w, (hnumber hx).mp hw, hx⟩ fun w hw y hy => ?_).eq_extreme h
  exact hbest w ((hnumber hy).mpr hw) y hy

/-- **The least and the greatest item are sought in two tiers.**

There is one answer that is extreme in either direction, and it is given.  Where some item is
numeric, it stays the same as long as the numeric items do, however the items are arranged and
whatever else is among them; and sum and average do not notice the items that are not numeric
at all. -/
theorem extremes_in_two_tiers (items : List Value) :
    (∀ v, IsExtreme .lt items v ↔ v = least items) ∧
    (∀ v, IsExtreme .gt items v ↔ v = greatest items) ∧
    (∀ other, (∃ v ∈ items, v.isNumeric = true) →
      (∀ v, v.isNumeric = true → (v ∈ other ↔ v ∈ items)) →
        least other = least items ∧ greatest other = greatest items) ∧
    ∀ other, other.filter (·.isNumeric) = items.filter (·.isNumeric) →
      sum other = sum items ∧ average other = average items := by
  have hiff : ∀ {wanted}, wanted ≠ .eq → ∀ v,
      IsExtreme wanted items v ↔ v = extreme wanted items := by
    intro wanted h v
    refine ⟨fun hv => hv.eq_extreme h, ?_⟩
    rintro rfl
    exact isExtreme_extreme h items
  refine ⟨hiff nofun, hiff nofun, fun other hsome hsame => ?_, fun other hsame => ?_⟩
  · exact ⟨extreme_congr nofun hsome hsame, extreme_congr nofun hsome hsame⟩
  · have hnumbers : numbers other = numbers items := by
      rw [← numbers_filter other, hsame, numbers_filter]
    unfold sum average
    rw [hnumbers]
    exact ⟨rfl, rfl⟩

/-- A word, a number, null, and a text that reads as a number. -/
def nineAmongWords : List Value := [.str "pear", .int 9, .null, .str "10"]

theorem numeric_nineAmongWords :
    nineAmongWords.filter (·.isNumeric) = [.int 9, .str "10"] := by
  have hpear : (Value.str "pear").isNumeric = false := by decide +kernel
  have hnine : (Value.int 9).isNumeric = true := rfl
  have hnull : Value.null.isNumeric = false := rfl
  have hten : (Value.str "10").isNumeric = true := by decide +kernel
  simp [nineAmongWords, hpear, hnine, hnull, hten]

/-- A number and the NaNs of either sign. -/
def nineBetweenNans : List Value := [.int 9, .float (-(0.0 / 0.0)), .float (0.0 / 0.0)]

/-- No number is less than the NaN that has its sign bit set, and none greater than the other. -/
theorem extremes_nineBetweenNans :
    least nineBetweenNans = .float (0.0 / 0.0) ∧
      greatest nineBetweenNans = .float (-(0.0 / 0.0)) := by
  have hleast : champion (fun x y => Number.totalCompare x y == .lt) (numbers nineBetweenNans)
      = some (0.0 / 0.0) := by decide +kernel
  have hgreatest : champion (fun x y => Number.totalCompare x y == .gt) (numbers nineBetweenNans)
      = some (-(0.0 / 0.0)) := by decide +kernel
  constructor
  · rw [least, extreme, hleast]
  · rw [greatest, extreme, hgreatest]

/-- Nine is the least and nineteen the sum, also where the word and null are left out, and the
least also where the numbers are turned round; where no item is numeric, the first of two with
the greatest text is the greatest; and NaNs stand at the ends. -/
theorem nineAmongWords_extremes :
    ((∃ v ∈ nineAmongWords, v.isNumeric = true) ∧ least nineAmongWords = .float 9 ∧
      least [.str "10", .int 9] = .float 9) ∧
    (sum nineAmongWords = 19 ∧ sum [.int 9, .str "10"] = 19) ∧
    (greatest [.null, .str "true", .bool true] = .str "true" ∧
      IsExtreme .gt [.null, .str "true", .bool true] (.str "true")) ∧
    IsExtreme .lt nineBetweenNans (.float (0.0 / 0.0)) ∧
      IsExtreme .gt nineBetweenNans (.float (-(0.0 / 0.0))) := by
  obtain ⟨hleast, -, harranged, hsums⟩ := extremes_in_two_tiers nineAmongWords
  obtain ⟨-, hgreatest, -, -⟩ := extremes_in_two_tiers [.null, .str "true", .bool true]
  have hsome : ∃ v ∈ nineAmongWords, v.isNumeric = true := ⟨.int 9, by simp [nineAmongWords], rfl⟩
  have hnine : least nineAmongWords = .float 9 := by
    have hbest : ∀ y ∈ numbers nineAmongWords, byNumber .lt y 9 = false := by decide +kernel
    have hnumber : (Value.int 9).number? = some 9 := by decide +kernel
    refine ((hleast _).mp (isExtreme_float ⟨.int 9, by simp [nineAmongWords], hnumber⟩ ?_)).symm
    intro w hw y hy
    exact hbest y (mem_numbers.mpr ⟨w, hw, hy⟩)
  have hsame : ∀ v, v.isNumeric = true → (v ∈ [.str "10", .int 9] ↔ v ∈ nineAmongWords) := by
    intro v hnumeric
    rw [← and_iff_left (a := v ∈ nineAmongWords) hnumeric, ← List.mem_filter,
      numeric_nineAmongWords]
    simp [or_comm]
  have hsum : sum nineAmongWords = 19 := by decide +kernel
  have hfirst : greatest [.null, .str "true", .bool true] = .str "true" := by cbv
  obtain ⟨hlow, hhigh, -, -⟩ := extremes_in_two_tiers nineBetweenNans
  obtain ⟨hbelow, habove⟩ := extremes_nineBetweenNans
  refine ⟨⟨hsome, hnine, ?_⟩, ⟨hsum, ?_⟩, ⟨hfirst, (hgreatest _).mpr hfirst.symm⟩,
    (hlow _).mpr hbelow.symm, (hhigh _).mpr habove.symm⟩
  · exact (harranged _ hsome hsame).1.trans hnine
  · refine (hsums _ ?_).1.trans hsum
    rw [← numeric_nineAmongWords, List.filter_filter]
    simp

end LambdaShell.Items
