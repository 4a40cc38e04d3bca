/-
What the reporting commands say, told by what `filter` keeps.

Six commands run one predicate over the same items.  `filter` and `count` go through all of
them, `any`, `all` and `first` stop as soon as they know the answer, and `last` does the same
from behind.  Where the predicate has a verdict on every item they all say what can be read off
the items that are kept.  Where it fails on some item, `filter` fails with the first failure;
a command that stops early does so too unless the matter was settled before it came to the
failing item, and for `last`, which comes from behind, that is the last failing item.

All of this is one equation about a search: it finds the first item that passes in a front that
has verdicts, or else goes on behind it.  `any` is a search, `all` is a search for the opposite,
and `last` is a search backwards.
-/
import LambdaShell.Proofs.Command.Effects
import Mathlib

namespace LambdaShell

/-! ### Outcomes that hinge on a condition -/

/-- The outcome is `yes` if the matter is settled, and else it is `no`. -/
structure HingesOn {α : Type} (outcome : α) (settled : Prop) (yes no : α) : Prop where
  answer : settled → outcome = yes
  failure : ¬ settled → outcome = no

theorem HingesOn.map {α β : Type} {outcome yes no : α} {settled : Prop}
    (h : HingesOn outcome settled yes no) (f : α → β) :
    HingesOn (f outcome) settled (f yes) (f no) :=
  ⟨fun hs => congrArg f (h.answer hs), fun hs => congrArg f (h.failure hs)⟩

namespace Items

variable {test : Value → Outcome? Bool} {items before after kept : List Value} {v : Value}
  {e : EvalError}

/-! ### Verdicts -/

/-- The test passes the item. -/
def passes (test : Value → Outcome? Bool) (v : Value) : Bool :=
  match test v with
  | .ok b => b
  | .error _ => false

theorem passes_of_ok {b : Bool} (h : test v = .ok b) : passes test v = b := by
  simp [passes, h]

theorem passes_iff : passes test v = true ↔ test v = .ok true := by
  cases h : test v with
  | ok b => simp [passes_of_ok h]
  | error e => simp [passes, h]

/-- The test has a verdict on every item. -/
def Decides (test : Value → Outcome? Bool) (items : List Value) : Prop :=
  ∀ v ∈ items, ∃ b, test v = .ok b

theorem Decides.reverse (h : Decides test items) : Decides test items.reverse := by
  intro v hv
  exact h v (List.mem_reverse.mp hv)

theorem filter_of_decides (h : Decides test items) :
    filter test items = .ok (items.filter (passes test)) := by
  induction items with
  | nil => rfl
  | cons v items ih =>
      obtain ⟨⟨b, hb⟩, hrest⟩ := List.forall_mem_cons.mp h
      rw [filter, hb, ih hrest, List.filter_cons, passes_of_ok hb]
      rfl

theorem decides_of_filter (h : filter test items = .ok kept) : Decides test items := by
  induction items generalizing kept with
  | nil => exact List.forall_mem_nil _
  | cons v items ih =>
      obtain ⟨b, hb, h⟩ := Outcome.bind_eq_ok.mp h
      obtain ⟨rest, hrest, -⟩ := Outcome.bind_eq_ok.mp h
      exact List.forall_mem_cons.mpr ⟨⟨b, hb⟩, ih hrest⟩

/-- Filtering succeeds where there are verdicts, and keeps what passes. -/
theorem filter_eq_ok_iff :
    filter test items = .ok kept ↔ Decides test items ∧ items.filter (passes test) = kept := by
  constructor
  · intro h
    have hdecides := decides_of_filter h
    rw [filter_of_decides hdecides] at h
    exact ⟨hdecides, Except.ok.inj h⟩
  · rintro ⟨hdecides, rfl⟩
    exact filter_of_decides hdecides

/-! ### The first and the last failure -/

/-- The first item on which the test fails stands right behind `before`, and it fails there
with `e`. -/
structure FailsFirst (test : Value → Outcome? Bool) (items before : List Value)
    (e : EvalError) : Prop where
  decides : Decides test before
  split : ∃ v after, items = before ++ v :: after ∧ test v = .error e

/-- The last item on which the test fails stands right in front of `after`, and it fails there
with `e`. -/
structure FailsLast (test : Value → Outcome? Bool) (items after : List Value)
    (e : EvalError) : Prop where
  decides : Decides test after
  split : ∃ before v, items = before ++ v :: after ∧ test v = .error e

theorem FailsLast.reverse (h : FailsLast test items after e) :
    FailsFirst test items.reverse after.reverse e := by
  obtain ⟨before, v, hitems, hv⟩ := h.split
  refine ⟨h.decides.reverse, v, before.reverse, ?_, hv⟩
  rw [hitems]
  simp

/-- A filter that fails does so with the first failure. -/
theorem exists_failsFirst (h : filter test items = .error e) :
    ∃ before, FailsFirst test items before e := by
  induction items with
  | nil => cases h
  | cons v items ih =>
      rcases Outcome.bind_eq_error.mp h with hv | ⟨b, hb, h⟩
      · exact ⟨[], List.forall_mem_nil _, v, items, rfl, hv⟩
      · rcases Outcome.bind_eq_error.mp h with hrest | ⟨rest, -, h⟩
        · obtain ⟨before, hdecides, u, after, rfl, hu⟩ := ih hrest
          have hfront : Decides test (v :: before) := List.forall_mem_cons.mpr ⟨⟨b, hb⟩, hdecides⟩
          exact ⟨v :: before, hfront, u, after, rfl, hu⟩
        · cases h

/-- Where there is a first failure there is a last one. -/
theorem exists_failsLast (h : filter test items = .error e) :
    ∃ after d, FailsLast test items after d := by
  have hfails : ∀ kept, filter test items.reverse ≠ .ok kept := by
    intro kept hkept
    have hdecides := (decides_of_filter hkept).reverse
    rw [List.reverse_reverse] at hdecides
    rw [filter_of_decides hdecides] at h
    cases h
  obtain ⟨d, hd⟩ := Outcome.exists_error hfails
  obtain ⟨front, hfront, v, back, hsplit, hv⟩ := exists_failsFirst hd
  refine ⟨front.reverse, d, hfront.reverse, back.reverse, v, ?_, hv⟩
  rw [← List.reverse_reverse items, hsplit]
  simp

/-! ### Searches -/

/-- A search finds the first item that passes in a front that has verdicts, or else goes on
behind it. -/
theorem find_append (h : Decides test before) (rest : List Value) :
    find test (before ++ rest)
      = (before.filter (passes test)).head?.elim (find test rest) fun v => .ok (some v) := by
  induction before with
  | nil => rfl
  | cons v before ih =>
      obtain ⟨⟨b, hb⟩, hrest⟩ := List.forall_mem_cons.mp h
      rw [List.cons_append, find, hb, List.filter_cons, passes_of_ok hb]
      cases b with
      | true => rfl
      | false => exact ih hrest

theorem any_eq_find (test : Value → Outcome? Bool) (items : List Value) :
    any test items = (find test items).map Option.isSome := by
  induction items with
  | nil => rfl
  | cons v items ih =>
      rw [any, find]
      cases test v with
      | error e => rfl
      | ok b =>
          cases b with
          | true => rfl
          | false => exact ih

/-- The test with the opposite verdicts. -/
def opposite (test : Value → Outcome? Bool) (v : Value) : Outcome? Bool := (test v).map (!·)

theorem opposite_eq_ok {b : Bool} : opposite test v = .ok b ↔ test v = .ok (!b) := by
  unfold opposite
  cases test v with
  | error e => simp [Except.map]
  | ok c => cases b <;> cases c <;> simp [Except.map]

theorem Decides.opposite (h : Decides test items) : Decides (opposite test) items := by
  intro v hv
  obtain ⟨b, hb⟩ := h v hv
  exact ⟨!b, opposite_eq_ok.mpr (by rwa [Bool.not_not])⟩

theorem FailsFirst.opposite (h : FailsFirst test items before e) :
    FailsFirst (opposite test) items before e := by
  obtain ⟨v, after, hitems, hv⟩ := h.split
  refine ⟨h.decides.opposite, v, after, hitems, ?_⟩
  rw [Items.opposite, hv]
  rfl

theorem all_eq_any (test : Value → Outcome? Bool) (items : List Value) :
    all test items = (any (opposite test) items).map (!·) := by
  induction items with
  | nil => rfl
  | cons v items ih =>
      rw [all, any, opposite]
      cases test v with
      | error e => rfl
      | ok b =>
          cases b with
          | true => exact ih
          | false => rfl

/-! ### Searches that meet no failure -/

theorem find_of_filter (h : filter test items = .ok kept) : find test items = .ok kept.head? := by
  obtain ⟨hdecides, rfl⟩ := filter_eq_ok_iff.mp h
  have hfind := find_append hdecides []
  rw [List.append_nil] at hfind
  rw [hfind]
  cases (items.filter (passes test)).head? with
  | none => rfl
  | some v => rfl

theorem find_reverse_of_filter (h : filter test items = .ok kept) :
    find test items.reverse = .ok kept.getLast? := by
  obtain ⟨hdecides, rfl⟩ := filter_eq_ok_iff.mp h
  rw [find_of_filter (filter_of_decides hdecides.reverse), List.filter_reverse, List.head?_reverse]

theorem any_of_filter (h : filter test items = .ok kept) : any test items = .ok !kept.isEmpty := by
  rw [any_eq_find, find_of_filter h]
  cases kept with
  | nil => rfl
  | cons v kept => rfl

theorem all_of_filter (h : filter test items = .ok kept) :
    all test items = .ok (kept.length == items.length) := by
  obtain ⟨hdecides, rfl⟩ := filter_eq_ok_iff.mp h
  have hcount : (items.filter (passes (opposite test))).isEmpty
      = ((items.filter (passes test)).length == items.length) := by
    rw [Bool.eq_iff_iff, List.isEmpty_iff, List.filter_eq_nil_iff, beq_iff_eq,
      List.length_filter_eq_length_iff]
    refine forall₂_congr fun v hv => ?_
    obtain ⟨b, hb⟩ := hdecides v hv
    rw [passes_iff, passes_iff, opposite_eq_ok, hb]
    cases b <;> simp
  rw [all_eq_any, any_of_filter (filter_of_decides hdecides.opposite), ← hcount]
  simp [Except.map]

/-! ### Searches that may meet a failure -/

theorem exists_passes_iff :
    (∃ v ∈ items, test v = .ok true) ↔ items.filter (passes test) ≠ [] := by
  simp [List.filter_eq_nil_iff, passes_iff]

/-- A search fails with the first failure unless an item in front of it passes. -/
theorem FailsFirst.find (h : FailsFirst test items before e) :
    HingesOn (find test items) (∃ v ∈ before, test v = .ok true)
      (.ok (before.filter (passes test)).head?) (.error e) := by
  obtain ⟨v, after, hitems, hv⟩ := h.split
  have hrest : Items.find test (v :: after) = .error e := by
    rw [Items.find, hv]
    rfl
  rw [hitems, find_append h.decides, hrest, exists_passes_iff]
  cases before.filter (passes test) with
  | nil => exact ⟨fun hne => absurd rfl hne, fun _ => rfl⟩
  | cons u kept => exact ⟨fun _ => rfl, fun hnil => absurd (List.cons_ne_nil u kept) hnil⟩

theorem FailsFirst.any (h : FailsFirst test items before e) :
    HingesOn (any test items) (∃ v ∈ before, test v = .ok true) (.ok true) (.error e) := by
  rw [any_eq_find]
  have hfind := h.find.map (·.map Option.isSome)
  refine ⟨fun hs => ?_, hfind.failure⟩
  rw [hfind.answer hs]
  exact congrArg Except.ok (List.isSome_head?.mpr (exists_passes_iff.mp hs))

theorem FailsFirst.all (h : FailsFirst test items before e) :
    HingesOn (all test items) (∃ v ∈ before, test v = .ok false) (.ok false) (.error e) := by
  have hopposite := h.opposite.any.map (·.map (!·))
  simp only [opposite_eq_ok, Bool.not_true] at hopposite
  rw [all_eq_any]
  exact hopposite

theorem FailsLast.find (h : FailsLast test items after e) :
    HingesOn (find test items.reverse) (∃ v ∈ after, test v = .ok true)
      (.ok (after.filter (passes test)).getLast?) (.error e) := by
  have hreverse := h.reverse.find
  rw [List.filter_reverse, List.head?_reverse] at hreverse
  simpa only [List.mem_reverse] using hreverse

end Items

/-! ### Commands -/

namespace Command

open Items

variable {dest : Destination} {t : Timeline} {c : Command} {s : String} {p : Lambda} {e : EvalError}

/-- What becomes of a timeline when a command says what it found out, or why it did not. -/
def reported {α : Type} (c : Command) (t : Timeline) (f : α → Answer) (found : Outcome? α) :
    EStateM.Result Failure Timeline Answer :=
  Action.ofResult ((found.mapError c.failure).map f) t

/-- A command that says what it finds out with its lambda leaves the timeline as it is. -/
theorem execute_of_say {α : Type} {ask : (Value → Outcome? Bool) → Outcome? α} {f : α → Answer}
    {plain : α} (hp : Lambda.compile s.toList .boolean = .ok p)
    (heffect : c.effect dest t.current = .say ((c.queryIfGiven (some s) plain ask).map f)) :
    c.execute dest t = c.reported t f (ask p.test) := by
  have hquery : c.queryIfGiven (some s) plain ask = (ask p.test).mapError c.failure :=
    query_of_compile hp
  rw [execute_of_effect heffect, hquery]
  rfl

theorem execute_filter (hp : Lambda.compile s.toList .boolean = .ok p) :
    (filter s).execute dest t = Action.perform
      (.replace ((Items.filter p.test t.current).mapError (filter s).failure)) t := by
  refine execute_of_effect ?_
  rw [effect, query_of_compile hp]

variable (dest t) in
/-- **The reporting commands agree with `filter`.**

Where `filter` succeeds, `count`, `any`, `all`, `first` and `last` say how many items it keeps,
whether there are any, whether it keeps all, and which is the first and the last of them.  Where
it fails, `count` fails for the same reason; `any` and `first` answer exactly if an item that
passes stands in front of the first failing one, `all` exactly if one that does not pass does,
and `last` exactly if an item that passes stands behind the last failing one.  Otherwise `last`
fails as the last failing item does, and the others as the first.  None of them changes
anything but `filter`. -/
theorem reports_agree_with_filter (hp : Lambda.compile s.toList .boolean = .ok p) :
    (∀ kept, Items.filter p.test t.current = .ok kept →
      (filter s).execute dest t = .ok (.updated .applied) (t.push kept) ∧
      (count (some s)).execute dest t = .ok (.count kept.length) t ∧
      (any (some s)).execute dest t = .ok (.bool !kept.isEmpty) t ∧
      (all (some s)).execute dest t = .ok (.bool (kept.length == t.current.length)) t ∧
      (first (some s)).execute dest t = .ok (.item (kept.head?.getD .null)) t ∧
      (last (some s)).execute dest t = .ok (.item (kept.getLast?.getD .null)) t) ∧
    ∀ e, Items.filter p.test t.current = .error e →
      (filter s).execute dest t = .error ((filter s).failure e) t ∧
      (count (some s)).execute dest t = .error ((count (some s)).failure e) t ∧
      (∃ before, FailsFirst p.test t.current before e) ∧
      (∃ after d, FailsLast p.test t.current after d) ∧
      (∀ before, FailsFirst p.test t.current before e →
        HingesOn ((any (some s)).execute dest t) (∃ v ∈ before, p.test v = .ok true)
          (.ok (.bool true) t) (.error ((any (some s)).failure e) t) ∧
        HingesOn ((all (some s)).execute dest t) (∃ v ∈ before, p.test v = .ok false)
          (.ok (.bool false) t) (.error ((all (some s)).failure e) t) ∧
        HingesOn ((first (some s)).execute dest t) (∃ v ∈ before, p.test v = .ok true)
          (.ok (.item ((before.filter (passes p.test)).head?.getD .null)) t)
          (.error ((first (some s)).failure e) t)) ∧
      ∀ after d, FailsLast p.test t.current after d →
        HingesOn ((last (some s)).execute dest t) (∃ v ∈ after, p.test v = .ok true)
          (.ok (.item ((after.filter (passes p.test)).getLast?.getD .null)) t)
          (.error ((last (some s)).failure d) t) := by
  have hcount : (count (some s)).execute dest t = _ := execute_of_say hp rfl
  have hany : (any (some s)).execute dest t = _ := execute_of_say hp rfl
  have hall : (all (some s)).execute dest t = _ := execute_of_say hp rfl
  have hfirst : (first (some s)).execute dest t = _ := execute_of_say hp rfl
  have hlast : (last (some s)).execute dest t = _ := execute_of_say hp rfl
  rw [execute_filter hp, hcount, hany, hall, hfirst, hlast]
  constructor
  · intro kept hkept
    rw [hkept, any_of_filter hkept, all_of_filter hkept, find_of_filter hkept,
      find_reverse_of_filter hkept]
    exact ⟨rfl, rfl, rfl, rfl, rfl, rfl⟩
  · intro e he
    rw [he]
    refine ⟨rfl, rfl, exists_failsFirst he, exists_failsLast he, ?_, ?_⟩
    · intro before h
      exact ⟨h.any.map (reported _ t _), h.all.map (reported _ t _), h.find.map (reported _ t _)⟩
    · intro after d h
      exact h.find.map (reported _ t _)

/-- A predicate that fails on a word. -/
def overTwo : Lambda := ⟨"x => (int)x > 2", .boolean,
  ⟨"x", .binary ⟨5, 15⟩ .gt (.cast ⟨5, 11⟩ .int (.name ⟨10, 11⟩ "x")) (.literal ⟨14, 15⟩ (.int 2))⟩⟩

/-- Three numbers of which the predicate keeps two. -/
def threeNumbers : Timeline := .start [.int 5, .int 1, .int 7]

/-- A number and a word, and behind them a word and a number. -/
def wordsBetween : Timeline := .start [.int 5, .str "a", .str "b", .int 1]

/-- Among numbers all commands answer.  Where words stand between them, `any` and `first` have
their answer before the first word; `all` fails as the first word does, and `last`, which meets
no item that passes behind the last word, as that one does. -/
theorem overTwo_reports :
    Lambda.compile overTwo.source.toList .boolean = .ok overTwo ∧
      Items.filter overTwo.test threeNumbers.current = .ok [.int 5, .int 7] ∧
      (all (some overTwo.source)).execute ⟨".", "", none⟩ threeNumbers
        = .ok (.bool false) threeNumbers ∧
      (last (some overTwo.source)).execute ⟨".", "", none⟩ threeNumbers
        = .ok (.item (.int 7)) threeNumbers ∧
      Items.filter overTwo.test wordsBetween.current
        = .error (.invalidCast .string "\"a\"" .int) ∧
      (first (some overTwo.source)).execute ⟨".", "", none⟩ wordsBetween
        = .ok (.item (.int 5)) wordsBetween ∧
      (all (some overTwo.source)).execute ⟨".", "", none⟩ wordsBetween
        = .error ((all none).failure (.invalidCast .string "\"a\"" .int)) wordsBetween ∧
      (last (some overTwo.source)).execute ⟨".", "", none⟩ wordsBetween
        = .error ((last none).failure (.invalidCast .string "\"b\"" .int)) wordsBetween := by
  have hcompile : Lambda.compile overTwo.source.toList .boolean = .ok overTwo := by cbv
  have hkept : Items.filter overTwo.test threeNumbers.current = .ok [.int 5, .int 7] := by cbv
  have hfails : Items.filter overTwo.test wordsBetween.current
      = .error (.invalidCast .string "\"a\"" .int) := by cbv
  obtain ⟨hreports, -⟩ :=
    reports_agree_with_filter ⟨".", "", none⟩ threeNumbers hcompile
  obtain ⟨-, -, -, hall, -, hlast⟩ := hreports _ hkept
  obtain ⟨-, hfailures⟩ :=
    reports_agree_with_filter ⟨".", "", none⟩ wordsBetween hcompile
  obtain ⟨-, -, -, -, hfront, hback⟩ := hfailures _ hfails
  have hfirstWord : FailsFirst overTwo.test wordsBetween.current [.int 5]
      (.invalidCast .string "\"a\"" .int) :=
    ⟨List.forall_mem_singleton.mpr ⟨true, rfl⟩, .str "a", [.str "b", .int 1], rfl, by cbv⟩
  have hlastWord : FailsLast overTwo.test wordsBetween.current [.int 1]
      (.invalidCast .string "\"b\"" .int) :=
    ⟨List.forall_mem_singleton.mpr ⟨false, rfl⟩, [.int 5, .str "a"], .str "b", rfl, by cbv⟩
  have hpasses : overTwo.test (.int 5) = .ok true := rfl
  have hrejects : overTwo.test (.int 1) = .ok false := rfl
  obtain ⟨-, hall', hfirst'⟩ := hfront _ hfirstWord
  refine ⟨hcompile, hkept, hall, hlast, hfails, ?_, ?_, ?_⟩
  · exact hfirst'.answer ⟨.int 5, by simp, hpasses⟩
  · exact hall'.failure (by simp [hpasses])
  · exact (hback _ _ hlastWord).failure (by simp [hrejects])

end Command

end LambdaShell
