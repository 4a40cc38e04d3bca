/-
No record of a session has two fields of one name.

A data line brings no records.  From then on items come from items: they are kept, moved or
projected by lambdas, which repeat no name, or they are rows of groups, whose two names
differ.  So whatever a command puts in the place of the present items is well named if they
are, and so is all that lies in the past and the future of the timeline, where items only
get by way of the present.

What is exported can repeat no name either: the keys of its objects and the heads of its
columns are the names of records.
-/
import LambdaShell.Proofs.Command.Effects
import LambdaShell.Proofs.Export.Csv
import LambdaShell.Proofs.Export.Json
import LambdaShell.Proofs.Expr.Records
import LambdaShell.Proofs.Items.Members
import LambdaShell.Proofs.Session.LifeCycle

namespace LambdaShell

open Text Value

variable {dest : Destination} {c : Command} {items next : List Value} {v : Value}

/-! ### Rows of groups -/

theorem Aggregate.field_ne_key (a : Aggregate) : a.field ≠ "Key" := by
  cases a <;> decide

/-- An extreme item is one of the items, or it holds no others. -/
theorem Items.wellNamed_extreme (h : ∀ v ∈ items, v.WellNamed) (wanted : Ordering) :
    (extreme wanted items).WellNamed := by
  rcases extreme_cases wanted items with hmem | ⟨x, hx⟩ | hnull
  · exact h _ hmem
  · rw [hx]
    exact wellNamed_of_isScalar rfl
  · rw [hnull]
    exact wellNamed_of_isScalar rfl

theorem Aggregate.wellNamed_apply (a : Aggregate) (h : ∀ v ∈ items, v.WellNamed) :
    (a.apply items).WellNamed := by
  cases a with
  | min => exact Items.wellNamed_extreme h .lt
  | max => exact Items.wellNamed_extreme h .gt
  | items => exact wellNamed_list.mpr h
  | _ => exact wellNamed_of_isScalar rfl

theorem Groups.wellNamed_row {g : Group} (a : Aggregate) (hkey : g.key.WellNamed)
    (hmembers : ∀ v ∈ g.members, v.WellNamed) : (row a g).WellNamed := by
  refine wellNamed_record.mpr ⟨?_, ?_⟩
  · show ["Key", a.field].Nodup
    simp [a.field_ne_key.symm]
  · simp [hkey, a.wellNamed_apply hmembers]

/-! ### Commands -/

namespace Command

/-- What a command puts in the place of well-named items is well named. -/
theorem Yields.wellNamed (h : c.Yields items next) (hitems : ∀ v ∈ items, v.WellNamed) :
    ∀ v ∈ next, v.WellNamed := by
  cases h with
  | filter hp h => exact fun v hv => hitems v (Items.mem_of_filter h v hv)
  | select hf h =>
      intro w hw
      obtain ⟨v, hv, hcall⟩ := Items.mem_of_select h w hw
      exact Lambda.wellNamed_call hf (hitems v hv) hcall
  | orderBy hf h => exact fun v hv => hitems v (Items.mem_of_orderBy h v hv)
  | groupBy hf h =>
      intro w hw
      obtain ⟨g, hg, rfl⟩ := List.mem_map.mp hw
      obtain ⟨⟨v, hv, hcall⟩, hmembers⟩ := Items.mem_of_groupBy h g hg
      exact Groups.wellNamed_row _ (Lambda.wellNamed_call hf (hitems v hv) hcall)
        fun u hu => hitems u (hmembers u hu)
  | take => exact fun v hv => hitems v (List.mem_of_mem_take hv)
  | skip => exact fun v hv => hitems v (List.mem_of_mem_drop hv)
  | distinct => exact fun v hv => hitems v (Items.mem_of_distinct v hv)

/-- An item that is looked for is one of the items, or null if there is none. -/
theorem wellNamed_of_found {v? : Option Value} (hitems : ∀ v ∈ items, v.WellNamed)
    (hfound : ∀ v, v? = some v → v ∈ items) : (v?.getD .null).WellNamed := by
  cases v? with
  | none => exact wellNamed_of_isScalar rfl
  | some v => exact hitems v (hfound v rfl)

/-- An item that is reported of well-named items is well named. -/
theorem Says.wellNamed (h : c.Says dest items (.item v)) (hitems : ∀ v ∈ items, v.WellNamed) :
    v.WellNamed := by
  cases h with
  | head => exact wellNamed_of_found hitems fun v hv => List.mem_of_head? hv
  | first hp h =>
      refine wellNamed_of_found hitems fun v hv => ?_
      rw [hv] at h
      exact Items.mem_of_find h
  | final => exact wellNamed_of_found hitems fun v hv => List.mem_of_getLast? hv
  | last hp h =>
      refine wellNamed_of_found hitems fun v hv => ?_
      rw [hv] at h
      exact List.mem_reverse.mp (Items.mem_of_find h)
  | min => exact Items.wellNamed_extreme hitems .lt
  | max => exact Items.wellNamed_extreme hitems .gt

end Command

/-! ### Files -/

/-- No object in the file has a key twice, and no two columns have one head. -/
structure ExportFile.RepeatsNoName (file : ExportFile) : Prop where
  objects : file.format = .json → ∀ keys ∈ Json.objects file.content.toList, keys.Nodup
  header : file.format = .csv → ∀ heads ∈ (Csv.read file.content.toList).head?, heads.Nodup

theorem ExportFile.repeatsNoName_ofItems (hitems : ∀ v ∈ items, v.WellNamed)
    (format : ExportFormat) : (ofItems dest format items).RepeatsNoName := by
  constructor
  · rintro rfl
    show ∀ keys ∈ Json.objects ((list items).prettyJson 0).toList, keys.Nodup
    rw [Json.objects_prettyJson]
    exact (wellNamed_list.mpr hitems).nodup
  · rintro rfl
    show ∀ heads ∈ (Csv.read (Csv.write items).toList).head?, heads.Nodup
    rw [Csv.write, String.toList_ofList, Csv.read_rows]
    intro heads hheads
    unfold Csv.table at hheads
    split at hheads
    · cases hheads
    · cases hheads
      exact (wellNamed_record.mp (hitems _ List.mem_cons_self)).1
    · rw [List.head?_map] at hheads
      obtain ⟨first, -, rfl⟩ := Option.mem_map.mp hheads
      exact List.nodup_singleton _

/-! ### Timelines -/

/-- All items of the loaded data and of all states are like that. -/
structure Timeline.Throughout (P : Value → Prop) (t : Timeline) : Prop where
  loaded : ∀ v ∈ t.loaded, P v
  past : ∀ items ∈ t.past, ∀ v ∈ items, P v
  current : ∀ v ∈ t.current, P v
  future : ∀ items ∈ t.future, ∀ v ∈ items, P v

namespace Timeline

variable {P : Value → Prop} {t : Timeline}

theorem throughout_start (h : ∀ v ∈ items, P v) : (start items).Throughout P :=
  ⟨h, List.forall_mem_nil _, h, List.forall_mem_nil _⟩

/-- What is true throughout remains so as long as it is true of the items that a command
brings in. -/
theorem Throughout.step (h : t.Throughout P)
    (hnext : ∀ next, c.Yields t.current next → ∀ v ∈ next, P v) :
    (t.step dest c).2.Throughout P := by
  have hruns := c.execute_runs dest t
  unfold Timeline.step
  generalize c.execute dest t = result at hruns ⊢
  obtain ⟨hloaded, hpast, hcurrent, hfuture⟩ := h
  cases hruns with
  | replaced hyields =>
      exact ⟨hloaded, List.forall_mem_cons.mpr ⟨hcurrent, hpast⟩, hnext _ hyields,
        List.forall_mem_nil _⟩
  | undone hbefore =>
      obtain ⟨loaded, past, current, future⟩ := t
      cases past with
      | nil => cases hbefore
      | cons p past =>
          cases hbefore
          obtain ⟨hp, hpast⟩ := List.forall_mem_cons.mp hpast
          exact ⟨hloaded, hpast, hp, List.forall_mem_cons.mpr ⟨hcurrent, hfuture⟩⟩
  | redone hafter =>
      obtain ⟨loaded, past, current, future⟩ := t
      cases future with
      | nil => cases hafter
      | cons f future =>
          cases hafter
          obtain ⟨hf, hfuture⟩ := List.forall_mem_cons.mp hfuture
          exact ⟨hloaded, List.forall_mem_cons.mpr ⟨hcurrent, hpast⟩, hf, hfuture⟩
  | reset => exact throughout_start hloaded
  | _ => exact ⟨hloaded, hpast, hcurrent, hfuture⟩

theorem wellNamed_runAll (h : t.Throughout WellNamed) (run : List (Destination × Command)) :
    (t.runAll run).Throughout WellNamed := by
  induction run generalizing t with
  | nil => exact h
  | cons p run ih =>
      exact ih (h.step fun next hnext => hnext.wellNamed h.current)

end Timeline

/-! ### Sessions -/

/--
**No record of a session has two fields of one name.**

Whatever lines a session has read, and in whatever order: if it works, no record in the
data it started from, in its present items or in any state of its past and its future has a
repeated name, however deep it lies; nor has any in an item that a command reports.  The
objects of an exported file repeat no key and its header no column.
-/
theorem Session.records_repeat_no_name (run : List (Destination × List Char)) (t : Timeline)
    (h : awaiting.after run = working t) :
    t.Throughout WellNamed ∧
      ∀ (dest : Destination) (c : Command) (answer : Answer) (next : Timeline),
        c.execute dest t = .ok answer next →
          (∀ v, answer = .item v → v.WellNamed) ∧
          ∀ file, answer = .exported file → file.RepeatsNoName := by
  have hdata : ∃ p ∈ run, BringsData p.2 := by
    by_contra hnone
    rw [(after_eq_awaiting run).mpr fun p hp hbrings => hnone ⟨p, hp, hbrings⟩] at h
    cases h
  obtain ⟨before, dest, line, later, rfl, hbefore, hline⟩ := exists_first_data hdata
  rw [after_first_data hbefore hline] at h
  cases h
  have hwhole := Timeline.wellNamed_runAll
    (Timeline.throughout_start (wellNamed_of_readData (trim line))) (commands later)
  refine ⟨hwhole, fun dest c answer next hrun => ⟨?_, ?_⟩⟩
  · rintro v rfl
    exact (Command.says_of_execute hrun rfl).1.wellNamed hwhole.current
  · rintro file rfl
    obtain ⟨hsaid, -⟩ := Command.says_of_execute hrun rfl
    cases hsaid
    exact ExportFile.repeatsNoName_ofItems hwhole.current _

/-- A group whose key is a record. -/
def groupLines : List (Destination × List Char) :=
  ["7", "groupby x => new \x7b A = x, B = x \x7d"].map fun line => (⟨".", "", none⟩, line.toList)

/-- The group as an item. -/
def groupItem : Value :=
  .record [("Key", .record [("A", .int 7), ("B", .int 7)]), ("Items", .list [.int 7])]

/-- The timeline behind the lines. -/
def groupTimeline : Timeline := ⟨[.int 7], [[.int 7]], [groupItem], []⟩

/-- The group is the present item and is reported as the first one; in a file it makes two
objects. -/
theorem groupItem_repeats_no_name :
    Session.awaiting.after groupLines = .working groupTimeline ∧
      groupTimeline.Throughout WellNamed ∧
      (Command.first none).execute ⟨".", "", none⟩ groupTimeline
        = .ok (.item groupItem) groupTimeline ∧
      groupItem.WellNamed ∧ groupItem.recordNames = [["A", "B"], ["Key", "Items"]] ∧
      (ExportFile.ofItems ⟨".", "", none⟩ .json [groupItem]).RepeatsNoName := by
  have hafter : Session.awaiting.after groupLines = .working groupTimeline := by cbv
  obtain ⟨hwhole, hanswers⟩ := Session.records_repeat_no_name groupLines groupTimeline hafter
  have hfirst : (Command.first none).execute ⟨".", "", none⟩ groupTimeline
      = .ok (.item groupItem) groupTimeline := rfl
  have hexport : (Command.exportTo .json).execute ⟨".", "", none⟩ groupTimeline
      = .ok (.exported (.ofItems ⟨".", "", none⟩ .json [groupItem])) groupTimeline := rfl
  exact ⟨hafter, hwhole, hfirst, (hanswers _ _ _ _ hfirst).1 _ rfl, rfl,
    (hanswers _ _ _ _ hexport).2 _ rfl⟩

end LambdaShell
