/-
What is written as comma-separated values can be read back.

`read` is a reader that knows nothing of the writer: rows end at a line feed, cells at a
comma, and a cell that begins with a quotation mark goes on until the mark that closes it,
two marks standing for one.  A blank line is a row of no cells, so an empty cell can only be
told from it by its quotes.

The reader goes through the text one character at a time, and where it stands is all it
remembers.  At the start of a cell it reads the written form of a text, whatever is in the
text, and is then at the end of a cell that holds just that text; so it is never out of step
with the cells, nor with the rows.
-/
import LambdaShell.Export.Csv

namespace LambdaShell.Csv

/-! ### The reader -/

/-- Where the reader stands. -/
inductive Place where
  /-- Where a row starts. -/
  | row
  /-- Where a cell starts, behind a comma. -/
  | cell
  /-- In a cell without quotes. -/
  | bare
  /-- Between quotes. -/
  | quoted
  /-- Behind a quotation mark that closes a cell unless another one follows. -/
  | closed
  deriving DecidableEq

/-- What has been read. -/
structure Reader where
  /-- The rows that are complete. -/
  rows : List (List String)
  /-- The complete cells of the row that is being read. -/
  cells : List String
  /-- The text of the cell that is being read. -/
  text : List Char
  place : Place
  deriving DecidableEq

namespace Reader

/-- Nothing has been read. -/
def start : Reader := ⟨[], [], [], .row⟩

/-- The cell ends and another one follows. -/
def endCell (r : Reader) : Reader := ⟨r.rows, r.cells ++ [String.ofList r.text], [], .cell⟩

/-- The cell ends and the row with it. -/
def endRow (r : Reader) : Reader := ⟨r.rows ++ [r.cells ++ [String.ofList r.text]], [], [], .row⟩

/-- A row without cells ends. -/
def endBlank (r : Reader) : Reader := ⟨r.rows ++ [[]], [], [], .row⟩

/-- A character that is part of a cell. -/
def keep (r : Reader) (place : Place) (c : Char) : Reader :=
  { r with text := r.text ++ [c], place := place }

/-- A character outside quotes. -/
def outside (r : Reader) (c : Char) : Reader :=
  if c = ',' then r.endCell else if c = '\n' then r.endRow else r.keep .bare c

/-- Reads one more character. -/
def next (r : Reader) (c : Char) : Reader :=
  match r.place with
  | .row =>
    if c = '\n' then r.endBlank else if c = '"' then { r with place := .quoted } else r.outside c
  | .cell => if c = '"' then { r with place := .quoted } else r.outside c
  | .bare => r.outside c
  | .quoted => if c = '"' then { r with place := .closed } else r.keep .quoted c
  | .closed => if c = '"' then r.keep .quoted c else r.outside c

/-- Reads a text. -/
def run (r : Reader) (cs : List Char) : Reader := cs.foldl next r

/-- The rows of the whole text; the last one may lack its line feed. -/
def finish (r : Reader) : List (List String) :=
  if r.place = .row then r.rows else r.endRow.rows

theorem run_append (r : Reader) (us vs : List Char) : r.run (us ++ vs) = (r.run us).run vs :=
  List.foldl_append

end Reader

/-- The rows of a text and their cells. -/
def read (cs : List Char) : List (List String) := (Reader.start.run cs).finish

/-! ### Cells -/

/-- The reader stands where a cell can start. -/
structure Reader.Opens (r : Reader) : Prop where
  place : r.place = .row ∨ r.place = .cell
  text : r.text = []

/-- The reader has gone from the start of a cell to its end, and the cell holds `cs`. -/
structure Reader.Holds (r s : Reader) (cs : List Char) : Prop where
  rows : s.rows = r.rows
  cells : s.cells = r.cells
  text : s.text = cs
  place : s.place = .bare ∨ s.place = .closed

namespace Reader

variable {r s : Reader} {cs : List Char}

theorem Holds.comma (h : r.Holds s cs) :
    s.next ',' = ⟨r.rows, r.cells ++ [String.ofList cs], [], .cell⟩ := by
  obtain ⟨hrows, hcells, htext, hplace⟩ := h
  rcases hplace with hplace | hplace <;> simp [next, hplace, outside, endCell, hrows, hcells, htext]

theorem Holds.lineFeed (h : r.Holds s cs) :
    s.next '\n' = ⟨r.rows ++ [r.cells ++ [String.ofList cs]], [], [], .row⟩ := by
  obtain ⟨hrows, hcells, htext, hplace⟩ := h
  rcases hplace with hplace | hplace <;> simp [next, hplace, outside, endRow, hrows, hcells, htext]

/-- Inside quotes a text is read with its quotation marks doubled. -/
theorem run_doubleQuotes (cs : List Char) : ∀ r : Reader, r.place = .quoted →
    r.run (doubleQuotes cs) = { r with text := r.text ++ cs } := by
  induction cs with
  | nil =>
      intro r _
      simp [doubleQuotes, run]
  | cons c cs ih =>
      intro r hr
      have hstep : r.run (if c = '"' then ['"', '"'] else [c]) = r.keep .quoted c := by
        by_cases hc : c = '"'
        · simp [hc, run, next, hr, keep]
        · simp [hc, run, next, hr]
      have hsplit : doubleQuotes (c :: cs)
          = (if c = '"' then ['"', '"'] else [c]) ++ doubleQuotes cs := rfl
      rw [hsplit, run_append, hstep, ih _ rfl]
      simp [keep, hr]

/-- Outside quotes a text is read as it stands, if nothing in it has a meaning there. -/
theorem run_bare (cs : List Char) (hcs : cs.any needsQuotes = false) : ∀ r : Reader,
    r.place = .bare → r.run cs = { r with text := r.text ++ cs } := by
  induction cs with
  | nil =>
      intro r _
      simp [run]
  | cons c cs ih =>
      intro r hr
      rw [List.any_cons, Bool.or_eq_false_iff] at hcs
      obtain ⟨hc, hcs⟩ := hcs
      have hstep : r.next c = r.keep .bare c := by
        simp only [needsQuotes, Bool.or_eq_false_iff, beq_eq_false_iff_ne, ne_eq] at hc
        simp [next, hr, outside, hc]
      show (r.next c).run cs = _
      rw [hstep, ih hcs _ rfl]
      simp [keep, hr]

/-- **A written cell is read as its text**, whatever the text is. -/
theorem Opens.run_cell (h : r.Opens) (cs : List Char) : r.Holds (r.run (cell cs)) cs := by
  obtain ⟨hplace, htext⟩ := h
  by_cases hquoted : cs = [] ∨ cs.any needsQuotes = true
  · have hopen : r.next '"' = { r with place := .quoted } := by
      rcases hplace with hplace | hplace <;> simp [next, hplace]
    have hclose : r.run (cell cs) = { r with text := cs, place := .closed } := by
      rw [cell, if_pos hquoted, List.cons_append]
      show (r.next '"').run (doubleQuotes cs ++ ['"']) = _
      rw [hopen, run_append, run_doubleQuotes cs _ rfl]
      simp [run, next, htext]
    rw [hclose]
    exact ⟨rfl, rfl, rfl, Or.inr rfl⟩
  · have hbare : r.run (cell cs) = { r with text := cs, place := .bare } := by
      rw [cell, if_neg hquoted]
      rw [not_or, Bool.not_eq_true] at hquoted
      obtain ⟨hne, hplain⟩ := hquoted
      cases cs with
      | nil => exact absurd rfl hne
      | cons c cs =>
          rw [List.any_cons, Bool.or_eq_false_iff] at hplain
          obtain ⟨hc, hplain⟩ := hplain
          have hstep : r.next c = r.keep .bare c := by
            simp only [needsQuotes, Bool.or_eq_false_iff, beq_eq_false_iff_ne, ne_eq] at hc
            rcases hplace with hplace | hplace <;> simp [next, hplace, outside, hc]
          show (r.next c).run cs = _
          rw [hstep, run_bare cs hplain _ rfl]
          simp [keep, htext]
    rw [hbare]
    exact ⟨rfl, rfl, rfl, Or.inl rfl⟩

/-! ### Rows -/

/-- The rest of a row, from the start of one of its cells on, is read as its cells. -/
theorem run_cells (cells : List String) (hne : cells ≠ []) : ∀ r : Reader, r.Opens →
    r.run (row cells) = ⟨r.rows ++ [r.cells ++ cells], [], [], .row⟩ := by
  induction cells with
  | nil => exact absurd rfl hne
  | cons c cells ih =>
      intro r hr
      have hcell := hr.run_cell c.toList
      cases cells with
      | nil =>
          have hrow : row [c] = cell c.toList ++ ['\n'] := by simp [row]
          rw [hrow, run_append]
          show (r.run (cell c.toList)).next '\n' = _
          rw [hcell.lineFeed, String.ofList_toList]
      | cons d cells =>
          have hrow : row (c :: d :: cells) = cell c.toList ++ ',' :: row (d :: cells) := by
            simp [row, List.intercalate]
          rw [hrow, run_append]
          show ((r.run (cell c.toList)).next ',').run (row (d :: cells)) = _
          rw [hcell.comma, String.ofList_toList, ih (List.cons_ne_nil d cells) _ ⟨Or.inr rfl, rfl⟩]
          simp

/-- A written row is read as its cells, also if it has none. -/
theorem run_row (cells : List String) (rows : List (List String)) :
    Reader.run ⟨rows, [], [], .row⟩ (row cells) = ⟨rows ++ [cells], [], [], .row⟩ := by
  by_cases hne : cells = []
  · subst hne
    rfl
  · exact run_cells cells hne _ ⟨Or.inl rfl, rfl⟩

theorem run_rows (table : List (List String)) : ∀ rows : List (List String),
    Reader.run ⟨rows, [], [], .row⟩ (table.flatMap row) = ⟨rows ++ table, [], [], .row⟩ := by
  induction table with
  | nil =>
      intro rows
      simp [run]
  | cons cells table ih =>
      intro rows
      rw [List.flatMap_cons, run_append, run_row, ih]
      simp

end Reader

/-- **Every table is read back**, whatever its cells hold and whatever the number of them. -/
theorem read_rows (table : List (List String)) : read (table.flatMap row) = table := by
  rw [read, Reader.start, Reader.run_rows]
  rfl

/-- Quotes, commas and line feeds in a cell stay in the cell, and a blank line is a row. -/
example : read "\"a\"\"b\",\"c,\n\"\n\n\"\"\n".toList = [["a\"b", "c,\n"], [], [""]] := by decide

/-! ### Items -/

/-- **Exported items are read back**: none as nothing; behind a record, its field names and
for each item the texts of the fields of these names, empty where there is no such field;
otherwise the text of each item in a row of its own. -/
theorem read_write (items : List Value) :
    read (write items).toList = match items with
      | [] => []
      | .record header :: _ =>
        header.map (·.1) :: items.map fun item => header.map fun field =>
          match item with
          | .record fields => ((fields.lookup field.1).map (·.text)).getD ""
          | _ => ""
      | _ => items.map fun item => [item.text] := by
  rw [write, String.toList_ofList, read_rows]
  cases items with
  | nil => rfl
  | cons first items =>
      cases first with
      | record header =>
          simp only [table, Fields.names, List.map_map]
          rfl
      | _ => rfl

end LambdaShell.Csv
