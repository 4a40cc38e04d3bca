/-
The lines that were entered, kept from one session to the next.

A history holds the latest entries, oldest first, and never the same entry twice in a row.
In its file each entry is a line, so line feeds are escaped, and with them the backslash.
The first line of the file tells that entries are escaped; in a file without that line they
are taken as they stand.
-/
import LambdaShell.Text.Lines

namespace LambdaShell

/-- Entries from the oldest to the latest. -/
structure LineHistory where
  entries : List (List Char)
  /-- An entry has been added that the file does not hold. -/
  isChanged : Bool

namespace LineHistory

/-! ### Entries -/

/-- How many entries are kept. -/
def capacity : Nat := 100

/-- No entries. -/
def empty : LineHistory := ⟨[], false⟩

/-- Adds an entry, unless it is empty or repeats the latest one; the oldest entry makes
room for it. -/
def add (entry : List Char) (h : LineHistory) : LineHistory :=
  if entry = [] ∨ h.entries.getLast? = some entry then h
  else
    let kept := h.entries.drop (h.entries.length + 1 - capacity)
    ⟨kept ++ [entry], true⟩

/-! ### Escapes -/

/-- An entry as it is written to a file. -/
def escape (entry : List Char) : List Char :=
  entry.flatMap fun c =>
    if c = '\n' then ['\\', 'n'] else if c = '\\' then ['\\', '\\'] else [c]

/-- The entry that was written to a file, if a backslash never stands where it means
nothing. -/
def unescape? : List Char → Option (List Char)
  | [] => some []
  | '\\' :: 'n' :: cs => (unescape? cs).map ('\n' :: ·)
  | '\\' :: '\\' :: cs => (unescape? cs).map ('\\' :: ·)
  | '\\' :: _ => none
  | c :: cs => (unescape? cs).map (c :: ·)

/-! ### Files -/

/-- The first line of a file whose entries are escaped. -/
def header : List Char := "#V2".toList

/-- The contents of the file of a history. -/
def toFile (h : LineHistory) : List Char :=
  (header :: h.entries.map escape).flatMap (· ++ ['\n'])

/-- The history of these entries, as far as they can be kept. -/
def ofEntries (entries : List (List Char)) : LineHistory :=
  ⟨(entries.foldl (fun h e => h.add e) empty).entries, false⟩

/-- The history that a file holds. -/
def ofFile (content : List Char) : LineHistory :=
  match Text.lines content with
  | [] => empty
  | first :: rest =>
    if first = header then ofEntries (rest.map fun l => (unescape? l).getD l)
    else ofEntries (first :: rest)

end LineHistory

end LambdaShell
