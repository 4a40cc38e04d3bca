/-
The sequence a session works on, and its history.

A timeline is a present state between a past and a future.  A change makes the present the
nearest past and drops the future; undo and redo move along the timeline; a reset starts a
new one from the data that was loaded.
-/
import LambdaShell.Value.Basic

namespace LambdaShell

/-- A present state with its past and future, each with the nearest state first, and the
data the session started from. -/
structure Timeline where
  loaded : List Value
  past : List (List Value)
  current : List Value
  future : List (List Value)

namespace Timeline

/-- The timeline of freshly loaded data. -/
def start (data : List Value) : Timeline := ⟨data, [], data, []⟩

/-- Makes `next` the present state. -/
def push (next : List Value) (t : Timeline) : Timeline :=
  { t with past := t.current :: t.past, current := next, future := [] }

/-- Goes back to the nearest past state, if there is one. -/
def undo? (t : Timeline) : Option Timeline :=
  match t.past with
  | [] => none
  | p :: ps => some { t with past := ps, current := p, future := t.current :: t.future }

/-- Goes on to the nearest future state, if there is one. -/
def redo? (t : Timeline) : Option Timeline :=
  match t.future with
  | [] => none
  | f :: fs => some { t with past := t.current :: t.past, current := f, future := fs }

/-- Goes back to the loaded data and forgets both past and future. -/
def reset (t : Timeline) : Timeline := start t.loaded

/-- How many changes can be undone. -/
def undoDepth (t : Timeline) : Nat := t.past.length

/-- How many changes can be redone. -/
def redoDepth (t : Timeline) : Nat := t.future.length

end Timeline

end LambdaShell
