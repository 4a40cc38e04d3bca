/-
Items gathered under keys.

Groups stand in the order in which their keys were first seen, and the members of a group
in the order in which they came.  Keys are matched by equality of values, so `1` and `1.0`
share a group.
-/
import LambdaShell.Items.Aggregate

namespace LambdaShell

/-- A key and the items gathered under it. -/
structure Group where
  key : Value
  members : List Value

/-- Groups in the order in which their keys were first seen. -/
abbrev Groups := List Group

namespace Groups

/-- Adds an item to the first group whose key equals `key`, or to a new last group. -/
def insert (key item : Value) : Groups → Groups
  | [] => [⟨key, [item]⟩]
  | g :: gs =>
    if g.key == key then ⟨g.key, g.members ++ [item]⟩ :: gs else g :: insert key item gs

/-- A record of the key of a group and the summary of its members. -/
def row (aggregate : Aggregate) (g : Group) : Value :=
  .record [("Key", g.key), (aggregate.field, aggregate.apply g.members)]

/-- One record for each group. -/
def rows (aggregate : Aggregate) (gs : Groups) : List Value := gs.map (row aggregate)

end Groups

end LambdaShell
