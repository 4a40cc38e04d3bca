/-
Summaries of a list of items.

Sums and averages look at the items that stand for numbers and pass over the rest.  The
least and the greatest item are sought among the numbers if there are any, and else by
text, so a stray word in a list of numbers does not change its maximum.
-/
import LambdaShell.Text.Case
import LambdaShell.Value.Order

namespace LambdaShell

namespace Items

/-- The numbers that the items stand for. -/
def numbers (items : List Value) : List Double := items.filterMap (·.number?)

/-- The sum of the numbers, zero if there are none. -/
def sum (items : List Value) : Double := (numbers items).foldl (· + ·) 0.0

/-- The mean of the numbers, zero if there are none.  The numbers are added up from -0.0,
which no addition can tell from nothing at all. -/
def average (items : List Value) : Double :=
  match numbers items with
  | [] => 0.0
  | xs => xs.foldl (· + ·) (-0.0) / Number.ofNat xs.length

/-- The first element that no later one is before, `before` saying which of two is. -/
def champion {α : Type} (before : α → α → Bool) : List α → Option α
  | [] => none
  | a :: as => some (as.foldl (fun best b => if before b best then b else best) a)

/-- The item that comes first in the wanted direction, by number or else by text. -/
def extreme (wanted : Ordering) (items : List Value) : Value :=
  match champion (fun x y => Number.totalCompare x y == wanted) (numbers items) with
  | some x => .float x
  | none =>
    (champion (fun v w => compare v.text w.text == wanted)
      (items.filter (!·.isNumeric))).getD .null

/-- The least item, null if there are no items. -/
def least (items : List Value) : Value := extreme .lt items

/-- The greatest item, null if there are no items. -/
def greatest (items : List Value) : Value := extreme .gt items

end Items

/-- How the members of a group are summarised. -/
inductive Aggregate where
  | count
  | sum
  | average
  | min
  | max
  /-- The members themselves. -/
  | items
  deriving DecidableEq

namespace Aggregate

/-- The aggregate of that name, in any case of its letters; any other name means the
members themselves. -/
def ofName (name : List Char) : Aggregate :=
  match String.ofList (Text.toLower (Text.trim name)) with
  | "count" => count
  | "sum" => sum
  | "avg" | "average" => average
  | "min" => min
  | "max" => max
  | _ => items

/-- The field that carries the summary. -/
def field : Aggregate → String
  | count => "Count"
  | sum => "Sum"
  | average => "Average"
  | min => "Min"
  | max => "Max"
  | items => "Items"

/-- The summary of the members of a group. -/
def apply (aggregate : Aggregate) (members : List Value) : Value :=
  match aggregate with
  | count => .int (Int64.ofNat members.length)
  | sum => .float (Items.sum members)
  | average => .float (Items.average members)
  | min => Items.least members
  | max => Items.greatest members
  | items => .list members

end Aggregate

end LambdaShell
