/-
What can be asked of a list of items.

Each query applies a function to the items in order and fails with the first failure it
meets.  Queries that look for an item stop as soon as they know the answer, so what comes
later can not make them fail.
-/
import LambdaShell.Expr.Eval
import LambdaShell.Items.Groups

namespace LambdaShell.Items

/-! ### New lists -/

/-- The items that pass a test, in order. -/
def filter (test : Value → Outcome? Bool) : List Value → Outcome? (List Value)
  | [] => .ok []
  | v :: vs => do
    let passes ← test v
    let kept ← filter test vs
    return if passes then v :: kept else kept

/-- What the items are projected to, in order. -/
def select (project : Value → Outcome? Value) : List Value → Outcome? (List Value)
  | [] => .ok []
  | v :: vs => do
    let w ← project v
    return w :: (← select project vs)

/-- The items with their keys, in order. -/
def withKeys (key : Value → Outcome? Value) : List Value → Outcome? (List (Value × Value))
  | [] => .ok []
  | v :: vs => do
    let k ← key v
    return (k, v) :: (← withKeys key vs)

/-- The first of two keys may stand before the second. -/
def inOrder (descending : Bool) (a b : Value) : Bool :=
  if descending then (b.compare a).isLE else (a.compare b).isLE

/-- The items sorted by key; items whose keys compare equal keep their order. -/
def orderBy (key : Value → Outcome? Value) (descending : Bool) (items : List Value) :
    Outcome? (List Value) := do
  let keyed ← withKeys key items
  return (keyed.mergeSort fun a b => inOrder descending a.1 b.1).map (·.2)

/-- The items gathered under their keys. -/
def groupBy (key : Value → Outcome? Value) (items : List Value) : Outcome? Groups := do
  let keyed ← withKeys key items
  return keyed.foldl (fun groups p => groups.insert p.1 p.2) []

/-- The items that equal none of `kept` and no item kept before them. -/
def distinctFrom (kept : List Value) : List Value → List Value
  | [] => []
  | v :: vs =>
    if kept.any (· == v) then distinctFrom kept vs else v :: distinctFrom (kept ++ [v]) vs

/-- The items without those that equal an earlier one. -/
def distinct (items : List Value) : List Value := distinctFrom [] items

/-! ### Answers -/

/-- Some item passes the test. -/
def any (test : Value → Outcome? Bool) : List Value → Outcome? Bool
  | [] => .ok false
  | v :: vs => do if ← test v then return true else any test vs

/-- Every item passes the test. -/
def all (test : Value → Outcome? Bool) : List Value → Outcome? Bool
  | [] => .ok true
  | v :: vs => do if ← test v then all test vs else return false

/-- The first item that passes the test. -/
def find (test : Value → Outcome? Bool) : List Value → Outcome? (Option Value)
  | [] => .ok none
  | v :: vs => do if ← test v then return some v else find test vs

end LambdaShell.Items
