/-
The order by which items are sorted.

Null comes first, then everything that stands for a number, by the total order of doubles,
then the rest by its text, code point by code point.  The order is coarser than equality in
one place, texts that read as the same number, and finer in another, the two zeros.
-/
import LambdaShell.Value.Text

namespace LambdaShell.Value

/-- Compares two values for sorting. -/
def compare : Value → Value → Ordering
  | null, null => .eq
  | null, _ => .lt
  | _, null => .gt
  | v, w =>
    match v.number?, w.number? with
    | some x, some y => Number.totalCompare x y
    | some _, none => .lt
    | none, some _ => .gt
    | none, none => Ord.compare v.text w.text

end LambdaShell.Value
