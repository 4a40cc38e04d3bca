/-
The lines of a text.

A line ends in a line feed, and a carriage return in front of it belongs to the end of the
line.  What stands behind the last line feed is a line too, unless it is empty.
-/
namespace LambdaShell.Text

/-- The lines of a text without their ends. -/
def lines : List Char → List (List Char)
  | [] => []
  | '\r' :: '\n' :: cs => [] :: lines cs
  | '\n' :: cs => [] :: lines cs
  | c :: cs =>
    match lines cs with
    | [] => [[c]]
    | l :: ls => (c :: l) :: ls

end LambdaShell.Text
