/-
Points in time, as they appear in file names.
-/
namespace LambdaShell

/-- A date and a time of day. -/
structure Moment where
  year : Nat
  month : Nat
  day : Nat
  hour : Nat
  minute : Nat
  second : Nat

namespace Moment

/-- A number with at least `width` digits. -/
def digits (width n : Nat) : String := String.ofList ((toString n).toList.leftpad width '0')

/-- Eight digits of the date and six of the time of day. -/
def stamp (m : Moment) : String :=
  digits 4 m.year ++ digits 2 m.month ++ digits 2 m.day ++ "_" ++ digits 2 m.hour
    ++ digits 2 m.minute ++ digits 2 m.second

end Moment

end LambdaShell
