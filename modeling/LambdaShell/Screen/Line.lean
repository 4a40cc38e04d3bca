/-
Lines of output.

Output is a list of lines, each in a colour or in none.  Only when a line is rendered does
it matter whether the terminal shows colours.
-/
namespace LambdaShell

/-- Colours of a terminal. -/
inductive Color where
  | red
  | green
  | yellow
  | blue
  | magenta
  | cyan
  | gray
  deriving DecidableEq

/-- The number by which a terminal is told a colour. -/
def Color.code : Color → Nat
  | red => 31
  | green => 32
  | yellow => 33
  | blue => 34
  | magenta => 35
  | cyan => 36
  | gray => 90

/-- A line of output. -/
structure Line where
  color : Option Color
  text : String

/-- Lines that are shown one after the other. -/
abbrev Screen := List Line

namespace Line

/-! ### Kinds of lines -/

/-- A line in no colour. -/
def plain (text : String) : Line := ⟨none, text⟩

/-- A line in a colour. -/
def colored (color : Color) (text : String) : Line := ⟨some color, text⟩

/-- An empty line. -/
def blank : Line := plain ""

/-- Something went well. -/
def success (message : String) : Line := colored .green s!"✓ {message}"

/-- Something went wrong. -/
def failure (message : String) : Line := colored .red s!"✗ {message}"

/-- The user should do something else. -/
def warning (message : String) : Line := colored .yellow s!"⚠ {message}"

/-- The user should know something. -/
def note (message : String) : Line := colored .blue s!"ℹ {message}"

/-- The user asked for this. -/
def result (message : String) : Line := colored .magenta s!"→ {message}"

/-- A line of `n` copies of a character. -/
def rule (c : Char) (n : Nat) : String := String.ofList (List.replicate n c)

/-! ### Rendering -/

/-- The text of a line on a terminal that shows colours, or on one that does not. -/
def render (showsColors : Bool) (line : Line) : String :=
  match showsColors, line.color with
  | true, some c => s!"\x1b[{c.code}m{line.text}\x1b[0m\n"
  | _, _ => line.text ++ "\n"

end Line

/-- The text of all lines. -/
def Screen.render (showsColors : Bool) (screen : Screen) : String :=
  String.join (screen.map (Line.render showsColors))

end LambdaShell
