/-
Why a command fails.

A failed command changes nothing.  `Failure` says what was wrong, with enough of the
command to show the user a line that would have worked.
-/
import LambdaShell.Lambda

namespace LambdaShell

/-- The ways in which a command line fails. -/
inductive Failure where
  /-- The line is no command, or an argument is missing or malformed. -/
  | format (message : String)
  /-- A lambda contains a forbidden text. -/
  | security (pattern : String)
  /-- A lambda does not compile. -/
  | compile (command : String) (diagnostics : List Diagnostic) (sample : String)
  /-- A lambda fails on an item. -/
  | runtime (command message sample : String)
  /-- A file can not be written. -/
  | exportFailed (reason : String)

namespace Failure

/-- The wording of a failure. -/
def message : Failure → String
  | format m => m
  | security p =>
    s!"security validation failed: expression contains potentially dangerous code: {p}"
  | compile c _ _ => s!"compilation error in {c}"
  | runtime c m _ => s!"error in {c}: {m}"
  | exportFailed r => s!"export failed: {r}"

/-- The failure of a command whose lambda does not compile. -/
def ofCompile (command sample : String) : CompileError → Failure
  | .security p => security p
  | .invalid issues => compile command (issues.map (·.diagnostic)) sample

/-- The failure of a command whose lambda fails on an item. -/
def ofEval (command sample : String) (e : EvalError) : Failure := runtime command e.message sample

end Failure

end LambdaShell
