/-
Paths of files.
-/
namespace LambdaShell.Path

/-- A file in a directory. -/
def join (directory name : String) : String :=
  if directory.isEmpty || directory.toList.getLast? == some '/' then directory ++ name
  else directory ++ "/" ++ name

/-- A path, last character first, without the slashes and lone dots that it ends in. -/
def dropLastSlashes : List Char → List Char
  | '/' :: cs => dropLastSlashes cs
  | '.' :: '/' :: cs => dropLastSlashes cs
  | cs => cs

/-- What stands before the last name of a path, if there is more than a slash. -/
def parent? (path : String) : Option String :=
  match (dropLastSlashes path.toList.reverse).dropWhile (· ≠ '/') with
  | _ :: c :: cs => some (String.ofList (c :: cs).reverse)
  | _ => none

end LambdaShell.Path
