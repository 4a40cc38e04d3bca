/-
The clusters of a text: what a reader takes for its characters.

A text is read from left to right, and each character either joins the cluster that has been
begun or begins the next one.  Which of the two it does depends on that cluster alone.
-/
import LambdaShell.Text.BreakClass

namespace LambdaShell.Text

/-! ### Joining

The parts of a cluster are given nearest first, as they are seen from behind. -/

/-- Ends in a consonant and marks upon it, of which one binds it to the next consonant. -/
def endsBound (cluster : List Char) : Bool :=
  let isBinding := fun c => breakClass c = .joiner || breakClass c = .mark && c.toNat ≠ 0x200C
  (cluster.takeWhile isBinding).any isVirama &&
    (cluster.dropWhile isBinding).head?.any (breakClass · = .consonant)

/-- Ends in a pictograph and marks upon it. -/
def endsInPictograph (cluster : List Char) : Bool :=
  (cluster.dropWhile (breakClass · = .mark)).head?.any (breakClass · = .pictograph)

/-- Ends in a letter of a flag that has not found its second one. -/
def endsInHalfFlag (cluster : List Char) : Bool :=
  (cluster.takeWhile (breakClass · = .regional)).length % 2 = 1

/-- A character belongs to the cluster that ends in `last` and has `before` in front of it. -/
def joins (last : Char) (before : List Char) (c : Char) : Bool :=
  match breakClass last, breakClass c with
  | .carriageReturn, .lineFeed => true
  | .carriageReturn, _ | .lineFeed, _ | .control, _ => false
  | _, .carriageReturn | _, .lineFeed | _, .control => false
  | _, .mark | _, .joiner | _, .spacingMark => true
  | .prepended, _ => true
  | .leading, .leading | .leading, .vowel | .leading, .openSyllable
  | .leading, .closedSyllable => true
  | .openSyllable, .vowel | .openSyllable, .trailing | .vowel, .vowel | .vowel, .trailing => true
  | .closedSyllable, .trailing | .trailing, .trailing => true
  | .joiner, .pictograph => endsInPictograph before
  | .regional, .regional => endsInHalfFlag (last :: before)
  | _, .consonant => endsBound (last :: before)
  | _, _ => false

/-! ### Clusters -/

/-- The clusters of a text in front of which a cluster has been begun. -/
def clustersFrom (last : Char) (before : List Char) : List Char → List (List Char)
  | [] => [(last :: before).reverse]
  | c :: cs =>
    if joins last before c then clustersFrom c (last :: before) cs
    else (last :: before).reverse :: clustersFrom c [] cs

/-- The clusters of a text. -/
def clusters : List Char → List (List Char)
  | [] => []
  | c :: cs => clustersFrom c [] cs

/-- A cluster that has been begun stays in front of what follows. -/
theorem flatten_clustersFrom (last : Char) (before cs : List Char) :
    (clustersFrom last before cs).flatten = (last :: before).reverse ++ cs := by
  induction cs generalizing last before with
  | nil => simp [clustersFrom]
  | cons c cs ih =>
    rw [clustersFrom]
    split <;> simp [ih]

/-- Clusters leave nothing out. -/
theorem flatten_clusters (cs : List Char) : (clusters cs).flatten = cs := by
  cases cs with
  | nil => rfl
  | cons c cs => simp [clusters, flatten_clustersFrom]

end LambdaShell.Text
