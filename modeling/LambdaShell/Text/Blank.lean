/-
White space, and the cuts that go by it.

Lines, literals and lambdas are trimmed, and command lines are split into words, by the
Unicode property White_Space: a line padded with no-break or ideographic spaces reads like
one padded with blanks.
-/
import LambdaShell.Text.Range

namespace LambdaShell.Text

/-- The characters with the Unicode property White_Space, as ascending closed ranges. -/
def blankRanges : List (Nat × Nat) := [
  (0x09, 0x0D), (0x20, 0x20), (0x85, 0x85), (0xA0, 0xA0), (0x1680, 0x1680), (0x2000, 0x200A),
  (0x2028, 0x2029), (0x202F, 0x202F), (0x205F, 0x205F), (0x3000, 0x3000)]

/-- A white space character. -/
def isBlank (c : Char) : Bool := inRanges blankRanges c

/-! ### Trimming -/

/-- The text without the white space it starts with. -/
def trimStart (cs : List Char) : List Char := cs.dropWhile isBlank

/-- The text without the white space it ends in. -/
def trimEnd (cs : List Char) : List Char := (cs.reverse.dropWhile isBlank).reverse

/-- The text without white space at either end. -/
def trim (cs : List Char) : List Char := trimEnd (trimStart cs)

/-! ### Cutting at white space -/

/-- The first word and all that follows the one white space character behind it. -/
def cutAtBlank : List Char → List Char × List Char
  | [] => ([], [])
  | c :: cs => if isBlank c then ([], cs) else (c :: (cutAtBlank cs).1, (cutAtBlank cs).2)

/-- Put a character in front of the first word of a list of words. -/
def extendFirst (c : Char) : List (List Char) → List (List Char)
  | [] => [[c]]
  | w :: ws => (c :: w) :: ws

/-- Splits at every white space character; empty pieces stay. -/
def piecesAtBlank : List Char → List (List Char)
  | [] => [[]]
  | c :: cs => if isBlank c then [] :: piecesAtBlank cs else extendFirst c (piecesAtBlank cs)

/-- The words of a text: its longest runs without white space. -/
def words (cs : List Char) : List (List Char) := (piecesAtBlank cs).filter (!·.isEmpty)

end LambdaShell.Text
