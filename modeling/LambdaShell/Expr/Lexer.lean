/-
Splitting a lambda text into tokens.

At every place the longest token is taken; where none starts, the stretch that could still
have become one is reported and reading goes on behind it, so one pass finds every flaw of
the text.  A token is described by the characters it takes, and the rest is what remains
when they are dropped: nothing but white space can get lost between two tokens.
-/
import LambdaShell.Expr.Issue

namespace LambdaShell

namespace Lexer

/-- White space between tokens. -/
def isGap (c : Char) : Bool := c == ' ' || c == '\t' || c == '\r' || c == '\n' || c == '\x0c'

/-- What was read at one place, and the characters it took. -/
structure Scan where
  result : Except Cause Token
  taken : List Char

/-! ### Names -/

/-- A character that can stand in a name. -/
def isNameChar (c : Char) : Bool := c.isAlphanum || c == '_'

/-- A character that can start a name. -/
def isNameStart (c : Char) : Bool := c.isAlpha || c == '_'

/-- A word is a keyword or else a name. -/
def wordToken (word : String) : Token :=
  match Keyword.ofWord? word with
  | some k => .keyword k
  | none => .name word

/-- Reads a word. -/
def scanWord (cs : List Char) : Scan :=
  let word := cs.takeWhile isNameChar
  ⟨.ok (wordToken (String.ofList word)), word⟩

/-! ### Numbers -/

/-- A letter behind a number that makes it a decimal. -/
def isDecimalSuffix (c : Char) : Bool := ['m', 'M', 'd', 'D', 'f', 'F'].contains c

/-- A letter behind a number that leaves it whole. -/
def isWholeSuffix (c : Char) : Bool := c == 'l' || c == 'L'

/-- A decimal, or a flaw if it is out of range; `taken` is the text it was read from. -/
def decimalScan (s : Number.Scientific) (taken : List Char) : Scan :=
  let x := s.toDouble
  ⟨if x.isFinite then .ok (.float x) else .error (.badNumber (String.ofList taken)), taken⟩

/-- The digits behind a point, if a point with a digit behind it comes next. -/
def leadingFraction : List Char → List Char
  | '.' :: cs => Number.leadingDigits cs
  | _ => []

/-- Reads a number: digits, then a fraction, an exponent and one suffix letter, each only
if it is complete. -/
def scanNumber (cs : List Char) : Scan :=
  let whole := Number.leadingDigits cs
  let fraction := leadingFraction (cs.drop whole.length)
  let mantissa := if fraction = [] then whole else whole ++ '.' :: fraction
  let exponent := Number.leadingExponent? (cs.drop mantissa.length)
  let number := match exponent with
    | some p => mantissa ++ p.chars
    | none => mantissa
  let next := cs.drop number.length
  let value := Number.Scientific.ofParts whole fraction ((exponent.map (·.value)).getD 0)
  if next.head?.any isDecimalSuffix then decimalScan value (number ++ next.take 1)
  else if fraction ≠ [] ∨ exponent.isSome then decimalScan value number
  else
    let taken := if next.head?.any isWholeSuffix then number ++ next.take 1 else number
    match Number.readInt64? whole with
    | some i => ⟨.ok (.int i), taken⟩
    | none => ⟨.error (.badNumber (String.ofList taken)), taken⟩

/-! ### Strings -/

/-- The character that an escape stands for. -/
def escaped? : Char → Option Char
  | 'n' => some '\n'
  | 't' => some '\t'
  | 'r' => some '\r'
  | '0' => some '\x00'
  | '\\' => some '\\'
  | '"' => some '"'
  | '\'' => some '\''
  | _ => none

/-- The text that the inside of a string stands for. -/
def unescape : List Char → Option (List Char)
  | [] => some []
  | '\\' :: c :: cs => (escaped? c).bind fun d => (unescape cs).map (d :: ·)
  | ['\\'] => none
  | c :: cs => (unescape cs).map (c :: ·)

/-- The inside of a string that ends at the next `quote`, and whether it does end.  A
backslash takes the next character along, unless that is a line feed. -/
def stringBody (quote : Char) : List Char → List Char × Bool
  | [] => ([], false)
  | '\\' :: c :: cs =>
    if c = '\n' then ([], false)
    else ('\\' :: c :: (stringBody quote cs).1, (stringBody quote cs).2)
  | c :: cs =>
    if c = quote then ([], true)
    else if c = '\\' then ([], false)
    else (c :: (stringBody quote cs).1, (stringBody quote cs).2)

/-- Reads a string behind its opening quotation mark. -/
def scanString (quote : Char) (cs : List Char) : Scan :=
  let body := (stringBody quote cs).1
  let taken := if (stringBody quote cs).2 then quote :: body ++ [quote] else quote :: body
  let flaw := Cause.badString (String.ofList taken)
  if (stringBody quote cs).2 then
    match unescape body with
    | some s => ⟨.ok (.str (String.ofList s)), taken⟩
    | none => ⟨.error flaw, taken⟩
  else ⟨.error flaw, taken⟩

/-! ### The whole text -/

/-- Reads a symbol, or a single character that starts no token. -/
def scanSymbol (c : Char) (cs : List Char) : Scan :=
  match Symbol.all.find? (·.text.toList.isPrefixOf (c :: cs)) with
  | some s => ⟨.ok (.symbol s), s.text.toList⟩
  | none => ⟨.error (.strayText (String.singleton c)), [c]⟩

/-- Reads what starts at a character that is not white space. -/
def scan (c : Char) (cs : List Char) : Scan :=
  if isNameStart c then scanWord (c :: cs)
  else if c.isDigit then scanNumber (c :: cs)
  else if c = '"' ∨ c = '\'' then scanString c cs
  else scanSymbol c cs

/-- A token or a flaw, and where it stands. -/
structure Piece where
  result : Except Cause Token
  span : Span

/-- The tokens and flaws of a text whose first byte has offset `start`. -/
def pieces (start : Nat) : List Char → List Piece
  | [] => []
  | c :: cs =>
    if isGap c then pieces (start + c.utf8Size) cs
    else
      let s := scan c cs
      let stop := start + Text.byteLength s.taken
      ⟨s.result, ⟨start, stop⟩⟩ :: pieces stop (cs.drop (s.taken.length - 1))
termination_by cs => cs.length

/-- The piece as a token. -/
def Piece.lexeme? (p : Piece) : Option Lexeme :=
  match p.result with
  | .ok t => some ⟨t, p.span⟩
  | .error _ => none

/-- The piece as a flaw. -/
def Piece.issue? (p : Piece) : Option Issue :=
  match p.result with
  | .ok _ => none
  | .error cause => some ⟨p.span.start, cause⟩

end Lexer

/-- The tokens of a text, or else all of its flaws. -/
def tokenize (source : List Char) : Except (List Issue) (List Lexeme) :=
  let found := Lexer.pieces 0 source
  match found.filterMap (·.issue?) with
  | [] => .ok (found.filterMap (·.lexeme?))
  | issues => .error issues

end LambdaShell
