/-
The tokens of a lambda text.

A text is measured in UTF-8 bytes: spans and columns count bytes, so a message about a
token behind an accented letter points where a byte-oriented reader expects it.
-/
import LambdaShell.Value.Text

namespace LambdaShell

-- The empty sum is the core library's zero, also where algebra offers others.
attribute [local instance (high)] Zero.ofOfNat0

/-- The length of a text in UTF-8 bytes. -/
def Text.byteLength (cs : List Char) : Nat := (cs.map Char.utf8Size).sum

/-- A stretch of the source text, from byte `start` up to but not including byte `stop`. -/
structure Span where
  start : Nat
  stop : Nat
  deriving DecidableEq

/-- Operators and punctuation. -/
inductive Symbol where
  | arrow
  | equals
  | notEquals
  | atMost
  | atLeast
  | both
  | either
  | coalesce
  | less
  | greater
  | assign
  | bang
  | plus
  | minus
  | star
  | slash
  | percent
  | question
  | colon
  | comma
  | dot
  | openParen
  | closeParen
  | openBrace
  | closeBrace
  deriving DecidableEq

namespace Symbol

/-- How a symbol is written. -/
def text : Symbol → String
  | arrow => "=>"
  | equals => "=="
  | notEquals => "!="
  | atMost => "<="
  | atLeast => ">="
  | both => "&&"
  | either => "||"
  | coalesce => "??"
  | less => "<"
  | greater => ">"
  | assign => "="
  | bang => "!"
  | plus => "+"
  | minus => "-"
  | star => "*"
  | slash => "/"
  | percent => "%"
  | question => "?"
  | colon => ":"
  | comma => ","
  | dot => "."
  | openParen => "("
  | closeParen => ")"
  | openBrace => "\x7b"
  | closeBrace => "\x7d"

/-- All symbols, the longer before the shorter, so that the first one that fits is the
longest that fits. -/
def all : List Symbol :=
  [arrow, equals, notEquals, atMost, atLeast, both, either, coalesce, less, greater, assign,
    bang, plus, minus, star, slash, percent, question, colon, comma, dot, openParen, closeParen,
    openBrace, closeBrace]

end Symbol

/-- Words that are not names. -/
inductive Keyword where
  | new
  | true
  | false
  | null
  deriving DecidableEq

namespace Keyword

/-- How a keyword is written. -/
def text : Keyword → String
  | new => "new"
  | true => "true"
  | false => "false"
  | null => "null"

/-- The keyword that a word is, if it is one. -/
def ofWord? (word : String) : Option Keyword := [new, true, false, null].find? (·.text == word)

end Keyword

/-- A token; literals carry the value they stand for. -/
inductive Token where
  | symbol (s : Symbol)
  | keyword (k : Keyword)
  | int (i : Int64)
  | float (x : Double)
  | str (s : String)
  | name (n : String)

namespace Token

/-- How a token is shown in a message. -/
def text : Token → String
  | symbol s => s.text
  | keyword k => k.text
  | int i => toString i.toInt
  | float x => Number.plain.text x
  | str s => "\"" ++ s ++ "\""
  | name n => n

/-- The token is that symbol. -/
def isSymbol (s : Symbol) : Token → Bool
  | symbol t => s == t
  | _ => false

end Token

/-- A token and where it stands. -/
structure Lexeme where
  token : Token
  span : Span

end LambdaShell
