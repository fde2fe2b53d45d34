import Quill.Decimal.Text
import Quill.Operator
import Quill.Source.Span
import Quill.Text.Diagnostic

/-!
# Tokens

A token is a word, a number, a string or a mark of the language together with the span that it
was read from. Two spellings of one mark, such as the word and the sign for a logical operator,
are the same token. Line feeds are tokens too, because they separate statements.
-/

namespace Quill

/-- The reserved words. -/
inductive Keyword where
  | varWord | ifWord | thenWord | elifWord | elseWord | forWord | toWord | stepWord | whileWord
  | funcWord | endWord | returnWord | breakWord | continueWord | andWord | orWord | notWord
  | objectWord | newWord
deriving DecidableEq, Repr

/-- The marks that are not words. -/
inductive Mark where
  | plus | minus | star | slash | caret
  | openParen | closeParen | openBracket | closeBracket
  | comma | dot | arrow
  | assign | equal | notEqual | lessEqual | greaterEqual | less | greater
deriving DecidableEq, Repr

namespace Keyword

/-- All reserved words. -/
def all : List Keyword :=
  [varWord, ifWord, thenWord, elifWord, elseWord, forWord, toWord, stepWord, whileWord, funcWord,
    endWord, returnWord, breakWord, continueWord, andWord, orWord, notWord, objectWord, newWord]

/-- The letters of the word. -/
def text : Keyword → String
  | varWord => "var"
  | ifWord => "if"
  | thenWord => "then"
  | elifWord => "elif"
  | elseWord => "else"
  | forWord => "for"
  | toWord => "to"
  | stepWord => "step"
  | whileWord => "while"
  | funcWord => "func"
  | endWord => "end"
  | returnWord => "return"
  | breakWord => "break"
  | continueWord => "continue"
  | andWord => "and"
  | orWord => "or"
  | notWord => "not"
  | objectWord => "object"
  | newWord => "new"

/-- No word is missing from the list of all. -/
theorem mem_all (word : Keyword) : word ∈ all := by
  cases word <;> decide

end Keyword

namespace Mark

/-- All marks. -/
def all : List Mark :=
  [plus, minus, star, slash, caret, openParen, closeParen, openBracket, closeBracket, comma, dot,
    arrow, assign, equal, notEqual, lessEqual, greaterEqual, less, greater]

/-- The characters of the mark. -/
def text : Mark → String
  | plus => "+"
  | minus => "-"
  | star => "*"
  | slash => "/"
  | caret => "^"
  | openParen => "("
  | closeParen => ")"
  | openBracket => "["
  | closeBracket => "]"
  | comma => ","
  | dot => "."
  | arrow => "->"
  | assign => "="
  | equal => "=="
  | notEqual => "!="
  | lessEqual => "<="
  | greaterEqual => ">="
  | less => "<"
  | greater => ">"

/-- No mark is missing from the list of all. -/
theorem mem_all (mark : Mark) : mark ∈ all := by
  cases mark <;> decide

end Mark

namespace Token

/-- What a token is, apart from where it stands. -/
inductive Kind where
  /-- A number with a decimal point. -/
  | float (value : Float)
  /-- A number without one. Its sign is a token of its own. -/
  | int (magnitude : Nat)
  /-- A string, with its escapes already resolved. -/
  | str (value : String)
  /-- A name. -/
  | identifier (name : String)
  /-- A reserved word. -/
  | keyword (word : Keyword)
  /-- A mark. -/
  | mark (mark : Mark)
  /-- The end of a line. -/
  | newline
  /-- The separator of statements on one line. -/
  | semicolon
  /-- The end of the text. -/
  | endOfInput
deriving Repr

namespace Kind

/-- Whether the token separates statements. -/
def isSeparator : Kind → Bool
  | newline | semicolon => true
  | _ => false

/-- Whether the token is the given reserved word. -/
def isKeyword (kind : Kind) (word : Keyword) : Bool :=
  match kind with
  | keyword other => other = word
  | _ => false

/-- Whether the token is the given mark. -/
def isMark (kind : Kind) (wanted : Mark) : Bool :=
  match kind with
  | mark other => other = wanted
  | _ => false

/-- The operator between operands that the token stands for. -/
def binaryOp? : Kind → Option BinaryOp
  | mark .plus => some .add
  | mark .minus => some .sub
  | mark .star => some .mul
  | mark .slash => some .div
  | mark .caret => some .pow
  | mark .equal => some .equal
  | mark .notEqual => some .notEqual
  | mark .less => some .less
  | mark .lessEqual => some .lessEqual
  | mark .greater => some .greater
  | mark .greaterEqual => some .greaterEqual
  | keyword .andWord => some .and
  | keyword .orWord => some .or
  | _ => none

/-- How messages name the token. -/
def describe : Kind → String
  | float value => "float '" ++ Decimal.shortestText value ++ "'"
  | int magnitude => "integer '" ++ toString magnitude ++ "'"
  | str value => "string " ++ Text.diagnosticQuote value
  | identifier name => "identifier '" ++ name ++ "'"
  | keyword word => "'" ++ word.text ++ "'"
  | mark sign => "'" ++ sign.text ++ "'"
  | newline => "newline"
  | semicolon => "';'"
  | endOfInput => "end of input"

end Kind

end Token

/-- A token where it stands in a text. -/
structure Token where
  /-- What was read. -/
  kind : Token.Kind
  /-- Where it was read. -/
  span : Span
deriving Repr

end Quill
