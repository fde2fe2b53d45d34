import Quill.Text.Digits
import Quill.Text.Quoted
import Quill.Token.Basic

/-!
# Lexemes

The patterns that the characters of a program are cut along. Each pattern says how many characters
at the head of a text it covers at most, and where several patterns cover something the longest
one wins. A pattern that is declared earlier wins against a later one of the same length, which is
how a reserved word takes precedence over a name of the same letters while a longer name that
merely begins with it does not lose its tail.
-/

namespace Quill

/-- What the characters of a lexeme amount to. -/
inductive Reading where
  /-- A token. -/
  | token (kind : Token.Kind)
  /-- The digits of an integer that is too large for any literal. -/
  | oversized
  /-- Blanks or a comment. -/
  | skipped
deriving Repr

/-- A pattern's match: how many characters it covers, and what they amount to. -/
structure Lexeme where
  /-- The number of characters covered. -/
  length : Nat
  /-- What they amount to. -/
  reading : Reading
deriving Repr

namespace Lexeme

open Text (isDigit natural)

/-- Whether a name may begin with the character. -/
def isNameStart (c : Char) : Bool :=
  ('a' ≤ c && c ≤ 'z') || ('A' ≤ c && c ≤ 'Z') || c = '_'

/-- Whether a name may continue with the character. -/
def isNamePart (c : Char) : Bool :=
  isNameStart c || isDigit c

/-- Whether the character is a blank within a line. -/
def isBlank (c : Char) : Bool :=
  c = ' ' || c = '\t' || c = '\r' || c = '\x0c'

/-- The tokens of one fixed spelling, reserved words before all others. -/
def spellings : List (List Char × Token.Kind) :=
  Keyword.all.map (fun word => (word.text.toList, .keyword word)) ++
    [("&&".toList, .keyword .andWord), ("||".toList, .keyword .orWord),
      ("!".toList, .keyword .notWord)] ++
    Mark.all.map (fun mark => (mark.text.toList, .mark mark)) ++
    [("\n".toList, .newline), (";".toList, .semicolon)]

/-- The largest magnitude of an integer literal. It only fits behind a minus sign. -/
def maxMagnitude : Nat :=
  Int64.minValue.toInt.natAbs

/-- A fixed spelling at the head of the text. -/
def fixed? (text spelling : List Char) (kind : Token.Kind) : Option Lexeme :=
  if spelling.isPrefixOf text then some ⟨spelling.length, .token kind⟩ else none

/-- Digits, a point and digits. -/
def float? (text : List Char) : Option Lexeme :=
  let whole := text.takeWhile isDigit
  match text.dropWhile isDigit with
  | '.' :: rest =>
    let fraction := rest.takeWhile isDigit
    if whole.isEmpty || fraction.isEmpty then
      none
    else
      let value := Float.ofScientific (natural (whole ++ fraction)) true fraction.length
      some ⟨whole.length + 1 + fraction.length, .token (.float value)⟩
  | _ => none

/-- A run of digits. -/
def int? (text : List Char) : Option Lexeme :=
  let digits := text.takeWhile isDigit
  if digits.isEmpty then
    none
  else
    let magnitude := natural digits
    some ⟨digits.length,
      if magnitude ≤ maxMagnitude then .token (.int magnitude) else .oversized⟩

/-- A string in double quotes. -/
def str? : List Char → Option Lexeme
  | '"' :: rest =>
    (Text.Quoted.body? rest).map fun body =>
      ⟨body.length + 2, .token (.str (String.ofList (Text.Quoted.decode body)))⟩
  | _ => none

/-- A letter or an underscore, and then letters, underscores and digits. -/
def name? : List Char → Option Lexeme
  | [] => none
  | c :: rest =>
    if isNameStart c then
      let name := c :: rest.takeWhile isNamePart
      some ⟨name.length, .token (.identifier (String.ofList name))⟩
    else
      none

/-- A number sign and everything up to the end of the line. -/
def comment? : List Char → Option Lexeme
  | '#' :: rest => some ⟨(rest.takeWhile (· ≠ '\n')).length + 1, .skipped⟩
  | _ => none

/-- A run of blanks. -/
def blanks? (text : List Char) : Option Lexeme :=
  let blanks := text.takeWhile isBlank
  if blanks.isEmpty then none else some ⟨blanks.length, .skipped⟩

/-- The matches of all patterns at the head of the text, in the order of the declarations. -/
def candidates (text : List Char) : List Lexeme :=
  (spellings.filterMap fun (spelling, kind) => fixed? text spelling kind) ++
    [float? text, int? text, str? text, name? text, comment? text, blanks? text].filterMap id

/-- The longer one of two matches, the earlier one if they are equally long. -/
def longer (earlier later : Lexeme) : Lexeme :=
  if earlier.length < later.length then later else earlier

/-- The longest match at the head of the text. -/
def longest? (text : List Char) : Option Lexeme :=
  match candidates text with
  | [] => none
  | first :: rest => some (rest.foldl longer first)

end Lexeme

end Quill
