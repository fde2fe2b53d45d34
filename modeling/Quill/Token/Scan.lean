import Quill.Token.Lexeme

/-!
# From a text to its tokens

The text is cut into longest lexemes from left to right. Blanks and comments are dropped, every
other lexeme becomes a token, and an empty token marks the end. The first character that no
pattern covers and the first integer that is too large end the scan with an error.
-/

namespace Quill

/-- Why a text has no tokens. -/
inductive ScanError where
  /-- No pattern matches at a character. -/
  | illegalCharacter (character : Char) (span : Span)
  /-- The digits of an integer stand for too large a number. -/
  | integerTooLarge (literal : String) (span : Span)
deriving DecidableEq, Repr

namespace ScanError

/-- Where the scan stopped. -/
def span : ScanError → Span
  | illegalCharacter _ span => span
  | integerTooLarge _ span => span

/-- The error in one line. -/
def message : ScanError → String
  | illegalCharacter character span =>
    "Illegal Character Error at " ++ span.place ++ ": '" ++ String.singleton character ++ "'"
  | integerTooLarge literal span =>
    "Illegal Character Error at " ++ span.place ++ ": integer literal '" ++ literal ++
      "' is too large"

end ScanError

namespace Token

/-- The tokens of the rest of a source that begins at `position`. Every lexeme covers at least one
character, so a bound that is no smaller than the length of the rest is never exhausted early. -/
def scanFrom (source : Source) : (bound : Nat) → Position → List Char →
    Except ScanError (List Token)
  | 0, position, _ => .ok [⟨.endOfInput, ⟨source, position, position⟩⟩]
  | _ + 1, position, [] => .ok [⟨.endOfInput, ⟨source, position, position⟩⟩]
  | bound + 1, position, c :: text =>
    match Lexeme.longest? (c :: text) with
    | none => .error (.illegalCharacter c ⟨source, position, position.advance c⟩)
    | some lexeme =>
      let covered := (c :: text).take lexeme.length
      let rest := (c :: text).drop lexeme.length
      let stop := position.past covered
      match lexeme.reading with
      | .oversized => .error (.integerTooLarge (String.ofList covered) ⟨source, position, stop⟩)
      | .skipped => scanFrom source bound stop rest
      | .token kind => do
        let tokens ← scanFrom source bound stop rest
        .ok (⟨kind, ⟨source, position, stop⟩⟩ :: tokens)

/-- The tokens of a source. The last one, and only that one, is the end of the input. -/
def scan (source : Source) : Except ScanError (List Token) :=
  let text := source.text.toList
  scanFrom source text.length .start text

end Token

end Quill
