import Quill.Text.Invisible

/-!
# Diagnostic quotation

Where a message shows a text to a reader who has to see every character of it, the text stands in
double quotes and every character that has no shape of its own is written as an escape: the usual
short ones for the null character, tab, line feed and carriage return, and the code point in
hexadecimal digits for all others.
-/

namespace Quill.Text

/-- The digits of a number in base sixteen, in lower case and without leading zeros. -/
def hexDigits (n : Nat) : String :=
  String.ofList (Nat.toDigits 16 n)

/-- How one character appears in a diagnostic quotation. -/
def diagnosticChar (c : Char) : String :=
  if c = '"' then "\\\""
  else if c = '\\' then "\\\\"
  else if c = '\n' then "\\n"
  else if c = '\t' then "\\t"
  else if c = '\r' then "\\r"
  else if c.toNat = 0 then "\\0"
  else if isInvisible c then "\\u\x7b" ++ hexDigits c.toNat ++ "\x7d"
  else String.singleton c

/-- A text in double quotes with all its characters visible. -/
def diagnosticQuote (text : String) : String :=
  "\"" ++ String.join (text.toList.map diagnosticChar) ++ "\""

end Quill.Text
