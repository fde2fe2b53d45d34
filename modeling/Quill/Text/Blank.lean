/-!
# White space

The characters with the property White_Space of Unicode, and texts without such characters around
them.
-/

namespace Quill.Text

/-- Whether a character is white space in any script. -/
def isWhite (c : Char) : Bool :=
  let code := c.toNat
  (0x09 ≤ code && code ≤ 0x0d) || code = 0x20 || code = 0x85 || code = 0xa0 || code = 0x1680 ||
    (0x2000 ≤ code && code ≤ 0x200a) || code = 0x2028 || code = 0x2029 || code = 0x202f ||
    code = 0x205f || code = 0x3000

/-- The text without the characters of a class at its end. -/
def trimEnd (isIdle : Char → Bool) (text : List Char) : List Char :=
  (text.reverse.dropWhile isIdle).reverse

/-- The text without white space around it. -/
def trim (text : List Char) : List Char :=
  trimEnd isWhite (text.dropWhile isWhite)

end Quill.Text
