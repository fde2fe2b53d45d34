/-!
# Quoted text

A string is written between double quotes. Inside, a backslash announces the character that
follows it: `n` stands for a line feed, `t` for a tab, and every other character for itself. The
writer uses the four escapes that it needs, the reader accepts a backslash before any character
but a line feed. Reading what was written gives the text back.
-/

namespace Quill.Text.Quoted

/-- The written form of one character. -/
def encodeChar (c : Char) : List Char :=
  if c = '"' then ['\\', '"']
  else if c = '\\' then ['\\', '\\']
  else if c = '\n' then ['\\', 'n']
  else if c = '\t' then ['\\', 't']
  else [c]

/-- The written form of a text, without the quotes around it. -/
def encode (text : List Char) : List Char :=
  text.flatMap encodeChar

/-- The character that an escaped one stands for. -/
def escaped (c : Char) : Char :=
  if c = 'n' then '\n' else if c = 't' then '\t' else c

/-- The text that a written form stands for. -/
def decode : List Char → List Char
  | [] => []
  | ['\\'] => []
  | '\\' :: c :: rest => escaped c :: decode rest
  | c :: rest => c :: decode rest

/-- The written form that stands before the first closing quote. There is none if a line feed or
the end of the text comes first. -/
def body? : List Char → Option (List Char)
  | [] => none
  | '"' :: _ => some []
  | '\n' :: _ => none
  | '\\' :: [] => none
  | '\\' :: '\n' :: _ => none
  | '\\' :: c :: rest => (body? rest).map fun body => '\\' :: c :: body
  | c :: rest => (body? rest).map (c :: ·)

/-- A text in quotes. -/
def quote (text : String) : String :=
  "\"" ++ String.ofList (encode text.toList) ++ "\""

/-- Decoding undoes encoding, whatever is encoded behind the text. -/
theorem decode_encode_append (text rest : List Char) :
    decode (encode text ++ rest) = text ++ decode rest := by
  induction text with
  | nil => rfl
  | cons c text ih =>
    simp only [encode, List.flatMap_cons, encodeChar] at ih ⊢
    split
    · simp_all [decode, escaped]
    split
    · simp_all [decode, escaped]
    split
    · simp_all [decode, escaped]
    split
    · simp_all [decode, escaped]
    · rename_i notQuote notSlash notLine notTab
      simp only [List.cons_append, List.nil_append]
      rw [decode, ih]
      · intro same; exact absurd same notSlash
      · intro _ _ same; exact absurd same notSlash

/-- Reading a written text gives it back. -/
theorem decode_encode (text : List Char) : decode (encode text) = text := by
  simpa [decode] using decode_encode_append text []

end Quill.Text.Quoted
