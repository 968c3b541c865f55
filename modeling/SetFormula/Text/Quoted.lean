import SetFormula.Text.Printable

/-!
# Quoted text

How a piece of input is shown inside a message: between quotes, with characters that would not be
visible written as escapes.

* `quote s` is the quoted form of a string.
* `quoteList ss` is the quoted form of a list of strings, between square brackets.
-/

namespace SetFormula.Text

/-- `n` in hexadecimal, with leading zeros up to `width` digits. -/
def hexadecimal (width n : Nat) : List Char :=
  let digits := Nat.toDigits 16 n
  List.replicate (width - digits.length) '0' ++ digits

/-- The form of one character between quotes of the kind `mark`. -/
def escape (mark c : Char) : List Char :=
  if c == mark || c == '\\' then ['\\', c]
  else if c == '\n' then ['\\', 'n']
  else if c == '\r' then ['\\', 'r']
  else if c == '\t' then ['\\', 't']
  else if isPrintable c then [c]
  else if c.toNat < 0x100 then '\\' :: 'x' :: hexadecimal 2 c.toNat
  else if c.toNat < 0x10000 then '\\' :: 'u' :: hexadecimal 4 c.toNat
  else '\\' :: 'U' :: hexadecimal 8 c.toNat

/-- The quotation mark for a text: single, unless the text has a single mark and no double one. -/
def quotationMark (cs : List Char) : Char :=
  if cs.contains '\'' && !cs.contains '"' then '"' else '\''

/-- The text between quotation marks, with escapes for what is not printable. -/
def quoteChars (cs : List Char) : List Char :=
  let mark := quotationMark cs
  mark :: cs.flatMap (escape mark) ++ [mark]

/-- The text between quotation marks, with escapes for what is not printable. -/
def quote (s : String) : String := String.ofList (quoteChars s.toList)

/-- The quoted texts, separated by commas, between square brackets. -/
def quoteList (ss : List String) : String := "[" ++ ", ".intercalate (ss.map quote) ++ "]"

end SetFormula.Text
