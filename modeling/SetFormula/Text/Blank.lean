/-!
# White space

`isBlank` is the class of characters that carry no meaning in a formula text, and `trim` removes
them from both ends of a string.
-/

namespace SetFormula.Text

/-- White space: the tab and line-end controls, the information separators, the space, and the
other space and line separators. The zero-width characters are not among them. -/
def isBlank (c : Char) : Bool :=
  let n := c.toNat
  (0x09 ≤ n && n ≤ 0x0D) || (0x1C ≤ n && n ≤ 0x20) || n == 0x85 || n == 0xA0 || n == 0x1680 ||
    (0x2000 ≤ n && n ≤ 0x200A) || n == 0x2028 || n == 0x2029 || n == 0x202F || n == 0x205F ||
    n == 0x3000

/-- The characters without the blanks at both ends. -/
def trimChars (cs : List Char) : List Char :=
  ((cs.dropWhile isBlank).reverse.dropWhile isBlank).reverse

/-- The string without the blanks at both ends. -/
def trim (s : String) : String := String.ofList (trimChars s.toList)

end SetFormula.Text
