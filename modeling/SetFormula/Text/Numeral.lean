import SetFormula.Text.Blank

/-!
# Decimal numerals

Indices are printed with subscript digits and read from plain, subscript or any other decimal
digits.

* `subscript n` is the text of an integer in subscript digits.
* `readInteger cs` reads an integer: blanks at the ends, a sign, and single underscores between
  digits are allowed, and a numeral of more than `maxDigits` digits is refused, whatever follows it.
-/

namespace SetFormula.Text

/-! ## Subscript digits -/

/-- The subscript form of a decimal digit; other characters stay. -/
def toSubscript (c : Char) : Char :=
  if c.isDigit then Char.ofNat (0x2080 + (c.toNat - 0x30)) else c

/-- The plain form of a subscript digit; other characters stay. -/
def ofSubscript (c : Char) : Char :=
  if 0x2080 ≤ c.toNat && c.toNat ≤ 0x2089 then Char.ofNat (0x30 + (c.toNat - 0x2080)) else c

/-- The digits that may follow the letter of an indexed variable. -/
def isIndexDigit (c : Char) : Bool := c.isDigit || (0x2080 ≤ c.toNat && c.toNat ≤ 0x2089)

/-- A natural number in subscript digits. -/
def subscriptNat (n : Nat) : List Char := (Nat.toDigits 10 n).map toSubscript

/-- An integer in subscript digits, after a minus sign if it is negative. -/
def subscript : Int → List Char
  | .ofNat n => subscriptNat n
  | .negSucc n => '-' :: subscriptNat (n + 1)

/-! ## Reading -/

/-- The zeros of the decimal digit sequences; each is followed by its nine other digits. -/
def decimalZeros : List Nat :=
  [0x30, 0x660, 0x6F0, 0x7C0, 0x966, 0x9E6, 0xA66, 0xAE6, 0xB66, 0xBE6, 0xC66, 0xCE6, 0xD66, 0xDE6,
    0xE50, 0xED0, 0xF20, 0x1040, 0x1090, 0x17E0, 0x1810, 0x1946, 0x19D0, 0x1A80, 0x1A90, 0x1B50,
    0x1BB0, 0x1C40, 0x1C50, 0xA620, 0xA8D0, 0xA900, 0xA9D0, 0xA9F0, 0xAA50, 0xABF0, 0xFF10, 0x104A0,
    0x10D30, 0x11066, 0x110F0, 0x11136, 0x111D0, 0x112F0, 0x11450, 0x114D0, 0x11650, 0x116C0,
    0x11730, 0x118E0, 0x11950, 0x11C50, 0x11D50, 0x11DA0, 0x16A60, 0x16AC0, 0x16B50, 0x1D7CE,
    0x1D7D8, 0x1D7E2, 0x1D7EC, 0x1D7F6, 0x1E140, 0x1E2F0, 0x1E950, 0x1FBF0]

/-- The value of a decimal digit of any script. -/
def digitValue? (c : Char) : Option Nat :=
  (decimalZeros.find? fun z => z ≤ c.toNat && c.toNat ≤ z + 9).map (c.toNat - ·)

/-- The digit values of a numeral in which single underscores may stand between digits. -/
def digitValues? : List Char → Option (List Nat)
  | [] => none
  | [c] => (digitValue? c).map ([·])
  | c :: '_' :: rest => do
    let d ← digitValue? c
    let ds ← digitValues? rest
    return d :: ds
  | c :: rest => do
    let d ← digitValue? c
    let ds ← digitValues? rest
    return d :: ds

/-- The number with the given decimal digits, the most significant first. -/
def ofDigitValues (ds : List Nat) : Nat := ds.foldl (fun n d => 10 * n + d) 0

/-- The longest numeral that is read, in digits. -/
def maxDigits : Nat := 4300

/-- Why a text is not read as an integer. -/
inductive NumeralFault where
  /-- The text is not a numeral. -/
  | malformed
  /-- The numeral has this number of digits, more than `maxDigits`. -/
  | tooLong (digits : Nat)
  deriving DecidableEq, Repr

/-- The blanks that may surround a numeral: white space, the information separators apart. -/
def isNumeralBlank (c : Char) : Bool := isBlank c && !(0x1C ≤ c.toNat && c.toNat ≤ 0x1F)

/-- Whether a character can be part of a numeral after its sign. -/
def isNumeralChar (c : Char) : Bool := c == '_' || (digitValue? c).isSome

/-- Read an unsigned numeral and the blanks after it. The numeral ends where no digit or underscore
follows, and its length is looked at before the rest. -/
def readNatural (cs : List Char) : Except NumeralFault Nat :=
  match digitValues? (cs.takeWhile isNumeralChar) with
  | none => .error .malformed
  | some ds =>
    if maxDigits < ds.length then .error (.tooLong ds.length)
    else if (cs.dropWhile isNumeralChar).all isNumeralBlank then .ok (ofDigitValues ds)
    else .error .malformed

/-- Read an integer: a numeral after an optional sign, between optional blanks. -/
def readInteger (cs : List Char) : Except NumeralFault Int :=
  match cs.dropWhile isNumeralBlank with
  | '-' :: rest => (readNatural rest).map fun n => -(n : Int)
  | '+' :: rest => (readNatural rest).map fun n => (n : Int)
  | rest => (readNatural rest).map fun n => (n : Int)

end SetFormula.Text
