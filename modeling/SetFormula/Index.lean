import SetFormula.Text.Numeral
import SetFormula.Text.Quoted

/-!
# Variable indices

A variable is a number from `0` to `maxIndex`. The top of the range encodes the variables written
as one ASCII letter; the others are written `v` with a subscript number.

* `indexOfLetter c` and `letterOf? i` are the two directions of the letter encoding.
* `indexText i` is the text of a variable.
-/

namespace SetFormula

/-- The largest variable index. -/
def maxIndex : Nat := 4294967295

/-- The index of the variable written as the letter `c`. -/
def indexOfLetter (c : Char) : Nat := maxIndex - c.toNat

/-- The smallest index of a letter: numbered variables lie below it. -/
def letterStart : Nat := indexOfLetter 'z'

/-- The letter that an index encodes, if it encodes one. -/
def letterOf? (i : Int) : Option Char :=
  let code := (maxIndex : Int) - i
  if 0 ≤ code ∧ code < 128 ∧ (Char.ofNat code.toNat).isAlpha then some (Char.ofNat code.toNat)
  else none

/-- Whether an index encodes a letter. -/
def isLetter (i : Int) : Bool := (letterOf? i).isSome

/-- The letter in front of a numbered variable. -/
def numberedLetter : Char := 'v'

/-- The characters of a variable: its letter, or `v` with the number in subscript digits. -/
def indexChars (i : Int) : List Char :=
  match letterOf? i with
  | some c => [c]
  | none => numberedLetter :: Text.subscript i

/-- The text of a variable: its letter, or `v` with the number in subscript digits. -/
def indexText (i : Int) : String := String.ofList (indexChars i)

/-! ## Names -/

/-- Why a name and an index do not belong together. -/
inductive NameFault where
  /-- The text is not one ASCII letter. -/
  | notALetter (text : String)
  /-- The index encodes no letter. -/
  | noLetter (index : Int)
  deriving DecidableEq, Repr

/-- The wording of a name fault. -/
def NameFault.message : NameFault → String
  | .notALetter text => "Not a variable letter: " ++ Text.quote text
  | .noLetter index => "Index " ++ toString index ++ " does not encode a letter"

/-- The index of the variable with the given one-letter name. -/
def indexOfName (name : String) : Except NameFault Nat :=
  match name.toList with
  | [c] => if c.isAlpha then .ok (indexOfLetter c) else .error (.notALetter name)
  | _ => .error (.notALetter name)

/-- The letter that an index encodes. -/
def nameOfIndex (i : Int) : Except NameFault String :=
  match letterOf? i with
  | some c => .ok (String.singleton c)
  | none => .error (.noLetter i)

end SetFormula
