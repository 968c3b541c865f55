/-!
# Classes of characters by their bounds

A class of characters is given by the code points at which membership changes, in increasing order:
characters before the first are outside, those from the first up to the second are inside, and so on.
-/

namespace SetFormula.Text

/-- Whether a character is inside: an odd number of changes lie at or before it. -/
def withinBounds (bounds : List Nat) (c : Char) : Bool :=
  (bounds.takeWhile (· ≤ c.toNat)).length % 2 == 1

end SetFormula.Text
