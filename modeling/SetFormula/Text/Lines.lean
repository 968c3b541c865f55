/-!
# Lines of a text

A line ends at a line feed, a carriage return, or the two in this order.
-/

namespace SetFormula.Text

/-- Put a character at the front of the first line. -/
def consLine (c : Char) : List (List Char) → List (List Char)
  | [] => [[c]]
  | l :: ls => (c :: l) :: ls

/-- The lines of a text without their ends. What follows the last line end is a line too, even if it
is empty. -/
def lineChars : List Char → List (List Char)
  | [] => [[]]
  | '\r' :: '\n' :: cs => [] :: lineChars cs
  | c :: cs => if c = '\n' || c = '\r' then [] :: lineChars cs else consLine c (lineChars cs)

/-- The lines of a text without their ends. -/
def lines (s : String) : List String := (lineChars s.toList).map String.ofList

/-- The pieces of a list between the occurrences of `a`. -/
def splitAt (a : Char) : List Char → List (List Char)
  | [] => [[]]
  | c :: cs => if c = a then [] :: splitAt a cs else consLine c (splitAt a cs)

/-- The pieces of a text between commas. -/
def commaParts (s : String) : List String := (splitAt ',' s.toList).map String.ofList

/-- What stands before and after the first occurrence of `a`, if it occurs. -/
def cutAt? (a : Char) (s : String) : Option (String × String) :=
  match s.toList.span (· != a) with
  | (_, []) => none
  | (before, _ :: after) => some (String.ofList before, String.ofList after)

end SetFormula.Text
