import SetFormula.Symbol

/-!
# Switches

Each construct that can be eliminated has a switch. A setting of all switches, `Switches`, says which
constructs are eliminated.
-/

namespace SetFormula

/-- The constructs that can be eliminated. -/
inductive Switch where
  /-- Letters as variables. -/
  | letters
  /-- The relations `≠`, `∉` and `⊈`. -/
  | negatedRelations
  /-- The relation `⊆`. -/
  | subset
  | singleton
  | comprehension
  | powerSet
  | bigUnion
  | bigIntersection
  | union
  | intersection
  | difference
  | pairSet
  | emptySet
  | omega
  deriving DecidableEq, Repr

namespace Switch

/-- All switches, in the order in which they are listed. -/
def all : List Switch :=
  [letters, negatedRelations, subset, singleton, comprehension, powerSet, bigUnion,
    bigIntersection, union, intersection, difference, pairSet, emptySet, omega]

/-- The name of a switch. -/
def name : Switch → String
  | letters => "variables"
  | negatedRelations => "negated_relations"
  | subset => "subset"
  | singleton => "singleton"
  | comprehension => "comprehension"
  | powerSet => "power_set"
  | bigUnion => "big_union"
  | bigIntersection => "big_intersection"
  | union => "union"
  | intersection => "intersection"
  | difference => "difference"
  | pairSet => "pair_set"
  | emptySet => "empty_set"
  | omega => "omega"

/-- The names of all switches. -/
def names : List String := all.map name

/-- What a switch eliminates, as it is shown to the user. -/
def description : Switch → String
  | letters => "rename letter variables to v0, v1, ..."
  | negatedRelations => "≠ ∉ ⊈"
  | subset => "⊆"
  | singleton => "\x7bA\x7d"
  | comprehension => "\x7by ∈ A | φ\x7d"
  | powerSet => "Pot(A)"
  | bigUnion => "⋃(A)"
  | bigIntersection => "⋂(A)"
  | union => "A ∪ B"
  | intersection => "A ∩ B"
  | difference => "A \\ B"
  | pairSet => "\x7bA, B\x7d"
  | emptySet => "∅"
  | omega => "ω"

/-- The switch with the given name. -/
def ofName? (s : String) : Option Switch := all.find? fun w => w.name == s

end Switch

/-- The switch of an operator with one operand. -/
def UnaryOperator.switch : UnaryOperator → Switch
  | singleton => .singleton
  | powerSet => .powerSet
  | bigUnion => .bigUnion
  | bigIntersection => .bigIntersection

/-- The switch of an operator with two operands. -/
def BinaryOperator.switch : BinaryOperator → Switch
  | union => .union
  | intersection => .intersection
  | difference => .difference
  | pairSet => .pairSet

/-- The switch of a constant. -/
def Constant.switch : Constant → Switch
  | emptySet => .emptySet
  | omega => .omega

/-! ## Settings of all switches -/

/-- Which switches are on. -/
abbrev Switches := Switch → Bool

namespace Switches

/-- Every switch on. -/
def allOn : Switches := fun _ => true

/-- Every switch off. -/
def allOff : Switches := fun _ => false

/-- Only the given switches on. -/
def ofList (ws : List Switch) : Switches := fun w => ws.contains w

/-- The given switches off, the others as they are. -/
def turnOff (s : Switches) (ws : List Switch) : Switches := fun w => s w && !ws.contains w

/-- One switch turned over. -/
def toggle (s : Switches) (w : Switch) : Switches := fun v => if v = w then !s v else s v

/-- The names of the switches that are on, in order. -/
def onNames (s : Switches) : List String := (Switch.all.filter s).map Switch.name

/-- Whether some operator or the comprehension is eliminated. -/
def touchesOperators (s : Switches) : Bool :=
  s .comprehension || UnaryOperator.all.any (fun k => s k.switch) ||
    BinaryOperator.all.any (fun k => s k.switch)

/-- Whether some constant is eliminated. -/
def touchesConstants (s : Switches) : Bool := Constant.all.any fun c => s c.switch

end Switches

end SetFormula
