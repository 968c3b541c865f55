import SetFormula.Expr.Parser
import SetFormula.Proofs.Printed

/-!
# The grammar

`Derives n w e` says that the items `w` can be derived from the nonterminal `n` and that `e` is the
tree of that derivation. There is a rule for each alternative of the grammar:

```
formula  ::= QUANTIFIER variable formula | NEGATION formula
           | "(" formula CONNECTIVE formula ")" | "(" formula ")"
           | term RELATION term
term     ::= atom | term OPERATOR atom
atom     ::= VARIABLE | CONSTANT | OPERATOR "(" term ")" | "(" term ")"
           | "{" term "}" | "{" term "," term "}" | "{" membership "|" formula "}"
```

Chains of operators group to the left, and plain parentheses leave no node. The membership of a
comprehension is any formula whose tree is that of `x ∈ A`, so there may be parentheses in it.
-/

namespace SetFormula

/-- What can be derived. -/
inductive Nonterminal where
  | formula
  | term
  | atom
  deriving DecidableEq, Repr

open Item

/-- The items can be derived from the nonterminal, with the given tree. -/
inductive Derives : Nonterminal → List Item → Expr → Prop
  | quantified {text : String} {q : Quantifier} {w : List Item} {e : Expr}
      (hq : Quantifier.ofSpelling? text = some q) (x : Nat) (he : Derives .formula w e) :
    Derives .formula (.symbol .quantifier text :: .var x :: w) (.quantified q x e)
  | negation {text : String} {w : List Item} {e : Expr}
      (hn : Junction.ofSpelling? text = some .negation) (he : Derives .formula w e) :
    Derives .formula (.symbol .connective text :: w) (.negation e)
  | connective {text : String} {c : Connective} {v w : List Item} {a b : Expr}
      (hc : Junction.ofSpelling? text = some (.binary c)) (ha : Derives .formula v a)
      (hb : Derives .formula w b) :
    Derives .formula (bracket "(" :: (v ++ .symbol .connective text :: (w ++ [bracket ")"])))
      (.connective c a b)
  | inParentheses {w : List Item} {e : Expr} (he : Derives .formula w e) :
    Derives .formula (bracket "(" :: (w ++ [bracket ")"])) e
  | relation {text : String} {r : Relation} {v w : List Item} {a b : Expr}
      (hr : Relation.ofSpelling? text = some r) (ha : Derives .term v a) (hb : Derives .term w b) :
    Derives .formula (v ++ .symbol .relation text :: w) (.relation r a b)
  | ofAtom {w : List Item} {e : Expr} (he : Derives .atom w e) : Derives .term w e
  | operator {text : String} {k : BinaryOperator} {v w : List Item} {a b : Expr}
      (hk : BinaryOperator.ofSpelling? text = some k) (ha : Derives .term v a)
      (hb : Derives .atom w b) :
    Derives .term (v ++ .symbol .binaryOperator text :: w) (.binary k a b)
  | var (x : Nat) : Derives .atom [.var x] (.var x)
  | constant (c : Constant) : Derives .atom [.constant c] (.constant c)
  | applied {text : String} {k : UnaryOperator} {w : List Item} {e : Expr}
      (hk : UnaryOperator.ofSpelling? text = some k) (he : Derives .term w e) :
    Derives .atom (.symbol .unaryOperator text :: bracket "(" :: (w ++ [bracket ")"])) (.unary k e)
  | termInParentheses {w : List Item} {e : Expr} (he : Derives .term w e) :
    Derives .atom (bracket "(" :: (w ++ [bracket ")"])) e
  | singleton {w : List Item} {e : Expr} (he : Derives .term w e) :
    Derives .atom (bracket "\x7b" :: (w ++ [bracket "\x7d"])) (.unary .singleton e)
  | pairSet {v w : List Item} {a b : Expr} (ha : Derives .term v a) (hb : Derives .term w b) :
    Derives .atom (bracket "\x7b" :: (v ++ bracket "," :: (w ++ [bracket "\x7d"])))
      (.binary .pairSet a b)
  | comprehension {v w : List Item} {x : Nat} {d p : Expr}
      (hd : Derives .formula v (.mem (.var x) d)) (hp : Derives .formula w p) :
    Derives .atom (bracket "\x7b" :: (v ++ bracket "|" :: (w ++ [bracket "\x7d"])))
      (.comprehension x d p)

/-- The tokens stand for items that can be derived as a formula with the given tree. -/
def DerivesTokens (tokens : List Token) (e : Expr) : Prop :=
  ∃ items, itemsOf tokens = .ok items ∧ Derives .formula items e

namespace Derives

variable {n : Nonterminal} {w : List Item} {e : Expr}

/-- Nothing is derived as no items. -/
theorem ne_nil (h : Derives n w e) : w ≠ [] := by
  induction h with
  | ofAtom _ ih => exact ih
  | _ => simp

/-- The tree has the sort of the nonterminal, and so have all its parts. -/
theorem sorted (h : Derives n w e) :
    if n = .formula then e.isWellSortedFormula else e.isWellSortedTerm := by
  induction h with
  | quantified _ _ _ ih | negation _ _ ih | inParentheses _ ih | ofAtom _ ih | applied _ _ ih
  | termInParentheses _ ih | singleton _ ih => exact ih
  | connective _ _ _ iha ihb | relation _ _ _ iha ihb | operator _ _ _ iha ihb
  | pairSet _ _ iha ihb => exact Bool.and_eq_true_iff.2 ⟨iha, ihb⟩
  | var x | constant c => rfl
  | comprehension _ _ ihd ihp => exact Bool.and_eq_true_iff.2 ⟨ihd, ihp⟩

theorem isFormula (h : Derives .formula w e) : e.isFormula :=
  Expr.isFormula_of_isWellSortedFormula h.sorted

theorem isSet (h : Derives .term w e) : e.isSet := Expr.isSet_of_isWellSortedTerm h.sorted

theorem isSet_of_atom (h : Derives .atom w e) : e.isSet := Expr.isSet_of_isWellSortedTerm h.sorted

/-- The variables of the tree stand among the items. -/
theorem mem_of_mem_occurrences (h : Derives n w e) {i : Nat} (hi : i ∈ e.occurrences) :
    .var i ∈ w := by
  induction h with
  | quantified _ _ _ ih =>
    rw [Expr.occurrences_quantified, List.mem_cons] at hi
    rcases hi with rfl | hi
    · simp
    · simp [ih hi]
  | negation _ _ ih =>
    rw [Expr.occurrences_negation] at hi
    exact List.mem_cons_of_mem _ (ih hi)
  | applied _ _ ih | singleton _ ih =>
    rw [Expr.occurrences_unary] at hi
    simp [ih hi]
  | inParentheses _ ih | termInParentheses _ ih => simp [ih hi]
  | ofAtom _ ih => exact ih hi
  | connective _ _ _ iha ihb =>
    rw [Expr.occurrences_connective, List.mem_append] at hi
    rcases hi with hi | hi
    · simp [iha hi]
    · simp [ihb hi]
  | relation _ _ _ iha ihb =>
    rw [Expr.occurrences_relation, List.mem_append] at hi
    rcases hi with hi | hi
    · simp [iha hi]
    · simp [ihb hi]
  | operator _ _ _ iha ihb | pairSet _ _ iha ihb =>
    rw [Expr.occurrences_binary, List.mem_append] at hi
    rcases hi with hi | hi
    · simp [iha hi]
    · simp [ihb hi]
  | var x =>
    rw [Expr.occurrences_var, List.mem_singleton] at hi
    subst hi
    exact List.mem_cons_self
  | constant c =>
    rw [Expr.occurrences_constant] at hi
    cases hi
  | comprehension _ _ ihd ihp =>
    rw [Expr.occurrences_comprehension, ← List.cons_append, List.mem_append] at hi
    rw [Expr.occurrences_relation, Expr.occurrences_var, List.singleton_append] at ihd
    rcases hi with hi | hi
    · simp [ihd hi]
    · simp [ihp hi]

end Derives

end SetFormula
