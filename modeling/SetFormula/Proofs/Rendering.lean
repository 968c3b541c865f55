import SetFormula.Expr.Printer

/-!
# The printer follows the tree

Printing along chains gives the text by recursion (`render_eq_renderPlain`). A tree that stands at
the left end of a chain is completed by the links of the chain: in a chain of operators it gets
parentheses if it is itself a link (`renderOn_eq`).

A chain can also be followed to its end before anything is printed. `operatorSpine` and
`connectiveSpine` go down the left side of a tree and collect the links; the text of the tree is that
of its leftmost operand, completed by the links from the innermost one on (`chains_follow_tree`).
-/

namespace SetFormula.Expr

/-- The text of a tree at the left end of a chain. A chain of operators has a link. -/
theorem renderOn_eq (e : Expr) :
    e.renderOn .none = e.renderPlain ∧
      (∀ link links, e.renderOn (.operators (link :: links)) =
        Chain.operatorText (parenthesizeIf e.isChainLink e.renderPlain) (link :: links)) ∧
      ∀ links, e.renderOn (.connectives links) = Chain.connectiveText e.renderPlain links := by
  induction e with
  | var i => exact ⟨rfl, fun _ _ => rfl, fun _ => rfl⟩
  | constant c => exact ⟨rfl, fun _ _ => rfl, fun _ => rfl⟩
  | relation r a b iha ihb =>
    simp only [renderOn, renderPlain, iha.1, ihb.1]
    exact ⟨rfl, fun _ _ => rfl, fun _ => rfl⟩
  | negation a ih =>
    simp only [renderOn, renderPlain, ih.1]
    exact ⟨rfl, fun _ _ => rfl, fun _ => rfl⟩
  | quantified q x a ih =>
    simp only [renderOn, renderPlain, ih.1]
    exact ⟨rfl, fun _ _ => rfl, fun _ => rfl⟩
  | connective c a b iha ihb =>
    -- the link of this node joins a chain of connectives and starts one anywhere else
    simp only [renderOn, renderPlain, iha.2.2, ihb.1]
    exact ⟨rfl, fun _ _ => rfl, fun _ => rfl⟩
  | unary k a ih =>
    cases k <;> simp only [renderOn, renderPlain, ih.1] <;>
      exact ⟨rfl, fun _ _ => rfl, fun _ => rfl⟩
  | binary k a b iha ihb =>
    cases k <;> simp only [renderOn, renderPlain, iha.1, iha.2.1, ihb.1] <;>
      exact ⟨rfl, fun _ _ => rfl, fun _ => rfl⟩
  | comprehension x d p ihd ihp =>
    simp only [renderOn, renderPlain, ihd.1, ihp.1]
    exact ⟨rfl, fun _ _ => rfl, fun _ => rfl⟩

theorem render_eq_renderPlain (e : Expr) : e.render = e.renderPlain := (renderOn_eq e).1

/-! ## Chains followed to their end -/

/-- Go down the left side of a tree as long as there are operators between sets: the operand at the
end, and the operators with their right operands from the innermost one on, before those that were
passed already. -/
def operatorSpine : Expr → List (BinaryOperator × Expr) → Expr × List (BinaryOperator × Expr)
  | binary k a b, passed =>
    if k.isBetween then a.operatorSpine ((k, b) :: passed) else (binary k a b, passed)
  | e, passed => (e, passed)

/-- Go down the left side of a tree as long as there are connectives: the formula at the end, and the
connectives with their right sides from the innermost one on, before those that were passed
already. -/
def connectiveSpine : Expr → List (Connective × Expr) → Expr × List (Connective × Expr)
  | connective c a b, passed => a.connectiveSpine ((c, b) :: passed)
  | e, passed => (e, passed)

/-- An operand of an operator: it gets parentheses if it is itself an operator between two
operands. -/
def operandText (e : Expr) : String := parenthesizeIf e.isChainLink e.render

/-- What an operator and its right operand add to a text. -/
def operatorLink (l : BinaryOperator × Expr) : String × String := (l.1.symbol, l.2.operandText)

/-- What a connective and its right side add to a text. -/
def connectiveLink (l : Connective × Expr) : String × String := (l.1.symbol, l.2.render)

theorem render_binary (k : BinaryOperator) (a b : Expr) :
    (binary k a b).render =
      if k.isBetween then a.operandText ++ " " ++ k.symbol ++ " " ++ b.operandText
      else brace (a.render ++ ", " ++ b.render) := by
  simp only [operandText, render_eq_renderPlain]
  cases k <;> rfl

theorem render_connective (c : Connective) (a b : Expr) :
    (connective c a b).render = parenthesize (a.render ++ " " ++ c.symbol ++ " " ++ b.render) := by
  simp only [render_eq_renderPlain]
  rfl

/-- A chain of operators goes on with what has been printed of it, in parentheses. -/
theorem operatorText_parenthesize (text : String) (link : String × String)
    (links : List (String × String)) :
    Chain.operatorText (parenthesize text) (link :: links) =
      (link :: links).foldl
        (fun text link => parenthesize text ++ " " ++ link.1 ++ " " ++ link.2) text := rfl

/-- The invariant of the way down a chain of operators: what has been passed completes the text of
the tree that has been reached, which is an operand of it unless nothing has been passed. -/
theorem operatorText_operatorSpine (e : Expr) (passed : List (BinaryOperator × Expr)) :
    Chain.operatorText (e.operatorSpine passed).1.render
        ((e.operatorSpine passed).2.map operatorLink) =
      if passed.isEmpty then e.render
      else Chain.operatorText e.operandText (passed.map operatorLink) := by
  -- at the end of the chain, the tree is no link and gets no parentheses
  have hend {e : Expr} (h : e.isChainLink = false) (passed : List (BinaryOperator × Expr)) :
      Chain.operatorText e.render (passed.map operatorLink) =
        if passed.isEmpty then e.render
        else Chain.operatorText e.operandText (passed.map operatorLink) := by
    rw [operandText, h]
    cases passed <;> rfl
  induction e generalizing passed with
  | binary k a b iha ihb =>
    by_cases hk : k.isBetween
    · have hrender : a.operandText ++ " " ++ k.symbol ++ " " ++ b.operandText =
          (binary k a b).render := by
        rw [render_binary, if_pos hk]
      rw [operatorSpine, if_pos hk, iha]
      -- the link of this node is the first one, before which nothing gets parentheses
      change ((passed.map operatorLink).foldl _
        (a.operandText ++ " " ++ k.symbol ++ " " ++ b.operandText)) = _
      rw [hrender]
      cases passed with
      | nil => rfl
      | cons l passed =>
        have hlink : (binary k a b).isChainLink := hk
        rw [operandText, hlink]
        exact (operatorText_parenthesize _ _ _).symm
    · have hlink : (binary k a b).isChainLink = false := Bool.eq_false_iff.2 hk
      rw [operatorSpine, if_neg hk]
      exact hend hlink passed
  | _ => exact hend rfl passed

theorem connectiveText_connectiveSpine (e : Expr) (passed : List (Connective × Expr)) :
    Chain.connectiveText (e.connectiveSpine passed).1.render
        ((e.connectiveSpine passed).2.map connectiveLink) =
      Chain.connectiveText e.render (passed.map connectiveLink) := by
  induction e generalizing passed with
  | connective c a b iha ihb =>
    rw [connectiveSpine, iha, render_connective]
    rfl
  | _ => rfl

/-- **Chains are printed as the tree is.** Every tree, well sorted or not, is printed as by recursion
on it: an operator between sets is its left operand, its symbol and its right operand, each in
parentheses if and only if it is itself such an operator, and a connective is its two sides and its
symbol in parentheses. This is also the text that arises when the left side is followed to its end
in a loop and the links are then added from the innermost one on, which puts what stands before each
further operator in parentheses. -/
theorem chains_follow_tree :
    (∀ e : Expr, e.render = e.renderPlain) ∧
    (∀ (k : BinaryOperator) (a b : Expr), (binary k a b).render =
      if k.isBetween then a.operandText ++ " " ++ k.symbol ++ " " ++ b.operandText
      else brace (a.render ++ ", " ++ b.render)) ∧
    (∀ (c : Connective) (a b : Expr), (connective c a b).render =
      parenthesize (a.render ++ " " ++ c.symbol ++ " " ++ b.render)) ∧
    (∀ e : Expr, e.render = Chain.operatorText (e.operatorSpine []).1.render
      ((e.operatorSpine []).2.map operatorLink)) ∧
    ∀ e : Expr, e.render = Chain.connectiveText (e.connectiveSpine []).1.render
      ((e.connectiveSpine []).2.map connectiveLink) := by
  refine ⟨render_eq_renderPlain, render_binary, render_connective, ?_, ?_⟩
  · intro e
    rw [operatorText_operatorSpine]
    rfl
  · intro e
    rw [connectiveText_connectiveSpine]
    rfl

end SetFormula.Expr
