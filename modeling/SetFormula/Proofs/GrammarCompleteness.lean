import SetFormula.Proofs.GrammarSoundness

/-!
# The parser reads every derivation

Items that the grammar derives are read as the tree of the derivation, whatever follows that cannot
continue them, with more levels of nesting than there are items among them that open one
(`Derives.isRead`). The proof is by induction on the derivation, with one statement for each
nonterminal.

* An atom is read by `primary`, whatever follows.
* A term starts with an atom that `primary` reads. To read the operators after it comes to the same
  as to read those after the whole term (`IsReadAs`), so a chain of operators is taken apart from
  its last operator on, although it is read from the first.
* A formula is read by `expression`, if no operator and no relation follows.

Together with soundness, `parseItems` reads exactly the items of formulas (`parseItems_eq_ok_iff`),
and a list of items has one tree at most (`Derives.unique`).
-/

namespace SetFormula

open SetFormula.Expr SetFormula.Item

namespace Script

/-! ## Running scripts -/

section Steps

variable {p : Parse Expr} {α β : Type} {items : List Item}

theorem run_peek_bind (f : Option Item → Script β) (items : List Item) :
    (peek >>= f).run p items = (f items.head?).run p items := rfl

theorem run_advance_bind (f : Item → Script β) (item : Item) (items : List Item) :
    (advance >>= f).run p (item :: items) = (f item).run p items := rfl

theorem run_remaining_bind (f : Nat → Script β) (items : List Item) :
    (remaining >>= f).run p items = (f items.length).run p items := rfl

theorem run_known_bind (text : String) (a : α) (f : α → Script β) (items : List Item) :
    (known text (some a) >>= f).run p items = (f a).run p items := rfl

theorem run_take_bind {text : String} {spelling? : String → Option α} {a : α}
    (h : spelling? text = some a) (kind : TokenClass) (f : String × α → Script β)
    (items : List Item) :
    (take spelling? >>= f).run p (.symbol kind text :: items) = (f (text, a)).run p items := by
  refine run_bind_of_eq_ok ?_
  change (known text (spelling? text) >>= fun a => pure (text, a)).run p items = _
  rw [h]
  rfl

theorem run_expect_bind {purpose : BracketPurpose} (text : String) (h : purpose.bracket = text)
    (f : Unit → Script β) (items : List Item) :
    (expect purpose >>= f).run p (bracket text :: items) = (f ()).run p items := by
  subst h
  refine run_bind_of_eq_ok ?_
  rw [expect, run_peek_bind]
  change (if bracket purpose.bracket = .symbol .bracket purpose.bracket then _
    else refuse _ : Script Unit).run p (bracket purpose.bracket :: items) = _
  rw [if_pos rfl]
  rfl

theorem run_requireOperand_bind (role : Role) (f : Unit → Script β) (h : items ≠ []) :
    (requireOperand role >>= f).run p items = (f ()).run p items := by
  cases items with
  | nil => exact absurd rfl h
  | cons item items => rfl

theorem run_requireSet_bind (role : Role) (left : Nat) {e : Expr} (h : e.isSet)
    (f : Unit → Script β) (items : List Item) :
    (requireSet role left e >>= f).run p items = (f ()).run p items := by
  rw [requireSet, if_pos h]
  rfl

end Steps

/-! ## Where an expression ends -/

/-- No operator follows. -/
def NoOperator (rest : List Item) : Prop := ∀ text, rest.head? ≠ some (.symbol .binaryOperator text)

/-- No operator and no relation follows. -/
structure Stops (rest : List Item) : Prop where
  noOperator : NoOperator rest
  noRelation : ∀ text, rest.head? ≠ some (.symbol .relation text)

theorem stops_nil : Stops [] := ⟨nofun, nofun⟩

theorem stops_bracket (text : String) (rest : List Item) : Stops (bracket text :: rest) :=
  ⟨nofun, nofun⟩

theorem stops_connective (text : String) (rest : List Item) :
    Stops (.symbol .connective text :: rest) :=
  ⟨nofun, nofun⟩

theorem noOperator_relation (text : String) (rest : List Item) :
    NoOperator (.symbol .relation text :: rest) := nofun

section Levels

variable {p : Parse Expr} {e first second : Expr} {items rest : List Item}

theorem atom_eq_ok {role : Role} (h : p items = .ok (e, rest)) (hne : items ≠ [])
    (hset : e.isSet) : (atom role).run p items = .ok (e, rest) := by
  rw [atom, run_requireOperand_bind role _ hne, run_remaining_bind,
    run_bind_of_eq_ok ((run_nested items).trans h), run_requireSet_bind role _ hset]
  rfl

theorem chain_stop (n : Nat) (first : Expr) (h : NoOperator rest) :
    (chain (n + 1) first).run p rest = .ok (first, rest) := by
  obtain ⟨item?, hhead⟩ : ∃ item?, rest.head? = item? := ⟨_, rfl⟩
  rw [chain, run_peek_bind, hhead]
  split
  · rename_i text
    exact absurd hhead (h text)
  · rfl

/-- One operator and its right operand, and the operators that follow. -/
theorem chain_cons (n : Nat) {text : String} {k : BinaryOperator}
    (hk : BinaryOperator.ofSpelling? text = some k) (h : p items = .ok (second, rest))
    (hne : items ≠ []) (hset : second.isSet) :
    (chain (n + 1) first).run p (.symbol .binaryOperator text :: items) =
      (chain n (.binary k first second)).run p rest := by
  rw [chain, run_peek_bind]
  simp only [List.head?_cons]
  rw [run_take_bind hk, run_bind_of_eq_ok (atom_eq_ok h hne hset)]

theorem operators_stop (first : Expr) (h : NoOperator rest) :
    (operators first).run p rest = .ok (first, rest) := chain_stop _ first h

/-- After a set, the operators are read whether or not one follows. -/
theorem extend_eq_operators (left : Nat) (hset : first.isSet) :
    (extend left first).run p items = (operators first).run p items := by
  obtain ⟨item?, hhead⟩ : ∃ item?, items.head? = item? := ⟨_, rfl⟩
  rw [extend, run_peek_bind, hhead]
  split
  · rw [if_pos hset]
  · rw [if_pos hset]
  · rename_i hoperator hrelation
    exact (operators_stop first fun text htext => hoperator text (hhead.symm.trans htext)).symm

theorem extend_stop (left : Nat) (hrest : Stops rest) :
    (extend left first).run p rest = .ok (first, rest) := by
  obtain ⟨item?, hhead⟩ : ∃ item?, rest.head? = item? := ⟨_, rfl⟩
  rw [extend, run_peek_bind, hhead]
  split
  · rename_i text
    exact absurd hhead (hrest.noOperator text)
  · rename_i text
    exact absurd hhead (hrest.noRelation text)
  · rfl

theorem conclude_stop (h : ∀ text, rest.head? ≠ some (.symbol .relation text)) :
    (conclude e).run p rest = .ok (e, rest) := by
  obtain ⟨item?, hhead⟩ : ∃ item?, rest.head? = item? := ⟨_, rfl⟩
  rw [conclude, run_peek_bind, hhead]
  split
  · rename_i text
    exact absurd hhead (h text)
  · rfl

theorem conclude_relation {text : String} {r : Relation} (hr : Relation.ofSpelling? text = some r)
    (h : (term (.relation text)).run p items = .ok (second, rest)) :
    (conclude e).run p (.symbol .relation text :: items) = .ok (.relation r e second, rest) := by
  rw [conclude, run_peek_bind]
  simp only [List.head?_cons]
  rw [run_take_bind hr, run_bind_of_eq_ok h]
  rfl

/-- An expression, given how its first part is read. -/
theorem expression_eq_conclude {rest' : List Item} (hfirst : p items = .ok (first, rest'))
    (h : ∀ left, (extend left first).run p rest' = .ok (e, rest)) :
    expression.run p items = (conclude e).run p rest := by
  rw [expression, run_remaining_bind, run_bind_of_eq_ok ((run_nested items).trans hfirst),
    run_bind_of_eq_ok (h _)]

/-- An expression that is a primary, where nothing continues it. -/
theorem expression_eq_ok (h : p items = .ok (e, rest)) (hrest : Stops rest) :
    expression.run p items = .ok (e, rest) := by
  rw [expression_eq_conclude h fun left => extend_stop left hrest]
  exact conclude_stop hrest.noRelation

theorem formula_eq_ok {position : FormulaPosition} (h : expression.run p items = .ok (e, rest))
    (he : e.isFormula) : (formula position).run p items = .ok (e, rest) := by
  rw [formula, run_remaining_bind, run_bind_of_eq_ok h, if_pos he]
  rfl

theorem term_eq_operators {role : Role} (h : p items = .ok (first, rest)) (hne : items ≠ [])
    (hset : first.isSet) : (term role).run p items = (operators first).run p rest :=
  run_bind_of_eq_ok (atom_eq_ok h hne hset)

/-! ## Constructs -/

theorem construct_negation {text : String} (hn : Junction.ofSpelling? text = some .negation)
    (hne : items ≠ []) (h : (formula (.negated text)).run p items = .ok (e, rest)) :
    construct.run p (.symbol .connective text :: items) = .ok (.negation e, rest) := by
  rw [construct, run_peek_bind]
  simp only [List.head?_cons, hn]
  rw [run_known_bind]
  simp only
  rw [negated, run_advance_bind, run_requireOperand_bind _ _ hne, run_bind_of_eq_ok h]
  rfl

theorem construct_quantified {text : String} {q : Quantifier}
    (hq : Quantifier.ofSpelling? text = some q) {x : Nat} (hne : items ≠ [])
    (h : (formula (.quantified text)).run p items = .ok (e, rest)) :
    construct.run p (.symbol .quantifier text :: .var x :: items) =
      .ok (.quantified q x e, rest) := by
  change quantified.run p _ = _
  rw [quantified, run_take_bind hq, run_peek_bind]
  simp only [List.head?_cons]
  rw [run_advance_bind, run_requireOperand_bind _ _ hne, run_bind_of_eq_ok h]
  rfl

theorem construct_parenthesized (h : expression.run p items = .ok (e, bracket ")" :: rest)) :
    construct.run p (bracket "(" :: items) = .ok (e, rest) := by
  change parenthesized.run p _ = _
  rw [parenthesized, run_advance_bind, run_remaining_bind, run_bind_of_eq_ok h, run_peek_bind]
  simp only [List.head?_cons]
  rw [closed, run_expect_bind ")" rfl]
  rfl

theorem construct_connective {text : String} {c : Connective} {items' : List Item}
    (hc : Junction.ofSpelling? text = some (.binary c))
    (hfirst : expression.run p items = .ok (first, .symbol .connective text :: items'))
    (hf : first.isFormula) (hne : items' ≠ [])
    (hsecond : (formula (.joined text)).run p items' = .ok (second, bracket ")" :: rest)) :
    construct.run p (bracket "(" :: items) = .ok (.connective c first second, rest) := by
  change parenthesized.run p _ = _
  rw [parenthesized, run_advance_bind, run_remaining_bind, run_bind_of_eq_ok hfirst,
    run_peek_bind]
  simp only [List.head?_cons, hc]
  rw [run_known_bind]
  simp only
  rw [run_advance_bind, if_pos hf, run_requireOperand_bind _ _ hne, run_bind_of_eq_ok hsecond,
    run_expect_bind ")" rfl]
  rfl

theorem construct_singleton (h : expression.run p items = .ok (e, bracket "\x7d" :: rest))
    (he : e.isSet) :
    construct.run p (bracket "\x7b" :: items) = .ok (.unary .singleton e, rest) := by
  change braced.run p _ = _
  rw [braced, run_advance_bind, run_remaining_bind, run_bind_of_eq_ok h, run_peek_bind]
  -- a closing brace is neither a comma nor a bar
  change (singleton items.length e).run p (bracket "\x7d" :: rest) = _
  rw [singleton, run_requireSet_bind _ _ he, run_expect_bind "\x7d" rfl]
  rfl

theorem construct_pairSet {items' : List Item}
    (hfirst : expression.run p items = .ok (first, bracket "," :: items')) (hf : first.isSet)
    (hsecond : (term .pairSet).run p items' = .ok (second, bracket "\x7d" :: rest)) :
    construct.run p (bracket "\x7b" :: items) = .ok (.binary .pairSet first second, rest) := by
  change braced.run p _ = _
  rw [braced, run_advance_bind, run_remaining_bind, run_bind_of_eq_ok hfirst, run_peek_bind]
  change (pairSet items.length first).run p items' = _
  rw [pairSet, run_requireSet_bind _ _ hf, run_bind_of_eq_ok hsecond, run_expect_bind "\x7d" rfl]
  rfl

theorem construct_comprehension {x : Nat} {domain : Expr} {items' : List Item}
    (hfirst : expression.run p items = .ok (.mem (.var x) domain, bar :: items'))
    (hne : items' ≠ [])
    (hsecond : (formula .predicate).run p items' = .ok (second, bracket "\x7d" :: rest)) :
    construct.run p (bracket "\x7b" :: items) = .ok (.comprehension x domain second, rest) := by
  change braced.run p _ = _
  rw [braced, run_advance_bind, run_remaining_bind, run_bind_of_eq_ok hfirst, run_peek_bind]
  change (comprehension items.length (.mem (.var x) domain)).run p items' = _
  rw [comprehension, run_requireOperand_bind _ _ hne, run_bind_of_eq_ok hsecond,
    run_expect_bind "\x7d" rfl]
  rfl

theorem construct_applied {text : String} {k : UnaryOperator}
    (hk : UnaryOperator.ofSpelling? text = some k)
    (h : (term (.operator text)).run p items = .ok (e, bracket ")" :: rest)) :
    construct.run p (.symbol .unaryOperator text :: bracket "(" :: items) =
      .ok (.unary k e, rest) := by
  change applied.run p _ = _
  rw [applied, run_take_bind hk, run_expect_bind "(" rfl, run_bind_of_eq_ok h,
    run_expect_bind ")" rfl]
  rfl

end Levels

end Script

/-! ## Levels -/

/-- The levels of nesting that an item may open. The connectives between two formulas are counted
too, though it is the parenthesis before them that opens a level. -/
def Item.levels : Item → Nat
  | symbol .quantifier _ | symbol .connective _ | symbol .unaryOperator _ => 1
  | symbol .bracket text => if text = "(" ∨ text = "\x7b" then 1 else 0
  | _ => 0

/-- The levels of nesting that items may open. -/
def levels : List Item → Nat
  | [] => 0
  | item :: items => item.levels + levels items

@[simp] theorem levels_nil : levels [] = 0 := rfl

@[simp] theorem levels_cons (item : Item) (items : List Item) :
    levels (item :: items) = item.levels + levels items := rfl

@[simp] theorem levels_append (items items' : List Item) :
    levels (items ++ items') = levels items + levels items' := by
  induction items with
  | nil => simp
  | cons item items ih => simp [ih, Nat.add_assoc]

/-- Some item of a derivation opens no level. -/
theorem Derives.levels_lt_length {n : Nonterminal} {w : List Item} {e : Expr} (h : Derives n w e) :
    levels w < w.length := by
  induction h with
  | ofAtom _ ih => exact ih
  | var x | constant c => exact Nat.zero_lt_one
  | quantified _ _ _ ih | negation _ _ ih | inParentheses _ ih | applied _ _ ih
  | termInParentheses _ ih | singleton _ ih =>
    simp [Item.levels]
    omega
  | connective _ _ _ iha ihb | relation _ _ _ iha ihb | operator _ _ _ iha ihb
  | pairSet _ _ iha ihb | comprehension _ _ iha ihb =>
    simp [Item.levels]
    omega

namespace Script

/-! ## Derivations are read -/

/-- The parsers read the items as the tree: an atom by `primary`; a term by a primary, after which
operators are read in a chain up to the end of the term, a round for each; a formula by
`expression`, if nothing continues it. -/
def IsReadAs : Nonterminal → List Item → Expr → Prop
  | .atom, w, e => ∀ depth rest, levels w < depth → primary depth (w ++ rest) = .ok (e, rest)
  | .term, w, e => ∀ depth rest, levels w < depth → ∃ first items rounds,
      primary depth (w ++ rest) = .ok (first, items) ∧ first.isSet ∧
        rounds + rest.length ≤ items.length ∧
        ∀ n, (chain (n + rounds) first).run (primary depth) items =
          (chain n e).run (primary depth) rest
  | .formula, w, e => ∀ depth rest, levels w < depth → Stops rest →
      expression.run (primary depth) (w ++ rest) = .ok (e, rest)

section Terms

variable {w rest : List Item} {e : Expr} {depth : Nat} (h : IsReadAs .term w e)
  (hdepth : levels w < depth)

include h hdepth

/-- The first part of a term, and the operators after it, where none follows. -/
theorem IsReadAs.exists_operators (hrest : NoOperator rest) :
    ∃ first items, primary depth (w ++ rest) = .ok (first, items) ∧ first.isSet ∧
      (operators first).run (primary depth) items = .ok (e, rest) := by
  obtain ⟨first, items, rounds, hfirst, hset, hrounds, hchain⟩ := h depth rest hdepth
  refine ⟨first, items, hfirst, hset, ?_⟩
  have hlength : items.length + 1 = items.length - rounds + 1 + rounds := by omega
  change (chain (items.length + 1) first).run (primary depth) items = _
  rw [hlength, hchain]
  exact chain_stop _ e hrest

theorem IsReadAs.readTerm (hne : w ≠ []) (hrest : NoOperator rest) (role : Role) :
    (term role).run (primary depth) (w ++ rest) = .ok (e, rest) := by
  obtain ⟨first, items, hfirst, hset, hoperators⟩ := h.exists_operators hdepth hrest
  rw [term_eq_operators hfirst (by simp [hne]) hset, hoperators]

/-- A term, and what follows if that is no operator. -/
theorem IsReadAs.expression_eq (hrest : NoOperator rest) :
    expression.run (primary depth) (w ++ rest) = (conclude e).run (primary depth) rest := by
  obtain ⟨first, items, hfirst, hset, hoperators⟩ := h.exists_operators hdepth hrest
  exact expression_eq_conclude hfirst fun left => (extend_eq_operators left hset).trans hoperators

theorem IsReadAs.readExpression (hrest : Stops rest) :
    expression.run (primary depth) (w ++ rest) = .ok (e, rest) := by
  rw [h.expression_eq hdepth hrest.noOperator]
  exact conclude_stop hrest.noRelation

end Terms

/-- What starts with an item that opens a level is read one level further down. -/
theorem primary_cons {item : Item} {w rest : List Item} {e : Expr} {depth : Nat}
    (hitem : item.levels = 1) (hdepth : levels (item :: w) < depth)
    (h : ∀ d, levels w < d → construct.run (primary d) (item :: (w ++ rest)) = .ok (e, rest)) :
    primary depth (item :: w ++ rest) = .ok (e, rest) := by
  rw [levels_cons, hitem] at hdepth
  obtain ⟨d, rfl⟩ : ∃ d, depth = d + 1 := ⟨depth - 1, by omega⟩
  exact h d (by omega)

theorem isReadAs_relation {text : String} {r : Relation} {v w : List Item} {a b : Expr}
    (hr : Relation.ofSpelling? text = some r) (hne : w ≠ []) (ha : IsReadAs .term v a)
    (hb : IsReadAs .term w b) :
    IsReadAs .formula (v ++ .symbol .relation text :: w) (.relation r a b) := by
  intro depth rest hdepth hrest
  rw [levels_append, levels_cons] at hdepth
  rw [List.append_assoc, List.cons_append, ha.expression_eq (by omega) (noOperator_relation _ _)]
  exact conclude_relation hr (hb.readTerm (by omega) hne hrest.noOperator _)

/-- One more operator at the end of a chain. -/
theorem isReadAs_operator {text : String} {k : BinaryOperator} {v w : List Item} {a b : Expr}
    (hk : BinaryOperator.ofSpelling? text = some k) (hne : w ≠ []) (hset : b.isSet)
    (ha : IsReadAs .term v a) (hb : IsReadAs .atom w b) :
    IsReadAs .term (v ++ .symbol .binaryOperator text :: w) (.binary k a b) := by
  intro depth rest hdepth
  rw [levels_append, levels_cons] at hdepth
  rw [List.append_assoc, List.cons_append]
  obtain ⟨first, items, rounds, hfirst, hfset, hrounds, hchain⟩ :=
    ha depth (.symbol .binaryOperator text :: (w ++ rest)) (by omega)
  rw [List.length_cons, List.length_append] at hrounds
  refine ⟨first, items, rounds + 1, hfirst, hfset, by omega, fun n => ?_⟩
  rw [Nat.add_comm rounds 1, ← Nat.add_assoc, hchain]
  exact chain_cons n hk (hb depth rest (by omega)) (by simp [hne]) hset

end Script

open Script

/-- Derived items are read as the tree of their derivation. -/
theorem Derives.isRead {n : Nonterminal} {w : List Item} {e : Expr} (h : Derives n w e) :
    IsReadAs n w e := by
  induction h with
  | quantified hq x he ih =>
    intro depth rest hdepth hrest
    refine expression_eq_ok (primary_cons rfl hdepth fun d hd => ?_) hrest
    rw [levels_cons] at hd
    exact construct_quantified hq (by simp [he.ne_nil])
      (formula_eq_ok (ih d rest (by omega) hrest) he.isFormula)
  | negation hn he ih =>
    intro depth rest hdepth hrest
    refine expression_eq_ok (primary_cons rfl hdepth fun d hd => ?_) hrest
    exact construct_negation hn (by simp [he.ne_nil])
      (formula_eq_ok (ih d rest hd hrest) he.isFormula)
  | connective hc ha hb iha ihb =>
    intro depth rest hdepth hrest
    refine expression_eq_ok (primary_cons rfl hdepth fun d hd => ?_) hrest
    simp only [levels_append, levels_cons] at hd
    simp only [List.append_assoc, List.cons_append, List.nil_append]
    exact construct_connective hc (iha d _ (by omega) (stops_connective _ _)) ha.isFormula
      (by simp) (formula_eq_ok (ihb d _ (by omega) (stops_bracket _ _)) hb.isFormula)
  | inParentheses he ih =>
    intro depth rest hdepth hrest
    refine expression_eq_ok (primary_cons rfl hdepth fun d hd => ?_) hrest
    rw [levels_append] at hd
    simp only [List.append_assoc, List.cons_append, List.nil_append]
    exact construct_parenthesized (ih d _ (by omega) (stops_bracket _ _))
  | relation hr ha hb iha ihb => exact isReadAs_relation hr hb.ne_nil iha ihb
  | ofAtom he ih =>
    intro depth rest hdepth
    exact ⟨_, rest, 0, ih depth rest hdepth, he.isSet_of_atom, by omega, fun n => rfl⟩
  | operator hk ha hb iha ihb => exact isReadAs_operator hk hb.ne_nil hb.isSet_of_atom iha ihb
  | var x | constant c =>
    intro depth rest hdepth
    obtain ⟨d, rfl⟩ : ∃ d, depth = d + 1 := ⟨depth - 1, by omega⟩
    rfl
  | applied hk he ih =>
    intro depth rest hdepth
    refine primary_cons rfl hdepth fun d hd => ?_
    simp only [levels_append, levels_cons] at hd
    simp only [List.append_assoc, List.cons_append, List.nil_append]
    exact construct_applied hk (ih.readTerm (by omega) he.ne_nil (stops_bracket _ _).noOperator _)
  | termInParentheses he ih =>
    intro depth rest hdepth
    refine primary_cons rfl hdepth fun d hd => ?_
    rw [levels_append] at hd
    simp only [List.append_assoc, List.cons_append, List.nil_append]
    exact construct_parenthesized (ih.readExpression (by omega) (stops_bracket _ _))
  | singleton he ih =>
    intro depth rest hdepth
    refine primary_cons rfl hdepth fun d hd => ?_
    rw [levels_append] at hd
    simp only [List.append_assoc, List.cons_append, List.nil_append]
    exact construct_singleton (ih.readExpression (by omega) (stops_bracket _ _)) he.isSet
  | pairSet ha hb iha ihb =>
    intro depth rest hdepth
    refine primary_cons rfl hdepth fun d hd => ?_
    simp only [levels_append, levels_cons] at hd
    simp only [List.append_assoc, List.cons_append, List.nil_append]
    exact construct_pairSet (iha.readExpression (by omega) (stops_bracket _ _)) ha.isSet
      (ihb.readTerm (by omega) hb.ne_nil (stops_bracket _ _).noOperator _)
  | comprehension hd hp ihd ihp =>
    intro depth rest hdepth
    refine primary_cons rfl hdepth fun d hlevels => ?_
    simp only [levels_append, levels_cons] at hlevels
    simp only [List.append_assoc, List.cons_append, List.nil_append]
    exact construct_comprehension (ihd d _ (by omega) (stops_bracket _ _)) (by simp)
      (formula_eq_ok (ihp d _ (by omega) (stops_bracket _ _)) hp.isFormula)

/-! ## Whole formulas -/

theorem parseItems_of_derives {depth : Nat} {items : List Item} {e : Expr}
    (h : Derives .formula items e) (hdepth : levels items < depth) :
    parseItems depth items = .ok e := by
  have hread := h.isRead depth [] hdepth stops_nil
  rw [List.append_nil] at hread
  unfold parseItems Script.parse
  split
  · exact absurd rfl h.ne_nil
  · rw [hread]
    exact if_pos h.isFormula

/-- With as many levels of nesting as items, the items that are read are those of formulas. -/
theorem parseItems_eq_ok_iff {depth : Nat} {items : List Item} {e : Expr}
    (hdepth : items.length ≤ depth) :
    parseItems depth items = .ok e ↔ Derives .formula items e :=
  ⟨derives_of_parseItems, fun h =>
    parseItems_of_derives h (Nat.lt_of_lt_of_le h.levels_lt_length hdepth)⟩

/-- All derivations of a formula have the same tree. -/
theorem Derives.unique {items : List Item} {e e' : Expr} (h : Derives .formula items e)
    (h' : Derives .formula items e') : e = e' := by
  have hread := parseItems_of_derives h (Nat.lt_succ_self _)
  have hread' := parseItems_of_derives h' (Nat.lt_succ_self _)
  exact Except.ok.inj (hread.symm.trans hread')

end SetFormula
