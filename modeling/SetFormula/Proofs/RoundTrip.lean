import SetFormula.Proofs.GrammarCompleteness
import SetFormula.Proofs.Lexing
import SetFormula.Proofs.ParsedTrees

/-!
# Printing and reading

The text that a readable formula is printed as is read back as the formula.

* `readTokens_render`: the text is cut into the items of the tree;
* `derives_items`: the items are derived by the grammar, and the tree is that of the derivation;
* `parseItems_items`: the items are parsed as the tree, given two levels of nesting for each node;
* `readFormula_render_or`: with fewer levels the tree is still what is read, or the text is refused
  for its nesting.

Every tree that is read is a readable formula (`isReadableFormula_of_readFormula`), so the readable
formulas are all that can be read. This is `reading_inverts_printing`.
-/

namespace SetFormula

open SetFormula.Expr SetFormula.Item

/-! ## The items of a tree are derived -/

/-- The nonterminal for the root of a tree. -/
def Expr.nonterminal : Expr → Nonterminal
  | relation _ _ _ | negation _ | connective _ _ _ | quantified _ _ _ => .formula
  | binary .pairSet _ _ => .atom
  | binary _ _ _ => .term
  | _ => .atom

section Parts

variable {e : Expr} {w : List Item} (h : Derives e.nonterminal w e)

include h

theorem Derives.ofFormula (hsort : e.isWellSortedFormula) : Derives .formula w e := by
  have hroot : e.nonterminal = .formula := by cases e <;> first | rfl | cases hsort
  rwa [hroot] at h

/-- The formula after a negation or a quantifier may stand in parentheses. -/
theorem Derives.body (hsort : e.isWellSortedFormula) (b : Bool) :
    Derives .formula (enclose b w) e := by
  unfold enclose
  split
  · exact .inParentheses (h.ofFormula hsort)
  · exact h.ofFormula hsort

theorem Derives.ofTerm (hsort : e.isWellSortedTerm) : Derives .term w e := by
  cases e with
  | binary k a b =>
    cases k with
    | pairSet => exact .ofAtom h
    | _ => exact h
  | var | constant | unary | comprehension => exact .ofAtom h
  | _ => cases hsort

/-- The operand of an operator stands in parentheses if it is an operator itself, which makes it an
atom. -/
theorem Derives.operand (hsort : e.isWellSortedTerm) :
    Derives .atom (enclose e.isChainLink w) e := by
  cases e with
  | binary k a b =>
    cases k with
    | pairSet => exact h
    | _ => exact .termInParentheses h
  | var | constant | unary | comprehension => exact h
  | _ => cases hsort

end Parts

theorem derives_items {e : Expr} (he : e.isWellSortedTerm ∨ e.isWellSortedFormula) :
    Derives e.nonterminal e.items e := by
  induction e with
  | var i => exact .var i
  | constant c => exact .constant c
  | relation r a b iha ihb =>
    rw [isWellSorted_relation] at he
    have hr : Relation.ofSpelling? r.symbol = some r := by cases r <;> decide
    exact .relation hr ((iha (.inl he.1)).ofTerm he.1) ((ihb (.inl he.2)).ofTerm he.2)
  | negation a ih =>
    rw [isWellSorted_negation] at he
    exact .negation (by decide) ((ih (.inr he)).body he _)
  | connective c a b iha ihb =>
    rw [isWellSorted_connective] at he
    have hc : Junction.ofSpelling? c.symbol = some (.binary c) := by cases c <;> decide
    exact .connective hc ((iha (.inr he.1)).ofFormula he.1) ((ihb (.inr he.2)).ofFormula he.2)
  | quantified q x a ih =>
    rw [isWellSorted_quantified] at he
    have hq : Quantifier.ofSpelling? q.symbol = some q := by cases q <;> decide
    exact .quantified hq x ((ih (.inr he)).body he _)
  | unary k a ih =>
    rw [isWellSorted_unary] at he
    cases k with
    | singleton => exact .singleton ((ih (.inl he)).ofTerm he)
    | _ => exact .applied (by decide) ((ih (.inl he)).ofTerm he)
  | binary k a b iha ihb =>
    rw [isWellSorted_binary] at he
    cases k with
    | pairSet => exact .pairSet ((iha (.inl he.1)).ofTerm he.1) ((ihb (.inl he.2)).ofTerm he.2)
    | _ =>
      exact .operator (by decide) (.ofAtom ((iha (.inl he.1)).operand he.1))
        ((ihb (.inl he.2)).operand he.2)
  | comprehension x d p ihd ihp =>
    rw [isWellSorted_comprehension] at he
    have hmember : Derives .formula (.var x :: .symbol .relation Relation.element.symbol :: d.items)
        (mem (var x) d) :=
      .relation (v := [.var x]) (by decide) (.ofAtom (.var x)) ((ihd (.inl he.1)).ofTerm he.1)
    exact .comprehension hmember ((ihp (.inr he.2)).ofFormula he.2)

theorem levels_enclose_le (b : Bool) (items : List Item) :
    levels (enclose b items) ≤ levels items + 1 := by
  unfold enclose
  split <;> simp [Item.levels]
  omega

/-- A node opens two levels at most: one of its own, and one for the parentheses around an
operand. -/
theorem levels_items_lt (e : Expr) : levels e.items < 2 * e.size := by
  induction e with
  | var i | constant c => simp [items, size, Item.levels]
  | relation r a b iha ihb | connective c a b iha ihb | comprehension x a b iha ihb =>
    simp [items, size, Item.levels]
    omega
  | negation a ih | quantified q x a ih =>
    have henclosed := levels_enclose_le a.isRelation a.items
    simp [items, size, Item.levels]
    omega
  | unary k a ih => cases k <;> simp [items, size, Item.levels] <;> omega
  | binary k a b iha ihb =>
    have ha := levels_enclose_le a.isChainLink a.items
    have hb := levels_enclose_le b.isChainLink b.items
    cases k <;> simp [items, size, Item.levels] <;> omega

/-! ## Texts -/

theorem readTokens_render {e : Expr} (he : e.IsReadableFormula) {src : Source}
    (htext : src.text = e.render) :
    ∃ tokens, readTokens src = .ok tokens ∧ itemsOf tokens = .ok e.items := by
  have hprinted := Expr.isPrinted_of_mem_items he.readable
  have hcut : cut 0 (src.inked.map (·.1)) = .ok (e.items.map Item.lexeme) := by
    rw [Source.map_inked, htext, Expr.ink_render]
    exact cut_items hprinted (Expr.tidy_items (.inr he.sorted)).isChain
  refine ⟨placeLexemes src (src.inked.map (·.2)) (e.items.map Item.lexeme), ?_,
    itemsOf_placeLexemes _ _ hprinted⟩
  rw [readTokens, lex, lexInked, hcut]

theorem parseItems_items {e : Expr} (he : e.isWellSortedFormula) {depth : Nat}
    (hdepth : 2 * e.size ≤ depth) : parseItems depth e.items = .ok e :=
  parseItems_of_derives ((derives_items (.inr he)).ofFormula he)
    (Nat.lt_of_lt_of_le (levels_items_lt e) hdepth)

theorem readFormula_render {e : Expr} (he : e.IsReadableFormula) {src : Source}
    (htext : src.text = e.render) {limit : Nat} (hlimit : 2 * e.size ≤ limit) :
    readFormula limit src = .ok e := by
  obtain ⟨tokens, htokens, hitems⟩ := readTokens_render he htext
  exact readFormula_eq_ok.2 ⟨tokens, e.items, htokens, hitems, parseItems_items he.sorted hlimit⟩

/-- With few levels of nesting, a printed text may be refused for them and for nothing else. -/
theorem readFormula_render_or {e : Expr} (he : e.IsReadableFormula) {src : Source}
    (htext : src.text = e.render) (limit : Nat) :
    readFormula limit src = .ok e ∨
      ∃ place, readFormula limit src = .error (.refused ⟨.tooDeep, place⟩) := by
  obtain ⟨tokens, htokens, hitems⟩ := readTokens_render he htext
  have hread : readFormula limit src = readTree limit tokens := by
    rw [readFormula, htokens]
    rfl
  have hparse : parse limit tokens = parseItems limit e.items := by
    rw [parse, hitems]
    rfl
  rw [hread, readTree, hparse]
  -- compared with the parser at a limit that is surely enough
  rcases parseItems_upTo (Nat.le_max_left limit (2 * e.size)) e.items with hdeep | henough
  · rw [hdeep]
    exact .inr ⟨_, rfl⟩
  · rw [henough, parseItems_items he.sorted (Nat.le_max_right _ _)]
    exact .inl rfl

/-- **Reading inverts printing.** Every tree that is read, from whatever text, is a readable
formula: it is well sorted, and its variables are letters or have numbers below the letters. Every
readable formula is read back from its printed text, unless the text is refused for its nesting,
which it is not once the limit is twice the size of the tree. So the readable formulas are exactly
the trees that can be read, and printing again what was read from a printed text gives the text. -/
theorem reading_inverts_printing :
    (∀ limit src e, readFormula limit src = .ok e → e.IsReadableFormula) ∧
    (∀ e : Expr, e.IsReadableFormula → ∀ src : Source, src.text = e.render →
      (∀ limit, 2 * e.size ≤ limit → readFormula limit src = .ok e) ∧
      ∀ limit, readFormula limit src = .ok e ∨
        ∃ place, readFormula limit src = .error (.refused ⟨.tooDeep, place⟩)) ∧
    (∀ e : Expr, (∃ limit src, readFormula limit src = .ok e) ↔ e.IsReadableFormula) ∧
    ∀ (e e' : Expr) (limit : Nat) (src : Source), e.IsReadableFormula → src.text = e.render →
      readFormula limit src = .ok e' → e'.render = src.text := by
  refine ⟨fun limit src e h => isReadableFormula_of_readFormula h, fun e he src htext => ?_,
    fun e => ⟨?_, fun he => ?_⟩, fun e e' limit src he htext h => ?_⟩
  · exact ⟨fun limit hlimit => readFormula_render he htext hlimit, readFormula_render_or he htext⟩
  · rintro ⟨limit, src, h⟩
    exact isReadableFormula_of_readFormula h
  · exact ⟨2 * e.size, ⟨e.render, 1, none⟩, readFormula_render he rfl (Nat.le_refl _)⟩
  · rcases readFormula_render_or he htext limit with hread | ⟨place, hread⟩
    · cases h.symm.trans hread
      exact htext.symm
    · cases h.symm.trans hread

/-- The formula `v₁₀ ∈ P \ Pot(v₁)`, where a letter and a name stand on the two sides of `\`. -/
def memDifference : Expr :=
  mem (var 10) (binary .difference (var (indexOfLetter 'P')) (unary .powerSet (var 1)))

/-- The formula is also written without blanks and with plain digits. -/
theorem reading_inverts_printing_difference :
    readFormula 40 ⟨"v10∈P\\Pot(v1)", 1, none⟩ = .ok memDifference ∧
    memDifference.IsReadableFormula ∧
    readFormula 40 ⟨memDifference.render, 1, none⟩ = .ok memDifference ∧
    ∀ e', readFormula 40 ⟨memDifference.render, 1, none⟩ = .ok e' →
      e'.render = memDifference.render := by
  obtain ⟨hread, hback, -, hagain⟩ := reading_inverts_printing
  have hplain : readFormula 40 ⟨"v10∈P\\Pot(v1)", 1, none⟩ = .ok memDifference := by decide +kernel
  have hreadable := hread _ _ _ hplain
  exact ⟨hplain, hreadable, (hback _ hreadable _ rfl).1 40 (by decide),
    fun e' => hagain _ e' 40 _ hreadable rfl⟩

end SetFormula
