import SetFormula.Desugar
import SetFormula.Proofs.GrammarSoundness

/-!
# What the parser returns

Every tree that the parser returns is well sorted, and its variables can be written
(`isReadableFormula_of_readFormula`): it is derived by the grammar, its variables stand among the
items, and variables are looked up by indices that can be written.
-/

namespace SetFormula

/-- A well-sorted formula whose variables can be written. -/
structure Expr.IsReadableFormula (e : Expr) : Prop where
  sorted : e.isWellSortedFormula
  readable : ∀ i ∈ e.occurrences, IsReadableIndex i

/-! ## The variables among the items -/

theorem isReadableIndex_of_ofToken {t : Token} {i : Nat} (h : Item.ofToken t = .ok (.var i)) :
    IsReadableIndex i := by
  unfold Item.ofToken at h
  split at h
  · split at h <;> cases h
  · obtain ⟨j, hj, hji⟩ : ∃ j, Item.ofVariable t.text = .ok j ∧ Item.var j = .var i := by
      cases hvariable : Item.ofVariable t.text with
      | error e =>
        rw [hvariable] at h
        cases h
      | ok j =>
        rw [hvariable] at h
        exact ⟨j, rfl, Except.ok.inj h⟩
    cases hji
    exact isReadableIndex_of_ofVariable hj
  · cases h

theorem isReadableIndex_of_itemsOf {tokens : List Token} {items : List Item}
    (h : itemsOf tokens = .ok items) {i : Nat} (hi : .var i ∈ items) : IsReadableIndex i := by
  induction tokens generalizing items with
  | nil =>
    cases h
    cases hi
  | cons t tokens ih =>
    obtain ⟨item, rest, hitem, hrest, rfl⟩ := itemsOf_cons_eq_ok h
    rcases List.mem_cons.1 hi with rfl | hi
    · exact isReadableIndex_of_ofToken hitem
    · exact ih hrest hi

/-! ## Whole formulas -/

theorem readTree_eq_ok {limit : Nat} {tokens : List Token} {e : Expr} :
    readTree limit tokens = .ok e ↔
      ∃ items, itemsOf tokens = .ok items ∧ parseItems limit items = .ok e := by
  unfold readTree parse
  cases itemsOf tokens with
  | error f => simp [bind, Except.bind]
  | ok items =>
    simp only [bind, Except.bind, Except.ok.injEq, exists_eq_left']
    cases parseItems limit items <;> simp

/-- To read a text is to cut it into tokens, to look these up, and to parse the items. -/
theorem readFormula_eq_ok {limit : Nat} {src : Source} {e : Expr} :
    readFormula limit src = .ok e ↔
      ∃ tokens items, readTokens src = .ok tokens ∧ itemsOf tokens = .ok items ∧
        parseItems limit items = .ok e := by
  unfold readFormula
  cases readTokens src with
  | error f => simp [bind, Except.bind]
  | ok tokens => simp [bind, Except.bind, readTree_eq_ok]

/-- Every formula that is read is well sorted, and its variables can be written. -/
theorem isReadableFormula_of_readFormula {limit : Nat} {src : Source} {e : Expr}
    (h : readFormula limit src = .ok e) : e.IsReadableFormula := by
  obtain ⟨tokens, items, -, hitems, hparse⟩ := readFormula_eq_ok.1 h
  have hderives := derives_of_parseItems hparse
  refine ⟨hderives.sorted, fun i hi => ?_⟩
  exact isReadableIndex_of_itemsOf hitems (hderives.mem_of_mem_occurrences hi)

end SetFormula
