import SetFormula.Proofs.ParserRuns

/-!
# The parser reads derivations

`parseItems_verdict` says what becomes of two lists of aliases that are read as formulas: both give
one tree, which the grammar derives from them; or both are refused where as many items are left; or
both have a token at fault; or the levels of nesting are used up for both, which takes as many items
as there are levels. On one list, this is what the parser does at all:

* whatever the levels, what is read is derived by the grammar (`derives_of_parseItems`);
* more levels than items are never used up (`parseItems_ne_tooDeep`);
* a refusal points at one of the items or at the end (`left_le_of_parseItems`).
-/

namespace SetFormula

open Script

/-- The verdicts on two lists of aliases, `items` being the first one, with at most `depth` levels
of nesting. -/
inductive Verdict (depth : Nat) (items : List Item) :
    Except ParseFailure Expr → Except ParseFailure Expr → Prop
  | tree {e : Expr} (he : Derives .formula items e) : Verdict depth items (.ok e) (.ok e)
  | refused (p p' : Problem) {left : Nat} (hleft : left ≤ items.length) :
    Verdict depth items (.error (.refused p left)) (.error (.refused p' left))
  | badToken (fault : TokenFault) {item : Item} (hmem : item ∈ items)
      (hitem : item.isSpelled = false) :
    Verdict depth items (.error (.badToken fault)) (.error (.badToken fault))
  | tooDeep (h : depth ≤ items.length) : Verdict depth items (.error .tooDeep) (.error .tooDeep)

theorem parseItems_verdict {items items' : List Item} (h : List.Forall₂ Item.Alias items items')
    (depth : Nat) :
    Verdict depth items (parseItems depth items) (parseItems depth items') := by
  have htwins : Twins items.length items items' := ⟨h, Nat.le_refl _⟩
  have hrun := expression_inStep (nested_inStep depth items.length) htwins
  unfold InStep at hrun
  unfold parseItems Script.parse
  cases h with
  | nil => exact .refused _ _ (Nat.le_refl 0)
  | cons hxy hrest =>
    dsimp only
    generalize run (primary depth) expression (_ :: _) = r at hrun ⊢
    generalize run (primary depth) expression (_ :: _) = r' at hrun ⊢
    cases hrun with
    | refused p p' hleft => exact .refused p p' hleft
    | badToken fault hmem hitem => exact .badToken fault hmem hitem
    | tooDeep hdepth => exact .tooDeep hdepth
    | ok e hitems hend he =>
      obtain ⟨halike, hlength⟩ := hend
      cases halike with
      | nil =>
        rw [List.append_nil] at hitems
        subst hitems
        dsimp only
        split
        · exact .tree (he.formula ‹_›)
        · rw [htwins.alike.length_eq]
          exact .refused _ _ htwins.alike.length_eq.ge
      | cons hitem hrest' =>
        dsimp only
        rw [← hrest'.length_eq]
        exact .refused _ _ hlength

section

variable {depth : Nat} {items : List Item}

/-- The parser on one list. -/
theorem parseItems_verdict_self (depth : Nat) (items : List Item) :
    Verdict depth items (parseItems depth items) (parseItems depth items) :=
  parseItems_verdict (twins_self items).alike depth

/-- Whatever the levels, what is read is derived by the grammar. -/
theorem derives_of_parseItems {e : Expr} (h : parseItems depth items = .ok e) :
    Derives .formula items e := by
  have hverdict := parseItems_verdict_self depth items
  rw [h] at hverdict
  cases hverdict with
  | tree he => exact he

/-- More levels than items are not used up. -/
theorem parseItems_ne_tooDeep (h : items.length < depth) :
    parseItems depth items ≠ .error .tooDeep := by
  intro hdeep
  have hverdict := parseItems_verdict_self depth items
  rw [hdeep] at hverdict
  cases hverdict with
  | tooDeep hdepth => exact Nat.not_le_of_lt h hdepth

theorem left_le_of_parseItems {p : Problem} {left : Nat}
    (h : parseItems depth items = .error (.refused p left)) : left ≤ items.length := by
  have hverdict := parseItems_verdict_self depth items
  rw [h] at hverdict
  cases hverdict with
  | refused _ _ hleft => exact hleft

/-- The parser does not stumble. -/
theorem parseItems_ne_misstep (depth : Nat) (items : List Item) (m : Misstep) :
    parseItems depth items ≠ .error (.misstep m) := by
  intro hmisstep
  have hverdict := parseItems_verdict_self depth items
  rw [hmisstep] at hverdict
  cases hverdict

end

/-! ## Looking up tokens -/

/-- A list that is looked up has a first item and further ones. -/
theorem itemsOf_cons_eq_ok {t : Token} {tokens : List Token} {items : List Item}
    (h : itemsOf (t :: tokens) = .ok items) :
    ∃ item rest, Item.ofToken t = .ok item ∧ itemsOf tokens = .ok rest ∧ items = item :: rest := by
  rw [itemsOf] at h
  split at h
  · cases h
  · cases h
  · rename_i item hitem
    cases hrest : itemsOf tokens with
    | error e =>
      rw [hrest] at h
      cases h
    | ok rest =>
      rw [hrest] at h
      exact ⟨item, rest, hitem, rfl, (Except.ok.inj h).symm⟩

theorem length_of_itemsOf {tokens : List Token} {items : List Item}
    (h : itemsOf tokens = .ok items) : items.length = tokens.length := by
  induction tokens generalizing items with
  | nil =>
    cases h
    rfl
  | cons t tokens ih =>
    obtain ⟨item, rest, -, hrest, rfl⟩ := itemsOf_cons_eq_ok h
    rw [List.length_cons, List.length_cons, ih hrest]

/-- Tokens are looked up, or one of them is at fault or refused. -/
theorem itemsOf_ne_misstep (tokens : List Token) (m : Misstep) :
    itemsOf tokens ≠ .error (.misstep m) := by
  induction tokens with
  | nil => rintro ⟨⟩
  | cons t tokens ih =>
    rw [itemsOf]
    split
    · rintro ⟨⟩
    · rintro ⟨⟩
    · cases hitems : itemsOf tokens with
      | ok items => rintro ⟨⟩
      | error f =>
        rintro ⟨⟩
        exact ih hitems

theorem parse_ne_misstep (depth : Nat) (tokens : List Token) (m : Misstep) :
    parse depth tokens ≠ .error (.misstep m) := by
  rw [parse]
  cases hitems : itemsOf tokens with
  | ok items => exact parseItems_ne_misstep depth items m
  | error f =>
    rintro ⟨⟩
    exact itemsOf_ne_misstep tokens m hitems

end SetFormula
