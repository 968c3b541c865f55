import SetFormula.Proofs.GrammarCompleteness

/-!
# The parser accepts the grammar

A token that is cut from a text is a variable or one of the spellings of its class
(`mem_symbolClasses_of_lex`). So if the variables can be looked up, all tokens can, and the items
that they stand for are spelled (`Item.ofToken_of_lex`, `itemsOf_eq_ok`). On such tokens the parser
does what the grammar says, `parser_accepts_grammar`.
-/

namespace SetFormula

open SetFormula.Item

/-! ## Tokens that are cut from a text -/

theorem mem_of_longestSpelling? {spellings : List (List Char)} {cs s : List Char}
    (h : longestSpelling? spellings cs = some s) : s ∈ spellings := by
  -- the spelling is the one to start with or one of the list
  have hbest : none = some s ∨ s ∈ spellings := by
    unfold longestSpelling? at h
    generalize (none : Option (List Char)) = best at h ⊢
    induction spellings generalizing best with
    | nil => exact .inl h
    | cons s' spellings ih =>
      rw [List.foldl_cons] at h
      rcases ih _ h with hstart | hmem
      · split at hstart
        · cases hstart
          exact .inr List.mem_cons_self
        · exact .inl hstart
      · exact .inr (List.mem_cons_of_mem _ hmem)
  exact hbest.resolve_left (by simp)

theorem mem_symbolClasses_of_leadingSymbol? {cs : List Char} {l : Lexeme}
    (h : leadingSymbol? cs = some l) :
    ∃ c ∈ symbolClasses, c.1 = l.kind ∧ String.ofList l.chars ∈ c.2 := by
  obtain ⟨c, hc, hlongest⟩ := List.exists_of_findSome?_eq_some h
  obtain ⟨d, hd, rfl⟩ := List.mem_map.1 hc
  obtain ⟨s, hs, rfl⟩ := Option.map_eq_some_iff.1 hlongest
  obtain ⟨text, htext, rfl⟩ := List.mem_map.1 (mem_of_longestSpelling? hs)
  refine ⟨d, hd, rfl, ?_⟩
  rw [String.ofList_toList]
  exact htext

theorem leadingLexeme?_of_mem_cut {covered : Nat} {cs : List Char} {ls : List Lexeme}
    (h : cut covered cs = .ok ls) {l : Lexeme} (hl : l ∈ ls) :
    ∃ cs', leadingLexeme? cs' = some l := by
  induction cs generalizing covered ls with
  | nil =>
    cases h
    cases hl
  | cons c cs ih =>
    cases covered with
    | succ n => exact ih h hl
    | zero =>
      obtain ⟨l', ls', hl', hrest, rfl⟩ := cut_cons_eq_ok h
      rcases List.mem_cons.1 hl with rfl | hl
      · exact ⟨_, hl'⟩
      · exact ih hrest hl

theorem exists_lexeme_of_mem_placeLexemes {src : Source} {columns : List Nat} {ls : List Lexeme}
    {t : Token} (ht : t ∈ placeLexemes src columns ls) :
    ∃ l ∈ ls, t.kind = l.kind ∧ t.text = String.ofList l.chars := by
  induction ls generalizing columns with
  | nil => cases ht
  | cons l ls ih =>
    rw [placeLexemes] at ht
    rcases List.mem_cons.1 ht with rfl | ht
    · exact ⟨l, List.mem_cons_self, rfl, rfl⟩
    · obtain ⟨l', hl', heq⟩ := ih ht
      exact ⟨l', List.mem_cons_of_mem _ hl', heq⟩

/-- A token of a text is cut from the head of some of its characters. -/
theorem exists_leadingLexeme?_of_lex {src : Source} {tokens : List Token}
    (h : lex src = .ok tokens) {t : Token} (ht : t ∈ tokens) :
    ∃ cs l, leadingLexeme? cs = some l ∧ t.kind = l.kind ∧ t.text = String.ofList l.chars := by
  unfold lex lexInked at h
  split at h
  · rename_i ls hcut
    cases h
    obtain ⟨l, hl, hkind, htext⟩ := exists_lexeme_of_mem_placeLexemes ht
    obtain ⟨cs, hlead⟩ := leadingLexeme?_of_mem_cut hcut hl
    exact ⟨cs, l, hlead, hkind, htext⟩
  · cases h

/-- A token of a text is a variable or one of the spellings of its class. -/
theorem mem_symbolClasses_of_lex {src : Source} {tokens : List Token} (h : lex src = .ok tokens)
    {t : Token} (ht : t ∈ tokens) :
    t.kind = .variableName ∨ ∃ c ∈ symbolClasses, c.1 = t.kind ∧ t.text ∈ c.2 := by
  obtain ⟨cs, l, hlead, hkind, htext⟩ := exists_leadingLexeme?_of_lex h ht
  rw [hkind, htext]
  unfold leadingLexeme? at hlead
  split at hlead
  · rename_i hsymbol
    cases hlead
    exact .inr (mem_symbolClasses_of_leadingSymbol? hsymbol)
  · obtain ⟨chars, -, rfl⟩ := Option.map_eq_some_iff.1 hlead
    exact .inl rfl

/-! ## Looking up the tokens -/

/-- Every spelling of a class stands for something. -/
theorem isSpelled_of_mem_symbolClasses : ∀ c ∈ symbolClasses, ∀ text ∈ c.2,
    c.1 ≠ .variableName ∧
      (c.1 = .constant ∧ (Constant.ofSpelling? text).isSome ∨
        c.1 ≠ .constant ∧ (Item.symbol c.1 text).isSpelled) := by
  decide

theorem Item.ofToken_of_lex {src : Source} {tokens : List Token} (h : lex src = .ok tokens)
    {t : Token} (ht : t ∈ tokens)
    (hvariable : t.kind = .variableName → ∃ x, Item.ofVariable t.text = .ok x) :
    ∃ item, Item.ofToken t = .ok item ∧ item.isSpelled := by
  unfold Item.ofToken
  rcases mem_symbolClasses_of_lex h ht with hkind | ⟨c, hc, hkind, htext⟩
  · obtain ⟨x, hx⟩ := hvariable hkind
    rw [hkind, hx]
    exact ⟨.var x, rfl, rfl⟩
  · obtain ⟨hvar, hspelled⟩ := isSpelled_of_mem_symbolClasses c hc t.text htext
    rw [hkind] at hvar hspelled
    rcases hspelled with ⟨hconstant, hsome⟩ | ⟨hconstant, hspelled⟩
    · obtain ⟨k, hk⟩ := Option.isSome_iff_exists.1 hsome
      rw [hconstant]
      exact ⟨.constant k, by simp only [hk], rfl⟩
    · refine ⟨.symbol t.kind t.text, ?_, hspelled⟩
      split
      · exact absurd ‹_› hconstant
      · exact absurd ‹_› hvar
      · rfl

/-- If every token can be looked up, so can the list. -/
theorem itemsOf_eq_ok {tokens : List Token}
    (h : ∀ t ∈ tokens, ∃ item, Item.ofToken t = .ok item ∧ item.isSpelled) :
    ∃ items, itemsOf tokens = .ok items ∧ items.length = tokens.length ∧
      ∀ item ∈ items, item.isSpelled := by
  induction tokens with
  | nil => exact ⟨[], rfl, rfl, nofun⟩
  | cons t tokens ih =>
    rw [List.forall_mem_cons] at h
    obtain ⟨item, hitem, hspelled⟩ := h.1
    obtain ⟨items, hitems, hlength, hall⟩ := ih h.2
    refine ⟨item :: items, ?_, by simp [hlength], List.forall_mem_cons.2 ⟨hspelled, hall⟩⟩
    rw [itemsOf, hitem]
    simp only [hitems]
    rfl

/-! ## Acceptance -/

theorem parse_eq_parseItems {tokens : List Token} {items : List Item}
    (h : itemsOf tokens = .ok items) (limit : Nat) :
    parse limit tokens = parseItems limit items := by
  rw [parse, h]
  rfl

theorem derivesTokens_iff {tokens : List Token} {items : List Item} (h : itemsOf tokens = .ok items)
    {e : Expr} : DerivesTokens tokens e ↔ Derives .formula items e := by
  simp [DerivesTokens, h]

/-- On items that are all spelled and with more levels than items, a list is read as a formula that
it derives, or refused. -/
theorem parseItems_cases {depth : Nat} {items : List Item} (hdepth : items.length < depth)
    (hspelled : ∀ item ∈ items, item.isSpelled) :
    (∃ e, parseItems depth items = .ok e ∧ Derives .formula items e) ∨
      ∃ problem left, parseItems depth items = .error (.refused problem left) := by
  have hverdict := parseItems_verdict_self depth items
  generalize parseItems depth items = r at hverdict
  cases hverdict with
  | tree he => exact .inl ⟨_, rfl, he⟩
  | refused p _ _ => exact .inr ⟨p, _, rfl⟩
  | badToken fault hmem hitem =>
    rw [hspelled _ hmem] at hitem
    cases hitem
  | tooDeep h => exact absurd h (Nat.not_le_of_lt hdepth)

/-- **The parser accepts the grammar.** Take the tokens of a text, the variables among which can be
looked up. With more levels of nesting than tokens, the parser returns a tree if and only if the
tokens are derived as a formula with that tree, and it refuses the formula if they are not. All
derivations of the tokens have the same tree. With fewer levels, the parser does the same or gives
up because they are used up. -/
theorem parser_accepts_grammar (src : Source) (tokens : List Token) (hlex : lex src = .ok tokens)
    (hvariables : ∀ t ∈ tokens, t.kind = .variableName → ∃ x, Item.ofVariable t.text = .ok x) :
    (∀ limit, tokens.length < limit → ∀ e,
      parse limit tokens = .ok e ↔ DerivesTokens tokens e) ∧
    (∀ limit, tokens.length < limit → (∀ e, ¬DerivesTokens tokens e) →
      ∃ problem left, parse limit tokens = .error (.refused problem left)) ∧
    (∀ e e', DerivesTokens tokens e → DerivesTokens tokens e' → e = e') ∧
    ∀ limit, parse limit tokens = .error .tooDeep ∨
      parse limit tokens = parse (tokens.length + 1) tokens := by
  obtain ⟨items, hitems, hlength, hspelled⟩ := itemsOf_eq_ok fun t ht =>
    Item.ofToken_of_lex hlex ht (hvariables t ht)
  simp only [parse_eq_parseItems hitems, derivesTokens_iff hitems, ← hlength]
  refine ⟨fun limit hlimit e => ?_, fun limit hlimit hnot => ?_, fun e e' he he' => ?_,
    fun limit => ?_⟩
  · exact parseItems_eq_ok_iff (Nat.le_of_lt hlimit)
  · rcases parseItems_cases hlimit hspelled with ⟨e, -, he⟩ | hrefused
    · exact absurd he (hnot e)
    · exact hrefused
  · exact he.unique he'
  · rcases Nat.le_total limit (items.length + 1) with hle | hge
    · exact parseItems_upTo hle items
    · -- more levels than needed change nothing, since these are enough
      rcases parseItems_upTo hge items with hdeep | hsame
      · exact absurd hdeep (parseItems_ne_tooDeep (Nat.lt_succ_self _))
      · exact .inr hsame.symm

open SetFormula.Expr

/-- The formula `x ∪ y \ ∅ ∈ {x ∈ A | ¬x = y}`. -/
def chainInSeparation : Expr :=
  mem
    (binary .difference (binary .union (var (indexOfLetter 'x')) (var (indexOfLetter 'y'))) empty)
    (comprehension (indexOfLetter 'x') (var (indexOfLetter 'A'))
      (negation (eq (var (indexOfLetter 'x')) (var (indexOfLetter 'y')))))

/-- The formula is written with parentheses around the variable and the membership of the
comprehension, and its operators are grouped to the left. -/
theorem parser_accepts_grammar_separation :
    ∃ tokens, lex ⟨"x ∪ y \\ 0 ∈ \x7b((x) ∈ A) | ¬x = y\x7d", 1, none⟩ = .ok tokens ∧
      (∀ t ∈ tokens, t.kind = .variableName → ∃ x, Item.ofVariable t.text = .ok x) ∧
      DerivesTokens tokens chainInSeparation ∧
      ∀ e, DerivesTokens tokens e → e = chainInSeparation := by
  have hcheck : (lex ⟨"x ∪ y \\ 0 ∈ \x7b((x) ∈ A) | ¬x = y\x7d", 1, none⟩).toOption.any
      fun tokens =>
        tokens.all (fun t => t.kind != .variableName || (Item.ofVariable t.text).isOk) &&
          decide (tokens.length < 40 ∧ parse 40 tokens = .ok chainInSeparation) := by
    decide +kernel
  cases hlex : lex ⟨"x ∪ y \\ 0 ∈ \x7b((x) ∈ A) | ¬x = y\x7d", 1, none⟩ with
  | error e =>
    rw [hlex] at hcheck
    cases hcheck
  | ok tokens =>
    rw [hlex] at hcheck
    simp only [Except.toOption, Option.any_some, Bool.and_eq_true, List.all_eq_true,
      Bool.or_eq_true, bne_iff_ne, decide_eq_true_eq] at hcheck
    obtain ⟨hok, hlength, hparse⟩ := hcheck
    have hvariables : ∀ t ∈ tokens, t.kind = .variableName →
        ∃ x, Item.ofVariable t.text = .ok x := by
      intro t ht hkind
      have hx := (hok t ht).resolve_left fun hne => hne hkind
      cases hvariable : Item.ofVariable t.text with
      | error e =>
        rw [hvariable] at hx
        cases hx
      | ok x => exact ⟨x, rfl⟩
    obtain ⟨haccepts, -, hunique, -⟩ := parser_accepts_grammar _ tokens hlex hvariables
    have hderives := (haccepts 40 hlength chainInSeparation).1 hparse
    exact ⟨tokens, rfl, hvariables, hderives, fun e he => hunique e _ he hderives⟩

end SetFormula
