import SetFormula.Proofs.Numeral
import SetFormula.Proofs.Rendering
import SetFormula.Proofs.Sorts
import SetFormula.Token.Lexer

/-!
# The items of a printed tree

`Expr.items e` lists what the text of `e` is made of: variables, constants, and symbols in their
canonical spelling.

* The text of `e` without its white space is the texts of its items (`ink_render`).
* All items are printed ones (`isPrinted_of_mem_items`).
* In the items of a well-sorted tree, no two neighbours can be taken for something else:
  a word is never followed by a word, and a bar never by a bar (`tidy_items`).
-/

namespace SetFormula

/-! ## Items and their texts -/

namespace Item

/-- The characters of an item as it is printed. -/
def chars : Item → List Char
  | var i => indexChars i
  | constant c => c.symbol.toList
  | symbol _ text => text.toList

/-- The class of an item. -/
def kind : Item → TokenClass
  | var _ => .variableName
  | constant _ => .constant
  | symbol kind _ => kind

/-- The token of an item as it is printed. -/
def lexeme (item : Item) : Lexeme := ⟨item.kind, item.chars⟩

/-- A bracket or a separator. -/
abbrev bracket (text : String) : Item := symbol .bracket text

/-- The separator of a comprehension. -/
abbrev bar : Item := bracket "|"

end Item

/-- The symbols that are printed, with their classes. -/
def printedSymbols : List (TokenClass × String) :=
  Relation.all.map (fun r => (TokenClass.relation, r.symbol)) ++
    (TokenClass.connective, negationSymbol) ::
      Connective.all.map (fun c => (TokenClass.connective, c.symbol)) ++
    Quantifier.all.map (fun q => (TokenClass.quantifier, q.symbol)) ++
    bracketSpellings.map (fun text => (TokenClass.bracket, text)) ++
    [UnaryOperator.powerSet, UnaryOperator.bigUnion, UnaryOperator.bigIntersection].map
      (fun k => (TokenClass.unaryOperator, k.symbol)) ++
    [BinaryOperator.union, BinaryOperator.intersection, BinaryOperator.difference].map
      (fun k => (TokenClass.binaryOperator, k.symbol))

/-- The items that are printed. -/
def Item.IsPrinted : Item → Prop
  | var i => IsReadableIndex i
  | constant _ => True
  | symbol kind text => (kind, text) ∈ printedSymbols

namespace Expr

open Item

/-- Items in parentheses, if the flag is set. -/
def enclose (b : Bool) (items : List Item) : List Item :=
  if b then bracket "(" :: (items ++ [bracket ")"]) else items

/-- The items of a tree, in the order in which they are printed. -/
def items : Expr → List Item
  | var i => [.var i]
  | constant c => [.constant c]
  | relation r a b => a.items ++ .symbol .relation r.symbol :: b.items
  | negation a => .symbol .connective negationSymbol :: enclose a.isRelation a.items
  | connective c a b =>
    bracket "(" :: (a.items ++ .symbol .connective c.symbol :: (b.items ++ [bracket ")"]))
  | quantified q x a => .symbol .quantifier q.symbol :: .var x :: enclose a.isRelation a.items
  | unary .singleton a => bracket "\x7b" :: (a.items ++ [bracket "\x7d"])
  | unary k a => .symbol .unaryOperator k.symbol :: bracket "(" :: (a.items ++ [bracket ")"])
  | binary .pairSet a b =>
    bracket "\x7b" :: (a.items ++ bracket "," :: (b.items ++ [bracket "\x7d"]))
  | binary k a b =>
    enclose a.isChainLink a.items ++
      .symbol .binaryOperator k.symbol :: enclose b.isChainLink b.items
  | comprehension x d p =>
    bracket "\x7b" :: .var x :: .symbol .relation Relation.element.symbol ::
      (d.items ++ bar :: (p.items ++ [bracket "\x7d"]))

end Expr

/-! ## Without white space -/

/-- The characters that are not white space. -/
def inkOf (cs : List Char) : List Char := cs.filter fun c => !Text.isBlank c

/-- The characters of a text that are not white space. -/
def ink (text : String) : List Char := inkOf text.toList

theorem inkOf_append (cs cs' : List Char) : inkOf (cs ++ cs') = inkOf cs ++ inkOf cs' :=
  List.filter_append ..

theorem map_fst_inkedAfter (n : Nat) (cs : List Char) : (inkedAfter n cs).map (·.1) = inkOf cs := by
  have hfilter : (fun c : Char × Nat => !Text.isBlank c.1) =
      (fun c => !Text.isBlank c) ∘ Prod.fst := rfl
  rw [inkedAfter, inkOf, hfilter, ← List.filter_map, List.zipIdx_map_fst]

theorem Source.map_inked (s : Source) : s.inked.map (·.1) = ink s.text := map_fst_inkedAfter 0 _

@[simp] theorem ink_append (s t : String) : ink (s ++ t) = ink s ++ ink t := by
  rw [ink, String.toList_append, inkOf_append]
  rfl

theorem ink_ofList {cs : List Char} (h : ∀ c ∈ cs, Text.isBlank c = false) :
    ink (String.ofList cs) = cs := by
  rw [ink, String.toList_ofList, inkOf, List.filter_eq_self]
  exact fun c hc => by rw [h c hc]; rfl

theorem isBlank_of_isAlpha {c : Char} (h : c.isAlpha) : Text.isBlank c = false := by
  have hall : ∀ n < 128, (Char.ofNat n).isAlpha → Text.isBlank (Char.ofNat n) = false := by decide
  rw [← Char.ofNat_toNat c] at h ⊢
  exact hall c.toNat (by rw [Char.ofNat_toNat] at h; exact toNat_lt_of_isAlpha h) h

theorem isAlpha_of_letterOf? {i : Int} {c : Char} (h : letterOf? i = some c) : c.isAlpha := by
  rw [letterOf?] at h
  split at h
  · rename_i hcode
    cases h
    exact hcode.2.2
  · cases h

theorem ink_indexText (i : Nat) : ink (indexText i) = indexChars i := by
  refine ink_ofList fun c hc => ?_
  rw [indexChars] at hc
  split at hc
  · rename_i hletter
    rw [List.mem_singleton] at hc
    subst hc
    exact isBlank_of_isAlpha (isAlpha_of_letterOf? hletter)
  · change c ∈ numberedLetter :: (Nat.toDigits 10 i).map Text.toSubscript at hc
    rw [List.mem_cons, List.mem_map] at hc
    rcases hc with rfl | ⟨d, hd, rfl⟩
    · decide
    · exact (Text.isIndexDigit_toSubscript
        (Nat.isDigit_of_mem_toDigits (by decide) (by decide) hd)).2.1

namespace Expr

open Item

theorem ink_parenthesizeIf (b : Bool) {text : String} {items : List Item}
    (h : ink text = items.flatMap chars) :
    ink (parenthesizeIf b text) = (enclose b items).flatMap chars := by
  cases b
  · exact h
  · have hopen : ink "(" = ['('] := by decide
    have hclose : ink ")" = [')'] := by decide
    simp [parenthesizeIf, parenthesize, enclose, h, hopen, hclose, chars]

/-- The text of a tree is made of the texts of its items. -/
theorem ink_render (e : Expr) : ink e.render = e.items.flatMap chars := by
  rw [render_eq_renderPlain]
  have hspace : ink " " = [] := by decide
  have hopen : ink "\x7b" = ['\x7b'] := by decide
  have hclose : ink "\x7d" = ['\x7d'] := by decide
  have hbar : ink " | " = ['|'] := by decide
  have hcomma : ink ", " = [','] := by decide
  have hrelation (r : Relation) : ink r.symbol = r.symbol.toList := by cases r <;> decide
  have hconnective (c : Connective) : ink c.symbol = c.symbol.toList := by cases c <;> decide
  have hquantifier (q : Quantifier) : ink q.symbol = q.symbol.toList := by cases q <;> decide
  have hunary (k : UnaryOperator) : ink k.symbol = k.symbol.toList := by cases k <;> decide
  have hbinary (k : BinaryOperator) : ink k.symbol = k.symbol.toList := by cases k <;> decide
  have hnegation : ink negationSymbol = negationSymbol.toList := by decide
  induction e with
  | var i => simp [renderPlain, items, ink_indexText, chars]
  | constant c => cases c <;> decide
  | relation r a b iha ihb =>
    simp [renderPlain, items, chars, hspace, hrelation, iha, ihb]
  | negation a ih =>
    simp [renderPlain, items, chars, hnegation, ink_parenthesizeIf _ ih]
  | connective c a b iha ihb =>
    have hbody : ink (a.renderPlain ++ " " ++ c.symbol ++ " " ++ b.renderPlain) =
        (a.items ++ .symbol .connective c.symbol :: b.items).flatMap chars := by
      simp [chars, hspace, hconnective, iha, ihb]
    simpa [renderPlain, items, parenthesizeIf, enclose] using ink_parenthesizeIf true hbody
  | quantified q x a ih =>
    simp [renderPlain, items, chars, hspace, hquantifier, ink_indexText, ink_parenthesizeIf _ ih]
  | unary k a ih =>
    cases k with
    | singleton => simp [renderPlain, items, chars, brace, hopen, hclose, ih]
    | _ =>
      simpa [renderPlain, items, chars, hunary, parenthesizeIf, enclose]
        using ink_parenthesizeIf true ih
  | binary k a b iha ihb =>
    cases k with
    | pairSet => simp [renderPlain, items, chars, brace, hopen, hclose, hcomma, iha, ihb]
    | _ =>
      simp [renderPlain, items, chars, hspace, hbinary, ink_parenthesizeIf _ iha,
        ink_parenthesizeIf _ ihb]
  | comprehension x d p ihd ihp =>
    simp [renderPlain, items, chars, brace, hspace, hopen, hclose, hbar, hrelation, ink_indexText,
      ihd, ihp]

/-! ## Printed items -/

theorem isPrinted_symbol {kind : TokenClass} {text : String} (h : (kind, text) ∈ printedSymbols) :
    (Item.symbol kind text).IsPrinted := h

theorem isPrinted_of_mem_enclose {b : Bool} {items : List Item}
    (h : ∀ item ∈ items, item.IsPrinted) : ∀ item ∈ enclose b items, item.IsPrinted := by
  unfold enclose
  split
  · simp only [List.forall_mem_cons, List.forall_mem_append, List.not_mem_nil]
    exact ⟨isPrinted_symbol (by decide), h, isPrinted_symbol (by decide), nofun⟩
  · exact h

/-- The items of a tree whose variables can be written are printed ones. -/
theorem isPrinted_of_mem_items {e : Expr} (h : ∀ i ∈ e.occurrences, IsReadableIndex i) :
    ∀ item ∈ e.items, item.IsPrinted := by
  have hbracket {text : String} (h : text ∈ bracketSpellings) : (bracket text).IsPrinted := by
    refine isPrinted_symbol ?_
    simp only [printedSymbols, List.mem_append, List.mem_map]
    exact .inl (.inl (.inr ⟨text, h, rfl⟩))
  have hrelation (r : Relation) : (Item.symbol .relation r.symbol).IsPrinted := by
    cases r <;> exact isPrinted_symbol (by decide)
  induction e with
  | var i => simpa [items, IsPrinted] using h
  | constant c => simp [items, IsPrinted]
  | relation r a b iha ihb =>
    simp only [occurrences_relation, List.forall_mem_append] at h
    simp only [items, List.forall_mem_append, List.forall_mem_cons]
    exact ⟨iha h.1, hrelation r, ihb h.2⟩
  | negation a ih =>
    simp only [occurrences_negation] at h
    simp only [items, List.forall_mem_cons]
    exact ⟨isPrinted_symbol (by decide), isPrinted_of_mem_enclose (ih h)⟩
  | connective c a b iha ihb =>
    simp only [occurrences_connective, List.forall_mem_append] at h
    simp only [items, List.forall_mem_append, List.forall_mem_cons]
    refine ⟨hbracket (by decide), iha h.1, ?_, ihb h.2, hbracket (by decide), nofun⟩
    cases c <;> exact isPrinted_symbol (by decide)
  | quantified q x a ih =>
    simp only [occurrences_quantified, List.forall_mem_cons] at h
    simp only [items, List.forall_mem_cons]
    refine ⟨?_, h.1, isPrinted_of_mem_enclose (ih h.2)⟩
    cases q <;> exact isPrinted_symbol (by decide)
  | unary k a ih =>
    simp only [occurrences_unary] at h
    cases k <;> simp only [items, List.forall_mem_append, List.forall_mem_cons]
    case singleton => exact ⟨hbracket (by decide), ih h, hbracket (by decide), nofun⟩
    all_goals
      exact ⟨isPrinted_symbol (by decide), hbracket (by decide), ih h, hbracket (by decide), nofun⟩
  | binary k a b iha ihb =>
    simp only [occurrences_binary, List.forall_mem_append] at h
    cases k <;> simp only [items, List.forall_mem_append, List.forall_mem_cons]
    case pairSet =>
      exact ⟨hbracket (by decide), iha h.1, hbracket (by decide), ihb h.2, hbracket (by decide),
        nofun⟩
    all_goals
      exact ⟨isPrinted_of_mem_enclose (iha h.1), isPrinted_symbol (by decide),
        isPrinted_of_mem_enclose (ihb h.2)⟩
  | comprehension x d p ihd ihp =>
    simp only [occurrences_comprehension, List.forall_mem_cons, List.forall_mem_append] at h
    simp only [items, List.forall_mem_append, List.forall_mem_cons]
    exact ⟨hbracket (by decide), h.1, hrelation .element, ihd h.2.1, hbracket (by decide),
      ihp h.2.2, hbracket (by decide), nofun⟩

end Expr

/-! ## Neighbours -/

namespace Item

/-- Whether the text of an item could continue a word or a numbered variable. -/
def startsWord (item : Item) : Bool :=
  item.chars.head?.any fun c => c.isAlpha || Text.isIndexDigit c

/-- The texts of two neighbours cannot be taken for something else. -/
structure Separated (x y : Item) : Prop where
  word : ∀ i, x = var i → y.startsWord = false
  bar : x = bar → y ≠ bar

/-- Items that are separated from each other and from symbols on either side. -/
structure Tidy (l : List Item) : Prop where
  ne_nil : l ≠ []
  isChain : l.IsChain Separated
  head_ne_bar : ∀ y ∈ l.head?, y ≠ Item.bar
  last_ne_bar : ∀ x ∈ l.getLast?, x ≠ Item.bar

theorem Tidy.singleton {x : Item} (h : x ≠ Item.bar) : Tidy [x] :=
  ⟨by simp, .singleton x, by simpa using h, by simpa using h⟩

/-- A symbol between two tidy parts. -/
theorem Tidy.join {l m : List Item} (hl : Tidy l) {kind : TokenClass} {text : String}
    (hword : (symbol kind text).startsWord = false) (hm : Tidy m) :
    Tidy (l ++ symbol kind text :: m) where
  ne_nil := by simp
  isChain := by
    refine hl.isChain.append (hm.isChain.cons fun y hy => ⟨nofun, fun _ => hm.head_ne_bar y hy⟩) ?_
    intro x hx y hy
    cases hy
    exact ⟨fun _ _ => hword, fun hbar => absurd hbar (hl.last_ne_bar x hx)⟩
  head_ne_bar := by
    rw [List.head?_append_of_ne_nil l hl.ne_nil]
    exact hl.head_ne_bar
  last_ne_bar := by
    rw [List.getLast?_append_of_ne_nil _ (by simp), List.getLast?_cons_of_ne_nil hm.ne_nil]
    exact hm.last_ne_bar

/-- A symbol in front of a tidy part. -/
theorem Tidy.cons {l : List Item} (hl : Tidy l) {kind : TokenClass} {text : String}
    (hbar : symbol kind text ≠ Item.bar) : Tidy (symbol kind text :: l) where
  ne_nil := by simp
  isChain := hl.isChain.cons fun y hy => ⟨nofun, fun _ => hl.head_ne_bar y hy⟩
  head_ne_bar := by simpa using hbar
  last_ne_bar := by
    rw [List.getLast?_cons_of_ne_nil hl.ne_nil]
    exact hl.last_ne_bar

/-- A tidy part between brackets. -/
theorem Tidy.wrap {l : List Item} (hl : Tidy l) {kind : TokenClass} {before after : String}
    (hbefore : symbol kind before ≠ Item.bar) (hafter : bracket after ≠ Item.bar)
    (hword : (bracket after).startsWord = false) :
    Tidy (symbol kind before :: (l ++ [bracket after])) := by
  refine Tidy.cons ⟨by simp, hl.isChain.append (.singleton _) ?_, ?_, ?_⟩ hbefore
  · intro x hx y hy
    cases hy
    exact ⟨fun _ _ => hword, fun hbar => absurd hbar (hl.last_ne_bar x hx)⟩
  · rw [List.head?_append_of_ne_nil l hl.ne_nil]
    exact hl.head_ne_bar
  · simpa using hafter

end Item

namespace Expr

open Item

theorem tidy_enclose {b : Bool} {l : List Item} (h : Tidy l) : Tidy (enclose b l) := by
  unfold enclose
  split
  · exact h.wrap (by decide) (by decide) (by decide)
  · exact h

/-- A formula under a quantifier starts with no word, since a relation gets parentheses there. -/
theorem startsWord_body {a : Expr} (ha : a.isWellSortedFormula) :
    ∀ y ∈ (enclose a.isRelation a.items).head?, y.startsWord = false := by
  intro y hy
  cases a with
  | relation r a b => cases hy; decide
  | negation a => cases hy; decide
  | connective c a b => cases hy; decide
  | quantified q x a => cases hy; cases q <;> decide
  | _ => cases ha

theorem tidy_items {e : Expr} (he : e.isWellSortedTerm ∨ e.isWellSortedFormula) :
    Tidy e.items := by
  have hrelation (r : Relation) : (Item.symbol .relation r.symbol).startsWord = false := by
    cases r <;> decide
  have hconnective (c : Connective) : (Item.symbol .connective c.symbol).startsWord = false := by
    cases c <;> decide
  have hbinary (k : BinaryOperator) :
      (Item.symbol .binaryOperator k.symbol).startsWord = false := by
    cases k <;> decide
  induction e with
  | var i => exact .singleton (by rintro ⟨⟩)
  | constant c => exact .singleton (by rintro ⟨⟩)
  | relation r a b iha ihb =>
    rw [isWellSorted_relation] at he
    exact (iha (.inl he.1)).join (hrelation r) (ihb (.inl he.2))
  | negation a ih =>
    rw [isWellSorted_negation] at he
    exact (tidy_enclose (ih (.inr he))).cons (by decide)
  | connective c a b iha ihb =>
    rw [isWellSorted_connective] at he
    have hbody := (iha (.inr he.1)).join (hconnective c) (ihb (.inr he.2))
    have hwrap : Tidy (bracket "(" :: (_ ++ [bracket ")"])) :=
      hbody.wrap (by decide) (by decide) (by decide)
    simpa [items] using hwrap
  | quantified q x a ih =>
    rw [isWellSorted_quantified] at he
    have hbody := tidy_enclose (b := a.isRelation) (ih (.inr he))
    refine Tidy.cons ⟨by simp, hbody.isChain.cons ?_, by simp, ?_⟩ (by rintro ⟨⟩)
    · exact fun y hy => ⟨fun _ _ => startsWord_body he y hy, by rintro ⟨⟩⟩
    · rw [List.getLast?_cons_of_ne_nil hbody.ne_nil]
      exact hbody.last_ne_bar
  | unary k a ih =>
    rw [isWellSorted_unary] at he
    cases k with
    | singleton => exact (ih (.inl he)).wrap (by decide) (by decide) (by decide)
    | _ => exact ((ih (.inl he)).wrap (by decide) (by decide) (by decide)).cons (by rintro ⟨⟩)
  | binary k a b iha ihb =>
    rw [isWellSorted_binary] at he
    cases k with
    | pairSet =>
      have hbody : Tidy (a.items ++ bracket "," :: b.items) :=
        (iha (.inl he.1)).join (by decide) (ihb (.inl he.2))
      have hwrap : Tidy (bracket "\x7b" :: (_ ++ [bracket "\x7d"])) :=
        hbody.wrap (by decide) (by decide) (by decide)
      simpa [items] using hwrap
    | _ => exact (tidy_enclose (iha (.inl he.1))).join (hbinary _) (tidy_enclose (ihb (.inl he.2)))
  | comprehension x d p ihd ihp =>
    rw [isWellSorted_comprehension] at he
    have hmember :=
      (Tidy.singleton (x := .var x) (by rintro ⟨⟩)).join (hrelation .element) (ihd (.inl he.1))
    have hbody : Tidy (_ ++ bar :: p.items) := hmember.join (by decide) (ihp (.inr he.2))
    have hwrap : Tidy (bracket "\x7b" :: (_ ++ [bracket "\x7d"])) :=
      hbody.wrap (by decide) (by decide) (by decide)
    simpa [items] using hwrap

end Expr

end SetFormula
