import SetFormula.Proofs.GrammarSoundness

/-!
# The parser with a position in the list

The script of the parser can also be carried out over the whole list of items with a position in it
(`Script.walk`). There, a step that moves past the end is a misstep too.

From every position in the list, a script does what it does on the items from there on, and leaves
the position where it leaves the items (`Script.walk_follows`); this is so for every script. Each
entry point of the parser moves on by an item at least or fails, never by a misstep
(`EntryPoint.reader_cases`), and comes to an end, since more levels of nesting than items are not
used up (`EntryPoint.parser_ne_tooDeep`). Nothing is assumed of the items: their classes and texts
may be nonsense.
-/

namespace SetFormula

/-- A reader looks at the items around a position and moves it. -/
abbrev Cursor (α : Type) := List Item → Nat → Except ParseFailure (α × Nat)

/-- Carry out a script over a list with a position in it, with a reader for the nested
constructs. -/
def Script.walk {α : Type} (primary : Cursor Expr) : Script α → Cursor α
  | done a, _, pos => .ok (a, pos)
  | fail f, _, _ => .error f
  | look next, items, pos => (next items[pos]?).walk primary items pos
  | move next, items, pos =>
    match items[pos]? with
    | some item => (next item).walk primary items (pos + 1)
    | none => .error (.misstep .pastEnd)
  | count next, items, pos => (next (items.length - pos)).walk primary items pos
  | nest next, items, pos =>
    match primary items pos with
    | .ok (e, pos) => (next e).walk primary items pos
    | .error f => .error f

/-- The construct that the item at a position introduces, with at most `depth` levels of nesting. -/
def Cursor.primary : Nat → Cursor Expr
  | 0 => fun _ _ => .error .tooDeep
  | depth + 1 => Script.construct.walk (primary depth)

/-! ## Positions stand for the items from there on -/

/-- What a reader does from a position, and what a parser does on the items from there on. -/
inductive Follows {α : Type} (items : List Item) (pos : Nat) :
    Except ParseFailure (α × Nat) → Except ParseFailure (α × List Item) → Prop
  | ok (a : α) {pos' : Nat} (hle : pos ≤ pos') (hend : pos' ≤ items.length) :
    Follows items pos (.ok (a, pos')) (.ok (a, items.drop pos'))
  | error (f : ParseFailure) : Follows items pos (.error f) (.error f)

section

variable {α : Type} {items : List Item} {pos pos' : Nat} {r r' : Except ParseFailure (α × Nat)}
  {q : Except ParseFailure (α × List Item)}

theorem Follows.of_le (h : Follows items pos' r q) (hle : pos ≤ pos') : Follows items pos r q := by
  cases h with
  | ok a hle' hend => exact .ok a (hle.trans hle') hend
  | error f => exact .error f

/-- A position in the list is known by the items from there on. -/
theorem Follows.unique (h : Follows items pos r q) (h' : Follows items pos' r' q) : r = r' := by
  cases h with
  | error f =>
    cases h'
    rfl
  | @ok a end₁ hle hend =>
    generalize hdrop : items.drop end₁ = rest at h'
    cases h' with
    | @ok _ end₂ hle' hend' =>
      have hlength := congrArg List.length hdrop
      rw [List.length_drop, List.length_drop] at hlength
      obtain rfl : end₁ = end₂ := by omega
      rfl

end

/-- Every script does from a position what it does on the items from there on, if this is so for the
nested constructs. -/
theorem Script.walk_follows {α : Type} {items : List Item} {c : Cursor Expr} {p : Parse Expr}
    (hp : ∀ pos ≤ items.length, Follows items pos (c items pos) (p (items.drop pos)))
    (s : Script α) {pos : Nat} (hpos : pos ≤ items.length) :
    Follows items pos (s.walk c items pos) (s.run p (items.drop pos)) := by
  induction s generalizing pos with
  | done a => exact .ok a (Nat.le_refl pos) hpos
  | fail f => exact .error f
  | look next ih =>
    rw [walk, run, List.head?_drop]
    exact ih _ hpos
  | count next ih =>
    rw [walk, run, List.length_drop]
    exact ih _ hpos
  | move next ih =>
    rw [walk]
    rcases Nat.lt_or_eq_of_le hpos with hlt | rfl
    · rw [List.getElem?_eq_getElem hlt, List.drop_eq_getElem_cons hlt]
      exact (ih _ hlt).of_le (Nat.le_succ pos)
    · rw [List.getElem?_eq_none (Nat.le_refl _), List.drop_length]
      exact .error _
  | nest next ih =>
    rw [walk, run]
    have hnested := hp pos hpos
    generalize c items pos = r at hnested ⊢
    generalize p (items.drop pos) = q at hnested ⊢
    cases hnested with
    | ok e hle hend => exact (ih e hend).of_le hle
    | error f => exact .error f

theorem Cursor.primary_follows (items : List Item) (depth : Nat) {pos : Nat}
    (hpos : pos ≤ items.length) :
    Follows items pos (primary depth items pos) (SetFormula.primary depth (items.drop pos)) := by
  induction depth generalizing pos with
  | zero => exact .error _
  | succ depth ih => exact Script.walk_follows (fun pos hpos => ih hpos) .construct hpos

/-! ## Entry points -/

/-- Where reading may be started at any position. -/
inductive EntryPoint where
  | primary
  | expression
  | formula (position : FormulaPosition)
  | term (role : Role)
  deriving DecidableEq, Repr

namespace EntryPoint

open Script

/-- The script of an entry point. -/
def script : EntryPoint → Script Expr
  | primary => .nested
  | expression => .expression
  | formula position => .formula position
  | term role => .term role

/-- The reader with a position, with at most `depth` levels of nesting. -/
def reader (depth : Nat) (entry : EntryPoint) : Cursor Expr := entry.script.walk (.primary depth)

/-- The parser that the reader follows. -/
def parser (depth : Nat) (entry : EntryPoint) : Parse Expr := entry.script.parse depth

variable (entry : EntryPoint) {items : List Item}

theorem reader_follows (depth : Nat) {pos : Nat} (hpos : pos ≤ items.length) :
    Follows items pos (entry.reader depth items pos) (entry.parser depth (items.drop pos)) :=
  walk_follows (fun _ hpos => Cursor.primary_follows items depth hpos) entry.script hpos

/-- What is read is not empty. -/
theorem parser_together (depth : Nat) (items : List Item) :
    Together depth items.length items (fun used _ _ => used ≠ []) (entry.parser depth items)
      (entry.parser depth items) := by
  have hnested {items items' : List Item} {n : Nat} (h : Twins n items items') :=
    nested_inStep depth n h
  have hself := twins_self items
  cases entry with
  | primary => exact (hnested hself).mono fun _ _ _ he => he.elim Derives.ne_nil Derives.ne_nil
  | expression =>
    exact (expression_inStep hnested hself).mono fun _ _ _ he =>
      he.elim Derives.ne_nil Derives.ne_nil
  | formula position =>
    exact (formula_inStep hnested position position hself).mono fun _ _ _ he => he.ne_nil
  | term role => exact (term_inStep hnested role role hself).mono fun _ _ _ he => he.ne_nil

/-- Whatever the levels, a reader moves past an item at least, in the list, or fails as the parser
does, without a misstep. -/
theorem reader_cases (depth : Nat) {start : Nat} (hstart : start ≤ items.length) :
    (∃ e pos, start < pos ∧ pos ≤ items.length ∧ entry.reader depth items start = .ok (e, pos) ∧
      entry.parser depth (items.drop start) = .ok (e, items.drop pos)) ∨
    ∃ f, (∀ m, f ≠ .misstep m) ∧ entry.reader depth items start = .error f ∧
      entry.parser depth (items.drop start) = .error f := by
  have hfollows := entry.reader_follows depth hstart
  have hrun := entry.parser_together depth (items.drop start)
  generalize entry.reader depth items start = outcome at hfollows ⊢
  generalize entry.parser depth (items.drop start) = outcome' at hfollows hrun ⊢
  cases hfollows with
  | error f =>
    refine .inr ⟨f, ?_, rfl, rfl⟩
    rintro m rfl
    cases hrun
  | @ok e pos hle hend =>
    generalize hrest : items.drop pos = rest at hrun
    cases hrun with
    | @ok _ used _ _ hitems _ hne =>
      have hlength := congrArg List.length hitems
      rw [List.length_append, ← hrest, List.length_drop, List.length_drop] at hlength
      have hpositive := List.length_pos_of_ne_nil hne
      exact .inl ⟨e, pos, by omega, hend, rfl, by rw [hrest]⟩

/-- With more levels than items, they are not used up. -/
theorem parser_ne_tooDeep {depth : Nat} (h : items.length < depth) :
    entry.parser depth items ≠ .error .tooDeep := by
  intro hdeep
  have hrun := entry.parser_together depth items
  rw [hdeep] at hrun
  cases hrun with
  | tooDeep hdepth => exact Nat.not_le_of_lt h hdepth

/-- So more levels make no difference. -/
theorem parser_eq_of_le {depth depth' : Nat} (h : items.length < depth) (hle : depth ≤ depth') :
    entry.parser depth' items = entry.parser depth items :=
  ((parse_upTo hle entry.script items).resolve_left (entry.parser_ne_tooDeep h)).symm

theorem reader_ne_misstep (depth : Nat) {start : Nat} (hstart : start ≤ items.length)
    (m : Misstep) : entry.reader depth items start ≠ .error (.misstep m) := by
  intro hmisstep
  rcases entry.reader_cases depth hstart with ⟨e, pos, -, -, hok, -⟩ | ⟨f, hf, herror, -⟩
  · cases hok.symm.trans hmisstep
  · cases herror.symm.trans hmisstep
    exact hf m rfl

/-- **Reading moves on and stays in the list.** Take any tokens that can be looked up, also such as
no text has, and start at any position that is not past their end. Whatever the levels of nesting,
each entry point reads what the parser reads from there on, with the position further on than it was
and not past the end, or fails as the parser does; so no step moves past the end, takes a leaf for a
symbol or goes round without end. With more levels than tokens from there on, they are not used up
and more of them make no difference: reading comes to an end. -/
theorem reader_advances_within_list (tokens : List Token) (items : List Item) (start : Nat)
    (hitems : itemsOf tokens = .ok items) (hstart : start ≤ tokens.length) (entry : EntryPoint)
    (depth : Nat) :
    ((∃ e pos, start < pos ∧ pos ≤ tokens.length ∧ entry.reader depth items start = .ok (e, pos) ∧
        entry.parser depth (items.drop start) = .ok (e, items.drop pos)) ∨
      ∃ f, (∀ m, f ≠ .misstep m) ∧ entry.reader depth items start = .error f ∧
        entry.parser depth (items.drop start) = .error f) ∧
    (tokens.length - start < depth →
      entry.reader depth items start ≠ .error .tooDeep ∧
      ∀ depth' ≥ depth, entry.reader depth' items start = entry.reader depth items start) := by
  have hlength := length_of_itemsOf hitems
  rw [← hlength] at hstart ⊢
  refine ⟨entry.reader_cases depth hstart, fun hdepth => ?_⟩
  rw [← List.length_drop] at hdepth
  have hfollows := entry.reader_follows depth hstart
  constructor
  · intro hdeep
    rw [hdeep] at hfollows
    generalize hparser : entry.parser depth (items.drop start) = outcome at hfollows
    cases hfollows
    exact entry.parser_ne_tooDeep hdepth hparser
  · intro depth' hle
    have hfollows' := entry.reader_follows depth' hstart
    rw [entry.parser_eq_of_le hdepth hle] at hfollows'
    exact hfollows'.unique hfollows

/-- Items that make no formula: a bracket that closes nothing, `x ∪ y`, a symbol of no class and a
quantifier at the end. -/
def strayItems : List Item :=
  [.symbol .bracket ")", .var (indexOfLetter 'x'), .symbol .binaryOperator "∪",
    .var (indexOfLetter 'y'), .symbol (.other "MARK") "?", .symbol .quantifier "∃"]

/-- The tokens of these items. -/
def strayTokens : List Token :=
  [⟨.bracket, ")", ⟨1, 1, none⟩⟩, ⟨.variableName, "x", ⟨1, 2, none⟩⟩,
    ⟨.binaryOperator, "∪", ⟨1, 3, none⟩⟩, ⟨.variableName, "y", ⟨1, 4, none⟩⟩,
    ⟨.other "MARK", "?", ⟨1, 5, none⟩⟩, ⟨.quantifier, "∃", ⟨1, 6, none⟩⟩]

/-- From the second item on, `x ∪ y` is read and the reader stops before the symbol of no class. The
quantifier is taken, and no variable is looked for past the end. -/
theorem reader_advances_within_list_stray :
    itemsOf strayTokens = .ok strayItems ∧
    (∀ depth ≥ 6, expression.reader depth strayItems 1 =
      .ok (.binary .union (.var (indexOfLetter 'x')) (.var (indexOfLetter 'y')), 4)) ∧
    ∀ depth ≥ 2, primary.reader depth strayItems 5 =
      .error (.refused (.missingVariable (.quantifier "∃") "end of input") 0) := by
  have hitems : itemsOf strayTokens = .ok strayItems := by rfl
  refine ⟨hitems, fun depth hdepth => ?_, fun depth hdepth => ?_⟩
  · obtain ⟨-, hend⟩ := reader_advances_within_list strayTokens strayItems 1 hitems (by decide)
      expression 6
    rw [(hend (by decide)).2 depth hdepth]
    rfl
  · obtain ⟨-, hend⟩ := reader_advances_within_list strayTokens strayItems 5 hitems (by decide)
      primary 2
    rw [(hend (by decide)).2 depth hdepth]
    rfl

end EntryPoint

end SetFormula
