import Mathlib.Data.List.Forall2
import SetFormula.Proofs.Grammar
import SetFormula.Proofs.Scripts

/-!
# What the parser does

Each construct of the parser is described once, by what it does on two lists of items that stand for
the same one by one (`Item.Alias`): the same variable, constant or bracket, or two spellings of one
symbol. Texts matter for the wording of a refusal only, so the two runs make the same steps.

* `Together depth n items S` relates the outcomes of the two runs: both return the same result, and
  the items that the first one has used, the result and the rest satisfy `S`; or both refuse the
  formula where the same number of items, at most `n`, is left; or both find the same token at
  fault, which some item shows that is not spelled; or both use up the levels, which only happens if
  there are at most `n` of them. No run ever takes a misstep.
* `InStep` says this of two scripts, and there is a rule for each way in which scripts are put
  together.
* What a construct has read is derived by the grammar (`IsPrimary`, `IsExpression`). It starts with
  an item of its own, so nested constructs are read from shorter lists, and as many levels as items
  are enough (`nested_inStep`).

What a list of items derives, and that levels may be too few for it, that aliases are read alike,
and that a refusal points into the list, all follow.
-/

namespace SetFormula

/-! ## Items that stand for the same -/

/-- Whether the parser knows what to do with an item: a symbol is spelled as one of its class, and
its class is not that of a leaf. -/
def Item.isSpelled : Item → Bool
  | var _ | constant _ | symbol .bracket _ => true
  | symbol .relation text => (Relation.ofSpelling? text).isSome
  | symbol .connective text => (Junction.ofSpelling? text).isSome
  | symbol .quantifier text => (Quantifier.ofSpelling? text).isSome
  | symbol .unaryOperator text => (UnaryOperator.ofSpelling? text).isSome
  | symbol .binaryOperator text => (BinaryOperator.ofSpelling? text).isSome
  | symbol _ _ => false

/-- Two texts stand for the same in a table, or they are one text that stands for nothing there. -/
structure SpelledAlike {α : Type} (spelling? : String → Option α) (text text' : String) : Prop where
  same : spelling? text = spelling? text'
  eq_of_eq_none : spelling? text = none → text = text'

theorem spelledAlike_refl {α : Type} (spelling? : String → Option α) (text : String) :
    SpelledAlike spelling? text text := ⟨rfl, fun _ => rfl⟩

theorem spelledAlike_of_eq_some {α : Type} {spelling? : String → Option α} {text text' : String}
    {a : α} (h : spelling? text = some a) (h' : spelling? text' = some a) :
    SpelledAlike spelling? text text' := by
  refine ⟨h.trans h'.symm, fun hnone => ?_⟩
  cases h.symm.trans hnone

/-- Two items that stand for the same. -/
inductive Item.Alias : Item → Item → Prop
  | var (i : Nat) : Alias (.var i) (.var i)
  | constant (c : Constant) : Alias (.constant c) (.constant c)
  | bracket (text : String) : Alias (.symbol .bracket text) (.symbol .bracket text)
  | relation {text text' : String} (h : SpelledAlike Relation.ofSpelling? text text') :
    Alias (.symbol .relation text) (.symbol .relation text')
  | connective {text text' : String} (h : SpelledAlike Junction.ofSpelling? text text') :
    Alias (.symbol .connective text) (.symbol .connective text')
  | quantifier {text text' : String} (h : SpelledAlike Quantifier.ofSpelling? text text') :
    Alias (.symbol .quantifier text) (.symbol .quantifier text')
  | unaryOperator {text text' : String} (h : SpelledAlike UnaryOperator.ofSpelling? text text') :
    Alias (.symbol .unaryOperator text) (.symbol .unaryOperator text')
  | binaryOperator {text text' : String} (h : SpelledAlike BinaryOperator.ofSpelling? text text') :
    Alias (.symbol .binaryOperator text) (.symbol .binaryOperator text')
  /-- A leaf that was not looked up stands for nothing but itself. -/
  | variableName (text : String) : Alias (.symbol .variableName text) (.symbol .variableName text)
  | constantName (text : String) : Alias (.symbol .constant text) (.symbol .constant text)
  | other (label text : String) : Alias (.symbol (.other label) text) (.symbol (.other label) text)

namespace Item

theorem alias_refl (item : Item) : item.Alias item := by
  cases item with
  | var i => exact .var i
  | constant c => exact .constant c
  | symbol kind text =>
    cases kind with
    | relation => exact .relation (spelledAlike_refl _ text)
    | connective => exact .connective (spelledAlike_refl _ text)
    | quantifier => exact .quantifier (spelledAlike_refl _ text)
    | unaryOperator => exact .unaryOperator (spelledAlike_refl _ text)
    | binaryOperator => exact .binaryOperator (spelledAlike_refl _ text)
    | bracket => exact .bracket text
    | variableName => exact .variableName text
    | constant => exact .constantName text
    | other label => exact .other label text

/-- Aliases are the same bracket or none. -/
theorem Alias.eq_bracket_iff {x y : Item} (h : Alias x y) (text : String) :
    x = .symbol .bracket text ↔ y = .symbol .bracket text := by
  cases h <;> simp

end Item

/-- Two lists of aliases with at most `n` items. -/
structure Twins (n : Nat) (items items' : List Item) : Prop where
  alike : List.Forall₂ Item.Alias items items'
  length_le : items.length ≤ n

theorem twins_self (items : List Item) : Twins items.length items items :=
  ⟨List.forall₂_same.2 fun item _ => item.alias_refl, Nat.le_refl _⟩

theorem Twins.mono {n m : Nat} {items items' : List Item} (h : Twins n items items') (hle : n ≤ m) :
    Twins m items items' := ⟨h.alike, h.length_le.trans hle⟩

namespace Script

open SetFormula.Expr SetFormula.Item

/-! ## Two runs -/

/-- The outcomes of two runs on lists of aliases, `items` being the first one. -/
inductive Together (depth n : Nat) (items : List Item) {α : Type}
    (S : List Item → α → List Item → Prop) :
    Except ParseFailure (α × List Item) → Except ParseFailure (α × List Item) → Prop
  | ok (a : α) {used rest rest' : List Item} (hitems : items = used ++ rest)
      (hrest : Twins n rest rest') (ha : S used a rest) :
    Together depth n items S (.ok (a, rest)) (.ok (a, rest'))
  | refused (problem problem' : Problem) {left : Nat} (hleft : left ≤ n) :
    Together depth n items S (.error (.refused problem left)) (.error (.refused problem' left))
  | badToken (fault : TokenFault) {item : Item} (hmem : item ∈ items)
      (hitem : item.isSpelled = false) :
    Together depth n items S (.error (.badToken fault)) (.error (.badToken fault))
  | tooDeep (h : depth ≤ n) : Together depth n items S (.error .tooDeep) (.error .tooDeep)

/-- The two scripts have outcomes of that kind, with the parser `p` for nested constructs. -/
def InStep (p : Parse Expr) (depth n : Nat) (items items' : List Item) {α : Type}
    (s s' : Script α) (S : List Item → α → List Item → Prop) : Prop :=
  Together depth n items S (s.run p items) (s'.run p items')

section

variable {p : Parse Expr} {depth n : Nat} {items items' : List Item} {α β : Type}
  {S : List Item → α → List Item → Prop} {T : List Item → β → List Item → Prop}

theorem Together.mono {r r' : Except ParseFailure (α × List Item)}
    {S' : List Item → α → List Item → Prop} (h : Together depth n items S r r')
    (hS : ∀ used a rest, S used a rest → S' used a rest) : Together depth n items S' r r' := by
  cases h with
  | ok a hitems hrest ha => exact .ok a hitems hrest (hS _ _ _ ha)
  | refused problem problem' hleft => exact .refused problem problem' hleft
  | badToken fault hmem hitem => exact .badToken fault hmem hitem
  | tooDeep h => exact .tooDeep h

/-- The outcomes after some items have been used. -/
theorem Together.append {r r' : Except ParseFailure (α × List Item)} {used rest : List Item}
    (hitems : items = used ++ rest)
    (h : Together depth n rest (fun w a rest => S (used ++ w) a rest) r r') :
    Together depth n items S r r' := by
  subst hitems
  cases h with
  | ok a hrest halike ha => exact .ok a (by rw [hrest, List.append_assoc]) halike ha
  | refused problem problem' hleft => exact .refused problem problem' hleft
  | badToken fault hmem hitem => exact .badToken fault (List.mem_append_right _ hmem) hitem
  | tooDeep h => exact .tooDeep h

/-- One more level is enough for one more item. -/
theorem Together.deeper {r r' : Except ParseFailure (α × List Item)}
    (h : Together depth n items S r r') : Together (depth + 1) (n + 1) items S r r' := by
  cases h with
  | ok a hitems hrest ha => exact .ok a hitems (hrest.mono (Nat.le_succ n)) ha
  | refused problem problem' hleft => exact .refused problem problem' (Nat.le_succ_of_le hleft)
  | badToken fault hmem hitem => exact .badToken fault hmem hitem
  | tooDeep h => exact .tooDeep (Nat.succ_le_succ h)

/-! ## Rules -/

theorem inStep_pure {a : α} (h : Twins n items items') (ha : S [] a items) :
    InStep p depth n items items' (pure a) (pure a) S := .ok a rfl h ha

theorem InStep.bind {s s' : Script α} {f f' : α → Script β}
    (h : InStep p depth n items items' s s' S)
    (hf : ∀ used a rest rest', items = used ++ rest → Twins n rest rest' → S used a rest →
      InStep p depth n rest rest' (f a) (f' a) fun w b r => T (used ++ w) b r) :
    InStep p depth n items items' (s >>= f) (s' >>= f') T := by
  unfold InStep at h ⊢
  rw [run_bind, run_bind]
  generalize s.run p items = r at h
  generalize s'.run p items' = r' at h
  cases h with
  | ok a hitems hrest ha => exact (hf _ a _ _ hitems hrest ha).append hitems
  | refused problem problem' hleft => exact .refused problem problem' hleft
  | badToken fault hmem hitem => exact .badToken fault hmem hitem
  | tooDeep h => exact .tooDeep h

theorem inStep_refuseAt (problem problem' : Problem) {left : Nat} (h : left ≤ n) :
    InStep p depth n items items' (refuseAt problem left) (refuseAt problem' left) S :=
  .refused problem problem' h

/-- Both runs see the end, or two aliases. -/
theorem inStep_peek {f f' : Option Item → Script β} (h : Twins n items items')
    (hend : items = [] → InStep p depth n items items' (f none) (f' none) T)
    (hitem : ∀ x y xs ys, items = x :: xs → items' = y :: ys → Item.Alias x y → Twins n xs ys →
      InStep p depth n items items' (f (some x)) (f' (some y)) T) :
    InStep p depth n items items' (peek >>= f) (peek >>= f') T := by
  obtain ⟨halike, hlength⟩ := h
  cases halike with
  | nil => exact hend rfl
  | cons hxy hrest => exact hitem _ _ _ _ rfl rfl hxy ⟨hrest, Nat.le_of_succ_le hlength⟩

theorem inStep_advance {x y : Item} {f f' : Item → Script β}
    (h : InStep p depth n items items' (f x) (f' y) fun w b r => T (x :: w) b r) :
    InStep p depth n (x :: items) (y :: items') (advance >>= f) (advance >>= f') T :=
  Together.append (show x :: items = [x] ++ items from rfl) h

/-- The number of items left is the same in both runs. -/
theorem inStep_remaining {f f' : Nat → Script β} (h : Twins n items items')
    (hf : InStep p depth n items items' (f items.length) (f' items.length) T) :
    InStep p depth n items items' (remaining >>= f) (remaining >>= f') T := by
  change Together depth n items T ((f items.length).run p items) ((f' items'.length).run p items')
  rw [← h.alike.length_eq]
  exact hf

theorem inStep_refuse (problem problem' : Problem) (h : Twins n items items') :
    InStep p depth n items items' (refuse problem) (refuse problem') S :=
  inStep_remaining h (inStep_refuseAt problem problem' h.length_le)

/-- Both look up the same, or find the same text that is not spelled. -/
theorem inStep_known {text text' : String} {spelling? : String → Option α} {item : Item}
    {f f' : α → Script β} (h : SpelledAlike spelling? text text') (hmem : item ∈ items)
    (hitem : item.isSpelled = (spelling? text).isSome)
    (hf : ∀ a, spelling? text = some a → InStep p depth n items items' (f a) (f' a) T) :
    InStep p depth n items items' (known text (spelling? text) >>= f)
      (known text' (spelling? text') >>= f') T := by
  rw [← h.same]
  cases hspelled : spelling? text with
  | some a => exact hf a hspelled
  | none =>
    rw [hspelled] at hitem
    rw [← h.eq_of_eq_none hspelled]
    exact Together.badToken _ hmem hitem

theorem inStep_take {kind : TokenClass} {text text' : String} {spelling? : String → Option α}
    {f f' : String × α → Script β} (h : SpelledAlike spelling? text text')
    (hitem : (Item.symbol kind text).isSpelled = (spelling? text).isSome)
    (hf : ∀ a, spelling? text = some a → InStep p depth n items items' (f (text, a)) (f' (text', a))
      fun w b r => T (.symbol kind text :: w) b r) :
    InStep p depth n (.symbol kind text :: items) (.symbol kind text' :: items')
      (take spelling? >>= f) (take spelling? >>= f') T := by
  unfold InStep
  rw [run_bind, run_bind]
  change Together depth n _ T
    (((known text (spelling? text) >>= fun a => pure (text, a)).run p items).bind _)
    (((known text' (spelling? text') >>= fun a => pure (text', a)).run p items').bind _)
  rw [← h.same]
  cases hspelled : spelling? text with
  | some a =>
    exact Together.append (show _ :: items = [.symbol kind text] ++ items from rfl) (hf a hspelled)
  | none =>
    rw [hspelled] at hitem
    rw [← h.eq_of_eq_none hspelled]
    exact Together.badToken _ List.mem_cons_self hitem

theorem inStep_requireOperand {role role' : Role} {f f' : Unit → Script β}
    (h : Twins n items items') (hf : InStep p depth n items items' (f ()) (f' ()) T) :
    InStep p depth n items items' (requireOperand role >>= f) (requireOperand role' >>= f') T := by
  obtain ⟨halike, hlength⟩ := h
  cases halike with
  | nil => exact Together.refused _ _ hlength
  | cons _ _ => exact hf

theorem inStep_requireSet {role role' : Role} {left : Nat} {e : Expr} {f f' : Unit → Script β}
    (h : left ≤ n) (hf : e.isSet → InStep p depth n items items' (f ()) (f' ()) T) :
    InStep p depth n items items' (requireSet role left e >>= f)
      (requireSet role' left e >>= f') T := by
  unfold requireSet
  split
  · exact hf ‹_›
  · exact Together.refused _ _ h

theorem inStep_expect {purpose purpose' : BracketPurpose} (text : String)
    (htext : purpose.bracket = text) (htext' : purpose'.bracket = text) {f f' : Unit → Script β}
    (h : Twins n items items')
    (hf : ∀ rest rest', Twins n rest rest' →
      InStep p depth n rest rest' (f ()) (f' ()) fun w b r => T (bracket text :: w) b r) :
    InStep p depth n items items' (expect purpose >>= f) (expect purpose' >>= f') T := by
  have hexpect : InStep p depth n items items' (expect purpose) (expect purpose')
      fun used _ _ => used = [bracket text] := by
    refine inStep_peek h (fun _ => inStep_refuse _ _ h) ?_
    rintro x y xs ys rfl rfl hxy hrest
    dsimp only
    rw [htext, htext']
    by_cases hx : x = .symbol .bracket text
    · rw [if_pos hx, if_pos ((hxy.eq_bracket_iff text).1 hx), hx]
      exact inStep_advance (inStep_pure hrest rfl)
    · rw [if_neg hx, if_neg fun hy => hx ((hxy.eq_bracket_iff text).2 hy)]
      exact inStep_refuse _ _ h
  refine hexpect.bind ?_
  rintro used ⟨⟩ rest rest' - hrest rfl
  exact hf rest rest' hrest

end

/-! ## Terms and formulas -/

/-- What a nested construct may be: an atom or a formula. -/
def IsPrimary (w : List Item) (e : Expr) : Prop := Derives .atom w e ∨ Derives .formula w e

/-- What an expression may be: a term or a formula. -/
def IsExpression (w : List Item) (e : Expr) : Prop := Derives .term w e ∨ Derives .formula w e

theorem IsPrimary.atom {w : List Item} {e : Expr} (h : IsPrimary w e) (hset : e.isSet) :
    Derives .atom w e := by
  refine h.resolve_right fun hformula => ?_
  simpa [isFormula_eq_not_isSet, hset] using hformula.isFormula

theorem IsExpression.term {w : List Item} {e : Expr} (h : IsExpression w e) (hset : e.isSet) :
    Derives .term w e := by
  refine h.resolve_right fun hformula => ?_
  simpa [isFormula_eq_not_isSet, hset] using hformula.isFormula

theorem IsExpression.formula {w : List Item} {e : Expr} (h : IsExpression w e)
    (hformula : e.isFormula) : Derives .formula w e := by
  refine h.resolve_left fun hterm => ?_
  simp [isFormula_eq_not_isSet, hterm.isSet] at hformula

section Levels

variable {p : Parse Expr} {depth n : Nat}
  (hp : ∀ {items items'}, Twins n items items' →
    InStep p depth n items items' nested nested fun w e _ => IsPrimary w e)
  {items items' : List Item}

include hp

theorem atom_inStep (role role' : Role) (h : Twins n items items') :
    InStep p depth n items items' (atom role) (atom role') fun w e _ => Derives .atom w e := by
  refine inStep_requireOperand h (inStep_remaining h ((hp h).bind ?_))
  rintro w e rest rest' - hrest he
  refine inStep_requireSet h.length_le fun hset => inStep_pure hrest ?_
  simpa using he.atom hset

/-- A round of the loop takes an item, so there are always rounds left. -/
theorem chain_inStep {rounds : Nat} {first : Expr} {u : List Item} (hfirst : Derives .term u first)
    (h : Twins n items items') (hrounds : items.length < rounds) :
    InStep p depth n items items' (chain rounds first) (chain rounds first)
      fun w e _ => Derives .term (u ++ w) e := by
  induction rounds generalizing first u items items' with
  | zero => exact absurd hrounds (Nat.not_lt_zero _)
  | succ rounds ih =>
    have hstop : InStep p depth n items items' (pure first) (pure first)
        fun w e _ => Derives .term (u ++ w) e := inStep_pure h (by simpa using hfirst)
    rw [chain]
    refine inStep_peek h (fun _ => hstop) ?_
    rintro x y xs ys rfl rfl hxy hxs
    cases hxy with
    | binaryOperator hspelled =>
      refine inStep_take hspelled rfl fun k hk => (atom_inStep hp _ _ hxs).bind ?_
      rintro w second rest rest' rfl hrest hsecond
      rw [List.length_cons, List.length_append] at hrounds
      have hnext := ih (.operator hk hfirst hsecond) hrest (by omega)
      simpa using hnext
    | _ => exact hstop

theorem operators_inStep {first : Expr} {u : List Item} (hfirst : Derives .term u first)
    (h : Twins n items items') :
    InStep p depth n items items' (operators first) (operators first)
      fun w e _ => Derives .term (u ++ w) e :=
  inStep_remaining h (chain_inStep hp hfirst h (Nat.lt_succ_self _))

theorem term_inStep (role role' : Role) (h : Twins n items items') :
    InStep p depth n items items' (term role) (term role') fun w e _ => Derives .term w e :=
  (atom_inStep hp role role' h).bind fun _ _ _ _ _ hrest hfirst =>
    operators_inStep hp (.ofAtom hfirst) hrest

/-- After the operators, a relation follows a term only. -/
theorem extend_inStep {left : Nat} (hleft : left ≤ n) {first : Expr} {u : List Item}
    (hfirst : IsPrimary u first) (h : Twins n items items') :
    InStep p depth n items items' (extend left first) (extend left first) fun w e rest =>
      Derives .term (u ++ w) e ∨
        (Derives .formula (u ++ w) e ∧ ∀ text, rest.head? ≠ some (.symbol .relation text)) := by
  have hoperators (problem problem' : Problem) : InStep p depth n items items'
      (if first.isSet then operators first else refuseAt problem left)
      (if first.isSet then operators first else refuseAt problem' left) fun w e rest =>
      Derives .term (u ++ w) e ∨
        (Derives .formula (u ++ w) e ∧ ∀ text, rest.head? ≠ some (.symbol .relation text)) := by
    split
    · exact (operators_inStep hp (.ofAtom (hfirst.atom ‹_›)) h).mono fun _ _ _ => .inl
    · exact inStep_refuseAt _ _ hleft
  have hstop (hno : ∀ text, items.head? ≠ some (.symbol .relation text)) :
      InStep p depth n items items' (pure first) (pure first) fun w e rest =>
        Derives .term (u ++ w) e ∨
          (Derives .formula (u ++ w) e ∧ ∀ text, rest.head? ≠ some (.symbol .relation text)) := by
    refine inStep_pure h ?_
    rw [List.append_nil]
    exact hfirst.imp .ofAtom fun hformula => ⟨hformula, hno⟩
  refine inStep_peek h ?_ ?_
  · rintro rfl
    exact hstop nofun
  · rintro x y xs ys rfl rfl hxy hxs
    cases hxy with
    | binaryOperator _ => exact hoperators _ _
    | relation _ => exact hoperators _ _
    | _ => exact hstop nofun

theorem conclude_inStep {e : Expr} {u : List Item}
    (he : Derives .term u e ∨
      (Derives .formula u e ∧ ∀ text, items.head? ≠ some (.symbol .relation text)))
    (h : Twins n items items') :
    InStep p depth n items items' (conclude e) (conclude e)
      fun w e' _ => IsExpression (u ++ w) e' := by
  have hstop : InStep p depth n items items' (pure e) (pure e)
      fun w e' _ => IsExpression (u ++ w) e' := by
    refine inStep_pure h ?_
    rw [List.append_nil]
    exact he.imp_right And.left
  refine inStep_peek h (fun _ => hstop) ?_
  rintro x y xs ys rfl rfl hxy hxs
  cases hxy with
  | relation hspelled =>
    have hterm : Derives .term u e := he.resolve_right fun hformula => hformula.2 _ rfl
    refine inStep_take hspelled rfl fun r hr => (term_inStep hp _ _ hxs).bind ?_
    rintro w second rest rest' - hrest hsecond
    refine inStep_pure hrest (.inr ?_)
    simpa using Derives.relation hr hterm hsecond
  | _ => exact hstop

theorem expression_inStep (h : Twins n items items') :
    InStep p depth n items items' expression expression fun w e _ => IsExpression w e := by
  refine inStep_remaining h ((hp h).bind ?_)
  rintro u first rest rest' - hrest hfirst
  refine (extend_inStep hp h.length_le hfirst hrest).bind ?_
  rintro v e rest rest' - hrest he
  have hnext := conclude_inStep hp he hrest
  simpa using hnext

theorem formula_inStep (position position' : FormulaPosition) (h : Twins n items items') :
    InStep p depth n items items' (formula position) (formula position')
      fun w e _ => Derives .formula w e := by
  refine inStep_remaining h ((expression_inStep hp h).bind ?_)
  rintro w e rest rest' - hrest he
  split
  · exact inStep_pure hrest (by simpa using he.formula ‹_›)
  · exact inStep_refuseAt _ _ h.length_le

/-! ## Constructs

Each starts with an item that has been seen, and reads what is nested in it from the rest. -/

theorem quantified_inStep {text text' : String}
    (hspelled : SpelledAlike Quantifier.ofSpelling? text text') (h : Twins n items items') :
    InStep p depth n (.symbol .quantifier text :: items) (.symbol .quantifier text' :: items')
      quantified quantified fun w e _ => IsPrimary w e := by
  refine inStep_take hspelled rfl fun q hq => inStep_peek h (fun _ => inStep_refuse _ _ h) ?_
  rintro x y xs ys rfl rfl hxy hxs
  cases hxy with
  | var x =>
    refine inStep_advance (inStep_requireOperand hxs ((formula_inStep hp _ _ hxs).bind ?_))
    rintro w body rest rest' - hrest hbody
    refine inStep_pure hrest (.inr ?_)
    simpa using Derives.quantified hq x hbody
  | _ => exact inStep_refuse _ _ h

theorem negated_inStep {text text' : String} (htext : Junction.ofSpelling? text = some .negation)
    (h : Twins n items items') :
    InStep p depth n (.symbol .connective text :: items) (.symbol .connective text' :: items')
      (negated text) (negated text') fun w e _ => IsPrimary w e := by
  refine inStep_advance (inStep_requireOperand h ((formula_inStep hp _ _ h).bind ?_))
  rintro w e rest rest' - hrest he
  refine inStep_pure hrest (.inr ?_)
  simpa using Derives.negation htext he

theorem parenthesized_inStep (h : Twins n items items') :
    InStep p depth n (bracket "(" :: items) (bracket "(" :: items') parenthesized parenthesized
      fun w e _ => IsPrimary w e := by
  refine inStep_advance (inStep_remaining h ((expression_inStep hp h).bind ?_))
  rintro v first rest rest' - hrest hfirst
  have hclosed : InStep p depth n rest rest' (closed first) (closed first)
      fun w e _ => IsPrimary (bracket "(" :: (v ++ w)) e := by
    refine inStep_expect ")" rfl rfl hrest fun rest rest' hrest => inStep_pure hrest ?_
    exact hfirst.imp .termInParentheses .inParentheses
  refine inStep_peek hrest (fun _ => hclosed) ?_
  rintro x y xs ys rfl rfl hxy hxs
  cases hxy with
  | connective hspelled =>
    refine inStep_known hspelled List.mem_cons_self rfl fun junction hjunction => ?_
    cases junction with
    | negation => exact hclosed
    | binary c =>
      refine inStep_advance ?_
      split
      · refine inStep_requireOperand hxs ((formula_inStep hp _ _ hxs).bind ?_)
        rintro w second rest rest' - hrest hsecond
        refine inStep_expect ")" rfl rfl hrest fun rest rest' hrest => inStep_pure hrest (.inr ?_)
        simpa using Derives.connective hjunction (hfirst.formula ‹_›) hsecond
      · exact inStep_refuseAt _ _ h.length_le
  | _ => exact hclosed

section Braces

variable {left : Nat} (hleft : left ≤ n) {v : List Item} {first : Expr}
  (hfirst : IsExpression v first) (h : Twins n items items')

include hleft hfirst h

theorem pairSet_inStep :
    InStep p depth n items items' (pairSet left first) (pairSet left first)
      fun w e _ => IsPrimary (bracket "\x7b" :: (v ++ bracket "," :: w)) e := by
  refine inStep_requireSet hleft fun hset => (term_inStep hp _ _ h).bind ?_
  rintro w second rest rest' - hrest hsecond
  refine inStep_expect "\x7d" rfl rfl hrest fun rest rest' hrest => inStep_pure hrest (.inl ?_)
  simpa using Derives.pairSet (hfirst.term hset) hsecond

theorem comprehension_inStep :
    InStep p depth n items items' (comprehension left first) (comprehension left first)
      fun w e _ => IsPrimary (bracket "\x7b" :: (v ++ bracket "|" :: w)) e := by
  unfold comprehension
  split
  · refine inStep_requireOperand h ((formula_inStep hp _ _ h).bind ?_)
    rintro w predicate rest rest' - hrest hpredicate
    refine inStep_expect "\x7d" rfl rfl hrest fun rest rest' hrest => inStep_pure hrest (.inl ?_)
    simpa using Derives.comprehension (hfirst.formula rfl) hpredicate
  · exact inStep_refuseAt _ _ hleft

omit hp in
theorem singleton_inStep :
    InStep p depth n items items' (singleton left first) (singleton left first)
      fun w e _ => IsPrimary (bracket "\x7b" :: (v ++ w)) e := by
  refine inStep_requireSet hleft fun hset => ?_
  refine inStep_expect "\x7d" rfl rfl h fun rest rest' hrest => inStep_pure hrest (.inl ?_)
  exact Derives.singleton (hfirst.term hset)

end Braces

theorem braced_inStep (h : Twins n items items') :
    InStep p depth n (bracket "\x7b" :: items) (bracket "\x7b" :: items') braced braced
      fun w e _ => IsPrimary w e := by
  refine inStep_advance (inStep_remaining h ((expression_inStep hp h).bind ?_))
  rintro v first rest rest' - hrest hfirst
  have hsingleton : InStep p depth n rest rest' (singleton items.length first)
      (singleton items.length first) fun w e _ => IsPrimary (bracket "\x7b" :: (v ++ w)) e :=
    singleton_inStep h.length_le hfirst hrest
  refine inStep_peek hrest (fun _ => hsingleton) ?_
  rintro x y xs ys rfl rfl hxy hxs
  simp only [Option.some.injEq, ← hxy.eq_bracket_iff]
  split
  · subst x
    exact inStep_advance (pairSet_inStep hp h.length_le hfirst hxs)
  · split
    · subst x
      exact inStep_advance (comprehension_inStep hp h.length_le hfirst hxs)
    · exact hsingleton

theorem applied_inStep {text text' : String}
    (hspelled : SpelledAlike UnaryOperator.ofSpelling? text text') (h : Twins n items items') :
    InStep p depth n (.symbol .unaryOperator text :: items) (.symbol .unaryOperator text' :: items')
      applied applied fun w e _ => IsPrimary w e := by
  refine inStep_take hspelled rfl fun k hk => inStep_expect "(" rfl rfl h fun xs ys hxs => ?_
  refine (term_inStep hp _ _ hxs).bind fun w operand rest rest' _ hrest hoperand => ?_
  refine inStep_expect ")" rfl rfl hrest fun rest rest' hrest => inStep_pure hrest (.inl ?_)
  simpa using Derives.applied hk hoperand

/-- A construct starts with an item of its own, so one more level is enough for one more item. -/
theorem construct_inStep (h : Twins (n + 1) items items') :
    InStep p (depth + 1) (n + 1) items items' construct construct fun w e _ => IsPrimary w e := by
  refine inStep_peek h (fun _ => inStep_refuse _ _ h) ?_
  rintro x y xs ys rfl rfl hxy -
  have hrest : Twins n xs ys :=
    ⟨(List.forall₂_cons.1 h.alike).2, Nat.le_of_succ_le_succ h.length_le⟩
  cases hxy with
  | var i =>
    exact inStep_advance (inStep_pure (hrest.mono (Nat.le_succ n)) (.inl (.var i)))
  | constant c =>
    exact inStep_advance (inStep_pure (hrest.mono (Nat.le_succ n)) (.inl (.constant c)))
  | quantifier hspelled => exact (quantified_inStep hp hspelled hrest).deeper
  | connective hspelled =>
    refine inStep_known hspelled List.mem_cons_self rfl fun junction hjunction => ?_
    cases junction with
    | negation => exact (negated_inStep hp hjunction hrest).deeper
    | binary c => exact inStep_refuse _ _ h
  | bracket text =>
    dsimp only
    split
    · subst text
      exact (parenthesized_inStep hp hrest).deeper
    · split
      · subst text
        exact (braced_inStep hp hrest).deeper
      · exact inStep_refuse _ _ h
  | unaryOperator hspelled => exact (applied_inStep hp hspelled hrest).deeper
  | relation _ => exact inStep_refuse _ _ h
  | binaryOperator _ => exact inStep_refuse _ _ h
  | variableName text => exact Together.badToken _ List.mem_cons_self rfl
  | constantName text => exact Together.badToken _ List.mem_cons_self rfl
  | other label text => exact Together.badToken _ List.mem_cons_self rfl

end Levels

/-- By induction on the levels: what is nested in a construct is read from the items after its first
one. -/
theorem nested_inStep (depth n : Nat) {items items' : List Item} (h : Twins n items items') :
    InStep (primary depth) depth n items items' nested nested fun w e _ => IsPrimary w e := by
  induction depth generalizing n items items' with
  | zero => exact Together.tooDeep (Nat.zero_le n)
  | succ depth ih =>
    change Together _ _ _ _ (nested.run (construct.run (primary depth)) items)
      (nested.run (construct.run (primary depth)) items')
    rw [run_nested, run_nested]
    cases n with
    | zero =>
      obtain ⟨halike, hlength⟩ := h
      cases halike with
      | nil => exact Together.refused _ _ (Nat.le_refl 0)
      | cons _ _ => exact absurd hlength (Nat.not_succ_le_zero _)
    | succ n => exact construct_inStep (ih n) h

end Script

end SetFormula
