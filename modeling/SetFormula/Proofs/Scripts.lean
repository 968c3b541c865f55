import SetFormula.Expr.Parser

/-!
# Runs of scripts

* A script that goes on with the result of another one is run by running the two one after the other
  (`run_bind`).
* The levels of nesting matter in one way only: with fewer of them, a script either gives up because
  they are used up or does what it does with more (`parse_upTo`, `parseItems_upTo`). So a tree that
  is read is the same at every depth.
-/

namespace SetFormula

namespace Script

variable {α β : Type} {p q : Parse Expr}

/-! ## Sequencing -/

theorem run_bind (p : Parse Expr) (s : Script α) (f : α → Script β) (items : List Item) :
    (s >>= f).run p items = (s.run p items).bind fun x => (f x.1).run p x.2 := by
  induction s generalizing items with
  | done a => rfl
  | fail e => rfl
  | look next ih => exact ih _ items
  | move next ih =>
    cases items with
    | nil => rfl
    | cons item items => exact ih item items
  | count next ih => exact ih _ items
  | nest next ih =>
    change run p (nest fun e => next e >>= f) items = _
    rw [run, run]
    cases p items with
    | error e => rfl
    | ok x => exact ih x.1 x.2

theorem run_bind_of_eq_ok {s : Script α} {f : α → Script β} {items rest : List Item} {a : α}
    (h : s.run p items = .ok (a, rest)) : (s >>= f).run p items = (f a).run p rest := by
  rw [run_bind, h]
  rfl

theorem run_nested (items : List Item) : nested.run p items = p items := by
  rw [nested, run]
  cases p items <;> rfl

/-! ## Levels -/

/-- The first parser does what the second one does, unless its levels are used up. -/
def UpTo (p q : Parse α) : Prop := ∀ items, p items = .error .tooDeep ∨ p items = q items

/-- A script does not see the levels but through the constructs that are nested in it. -/
theorem run_upTo (h : UpTo p q) (s : Script α) : UpTo (s.run p) (s.run q) := by
  intro items
  induction s generalizing items with
  | done a => exact .inr rfl
  | fail e => exact .inr rfl
  | look next ih => exact ih _ items
  | move next ih =>
    cases items with
    | nil => exact .inr rfl
    | cons item items => exact ih item items
  | count next ih => exact ih _ items
  | nest next ih =>
    rw [run, run]
    rcases h items with hdeep | hsame
    · rw [hdeep]
      exact .inl rfl
    · rw [hsame]
      cases q items with
      | error e => exact .inr rfl
      | ok x => exact ih x.1 x.2

theorem primary_upTo {depth depth' : Nat} (h : depth ≤ depth') :
    UpTo (primary depth) (primary depth') := by
  induction depth generalizing depth' with
  | zero => exact fun _ => .inl rfl
  | succ depth ih =>
    obtain ⟨depth', rfl⟩ : ∃ d, depth' = d + 1 := ⟨depth' - 1, by omega⟩
    exact run_upTo (ih (by omega)) construct

theorem parse_upTo {depth depth' : Nat} (h : depth ≤ depth') (s : Script α) :
    UpTo (s.parse depth) (s.parse depth') := run_upTo (primary_upTo h) s

end Script

/-- With fewer levels, a list of items is either refused for them or read in the same way. -/
theorem parseItems_upTo {depth depth' : Nat} (h : depth ≤ depth') (items : List Item) :
    parseItems depth items = .error .tooDeep ∨
      parseItems depth items = parseItems depth' items := by
  unfold parseItems
  split
  · exact .inr rfl
  · rcases Script.parse_upTo h .expression items with he | he
    · rw [he]
      exact .inl rfl
    · rw [he]
      exact .inr rfl

end SetFormula
