import SetFormula.Proofs.NormalForm

/-!
# What each switch guarantees

The normal form `IsNormal` is made for recursion along a tree. Here it is read node by node: which
nodes do not occur in a result, whatever the other switches are.

* Letters, negated relations and `⊆` are looked for among all nodes, `Expr.walk`
  (`Expr.allowed_of_mem_walk`).
* Operands of `=` and `∈` and singletons are looked for outside the memberships of comprehensions,
  `Expr.exposed` (`Expr.isUnfolded_iff_exposed`). A membership `x ∈ S` keeps whatever `S` holds.
-/

namespace SetFormula

namespace Expr

/-- The nodes outside the memberships of comprehensions, in pre-order. Of a comprehension these are
the node itself and the nodes of its predicate. -/
def exposed : Expr → List Expr
  | var i => [var i]
  | constant c => [constant c]
  | relation r a b => relation r a b :: (a.exposed ++ b.exposed)
  | negation a => negation a :: a.exposed
  | connective c a b => connective c a b :: (a.exposed ++ b.exposed)
  | quantified q x a => quantified q x a :: var x :: a.exposed
  | unary k a => unary k a :: a.exposed
  | binary k a b => binary k a b :: (a.exposed ++ b.exposed)
  | comprehension x d p => comprehension x d p :: p.exposed

/-- The switch of a term that is an operator, a comprehension or a constant. -/
def termSwitch? : Expr → Option Switch
  | constant c => some c.switch
  | unary k _ => some k.switch
  | binary k _ _ => some k.switch
  | comprehension _ _ _ => some .comprehension
  | _ => none

/-- If the relations of a tree are allowed, and `∈` is, then every relation that is met in the walk
is allowed: the walk also meets the memberships of comprehensions. -/
theorem allowed_of_mem_walk (allowed : Relation → Bool) (hmem : allowed .element) {e : Expr}
    (he : e.relationsAmong allowed) {r : Relation} {a b : Expr} (h : relation r a b ∈ e.walk) :
    allowed r := by
  rw [walk_eq_preorder] at h
  induction e with
  | var i | constant c => simp [preorder] at h
  | relation r' a' b' iha ihb =>
    simp only [relationsAmong, Bool.and_eq_true] at he
    simp only [preorder, List.mem_cons, List.mem_append, relation.injEq] at h
    rcases h with ⟨rfl, -⟩ | h | h
    · exact he.1
    · exact iha he.2.1 h
    · exact ihb he.2.2 h
  | negation a' ih | unary k a' ih | quantified q x a' ih =>
    simp only [preorder, List.mem_cons, reduceCtorEq, false_or] at h
    exact ih he h
  | connective c a' b' iha ihb | binary k a' b' iha ihb =>
    simp only [relationsAmong, Bool.and_eq_true] at he
    simp only [preorder, List.mem_cons, List.mem_append, reduceCtorEq, false_or] at h
    exact h.elim (iha he.1) (ihb he.2)
  | comprehension x d p ihd ihp =>
    simp only [relationsAmong, Bool.and_eq_true] at he
    simp only [preorder, List.mem_cons, List.mem_append, reduceCtorEq, false_or,
      relation.injEq] at h
    rcases h with ⟨rfl, -⟩ | h | h
    · exact hmem
    · exact ihd he.1 h
    · exact ihp he.2 h

/-- A tree is unfolded if and only if no rule applies at a node outside the memberships of
comprehensions. -/
theorem isUnfolded_iff_exposed {target : Expr → Bool} {e : Expr} :
    e.isUnfolded target ↔ ∀ u ∈ e.exposed, u.isQuiet target := by
  induction e with
  | var i | constant c => simp [isUnfolded, exposed, isQuiet]
  | relation r a b iha ihb | connective c a b iha ihb | binary k a b iha ihb =>
    rw [isUnfolded_iff]
    simp only [exposed, visited, List.forall_mem_cons, List.forall_mem_append, iha, ihb,
      List.not_mem_nil, false_imp_iff, implies_true, and_true]
  | negation a ih | unary k a ih | comprehension x d a _ ih =>
    rw [isUnfolded_iff]
    simp [exposed, visited, ih]
  | quantified q x a ih =>
    rw [isUnfolded_iff]
    simp [exposed, visited, ih, isQuiet]

end Expr

open SetFormula.Expr Elimination

theorem switch_eq_false_of_not_targets {s : Switches} {e : Expr} (h : ¬Targets s e) {w : Switch}
    (hw : e.termSwitch? = some w) : s w = false := by
  rw [Targets, not_or, Bool.not_eq_true, Bool.not_eq_true] at h
  cases e with
  | constant c =>
    cases hw
    exact h.2
  | unary k a | binary k a b | comprehension x d p =>
    cases hw
    exact h.1
  | _ => cases hw

/-- **What each switch guarantees**, whatever the others are. If no number that is drawn reaches the
indices of letters, a result has no letter, no negated relation and no `⊆` if the switch for them is
on, the memberships of comprehensions included. Outside of these memberships, no operand of `=` or
`∈` is an operator, a comprehension or a constant whose switch is on, and there is no singleton at
all if the switch for singletons is on. -/
theorem switches_guarantee (s : Switches) (depth : Nat) (e e' : Expr)
    (h : eliminate s depth e = some e') (hdrawn : ∀ i ∈ drawnNumbers s depth e, i < letterStart) :
    (s .letters → ∀ i : Nat, var i ∈ e'.walk → isLetter i = false) ∧
    (s .negatedRelations → ∀ r a b, relation r a b ∈ e'.walk → r.isNegated = false) ∧
    (s .subset → ∀ a b, sub a b ∉ e'.walk) ∧
    (∀ a b, eq a b ∈ e'.exposed ∨ mem a b ∈ e'.exposed →
      ∀ w, a.termSwitch? = some w ∨ b.termSwitch? = some w → s w = false) ∧
    (s .singleton → ∀ a, unary .singleton a ∉ e'.exposed) := by
  have hnormal := isNormal_of_eliminate h fun i hi => isLetter_of_lt (hdrawn i hi)
  have hoperators := isUnfolded_iff_exposed.1 hnormal.operators
  have hconstants := isUnfolded_iff_exposed.1 hnormal.constants
  refine ⟨fun on i hi => ?_, fun on r a b hr => ?_, fun on a b hsub => ?_,
    fun a b hu w hw => ?_, fun on a ha => ?_⟩
  · exact hnormal.letters on i (List.mem_filterMap.2 ⟨var i, hi, rfl⟩)
  · simpa using allowed_of_mem_walk (!·.isNegated) rfl (hnormal.negatedRelations on) hr
  · cases allowed_of_mem_walk (· != .subset) rfl (hnormal.subset on) hsub
  · have hquiet (target : Expr → Bool) (htarget : ∀ u ∈ e'.exposed, u.isQuiet target) :
        target a = false ∧ target b = false := by
      rcases hu with hu | hu <;> simpa [isQuiet] using htarget _ hu
    have hop := hquiet _ hoperators
    have hconst := hquiet _ hconstants
    have ha : ¬Targets s a := by simp [Targets, hop.1, hconst.1]
    have hb : ¬Targets s b := by simp [Targets, hop.2, hconst.2]
    exact hw.elim (switch_eq_false_of_not_targets ha) (switch_eq_false_of_not_targets hb)
  · have hquiet := hoperators _ ha
    simp [isQuiet, targeted, UnaryOperator.switch, on] at hquiet

/-- All switches on but that for comprehensions. -/
def keepComprehensions : Switches := Switches.allOn.turnOff [.comprehension]

/-- The formula `x ∉ {v₀ ∈ {∅} | v₀ ⊆ ω}`. -/
def notInSeparation : Expr :=
  relation .notElement (var (indexOfLetter 'x'))
    (comprehension 0 (unary .singleton empty) (sub (var 0) (constant .omega)))

/-- Comprehensions are kept, with the singleton in the membership of this one. The formula for `ω`
brings a singleton and `⊆` back, which are eliminated in turn. -/
theorem switches_guarantee_separation :
    ∃ e', eliminate keepComprehensions 40 notInSeparation = some e' ∧
      (∀ i : Nat, var i ∈ e'.walk → isLetter i = false) ∧
      (∀ r a b, relation r a b ∈ e'.walk → r.isNegated = false) ∧
      (∀ a b, sub a b ∉ e'.walk) ∧
      (∀ a b, eq a b ∈ e'.exposed ∨ mem a b ∈ e'.exposed →
        ∀ w, a.termSwitch? = some w ∨ b.termSwitch? = some w → keepComprehensions w = false) ∧
      (∀ a, unary .singleton a ∉ e'.exposed) ∧ unary .singleton empty ∈ e'.walk := by
  have hsome : (eliminate keepComprehensions 40 notInSeparation).isSome := by decide +kernel
  obtain ⟨e', he'⟩ := Option.isSome_iff_exists.1 hsome
  have hdrawn : ∀ i ∈ drawnNumbers keepComprehensions 40 notInSeparation, i < letterStart := by
    decide +kernel
  have hkept : (eliminate keepComprehensions 40 notInSeparation).all
      fun e' => e'.walk.contains (unary .singleton empty) := by
    decide +kernel
  rw [he', Option.all_some, List.contains_iff_mem] at hkept
  obtain ⟨hletters, hnegated, hsubset, hoperands, hsingleton⟩ :=
    switches_guarantee _ _ _ _ he' hdrawn
  exact ⟨e', he', hletters rfl, hnegated rfl, hsubset rfl, hoperands, hsingleton rfl, hkept⟩

end SetFormula
