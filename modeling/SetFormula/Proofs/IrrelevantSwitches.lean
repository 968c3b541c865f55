import SetFormula.Proofs.Mirroring
import SetFormula.Proofs.NormalForm

/-!
# Irrelevant switches

Which switches matter for a tree can be read off it: those of the constructs that occur in it, and
those of the constructs that rules introduce for them in turn (`Relevant`). Two settings that agree
on these give the same result.

* A tree is `Confined` to a set of switches if the constructs in it belong to them. If the set is
  closed under what rules introduce, the passes do not leave it (`Unfolds.confined`).
* On a confined tree the rules of two settings that agree on the set are the same
  (`operatorRule_congr`), and so is the fourth pass (`operators_congr`).
* Whether a pass runs at all depends on switches outside the set as well. A pass that runs for their
  sake alone changes nothing and draws nothing, but it may give up. So the settings are compared
  where both have a result, with levels of their own: `Unfolding.Agrees`.
-/

namespace SetFormula

/-! ## Relevant switches -/

/-- The switches of a relation. Since `⊈` is the negation of `⊆`, the switch for `⊆` is one of
them. -/
def Relation.switches : Relation → List Switch
  | equality | element => []
  | subset => [.subset]
  | notEqual | notElement => [.negatedRelations]
  | notSubset => [.negatedRelations, .subset]

/-- The switches of the construct at the root of a tree. -/
def Expr.switches : Expr → List Switch
  | var i => if isLetter i then [.letters] else []
  | constant c => [c.switch]
  | relation r _ _ => r.switches
  | unary k _ => [k.switch]
  | binary k _ _ => [k.switch]
  | comprehension _ _ _ => [.comprehension]
  | negation _ | connective _ _ _ | quantified _ _ _ => []

/-- The switches of the constructs that the rule for a switch introduces. -/
def Switch.introduces : Switch → List Switch
  | singleton => [powerSet, comprehension]
  | powerSet => [subset]
  | bigIntersection => [emptySet]
  | omega => [emptySet, union, singleton]
  | _ => []

/-- The switches that matter for a tree: the least set that holds those of every node and is closed
under what rules introduce. -/
inductive Relevant (e : Expr) : Switch → Prop
  | occurs {u : Expr} {w : Switch} (hu : u ∈ e.walk) (hw : w ∈ u.switches) : Relevant e w
  | introduced {w w' : Switch} (h : Relevant e w) (hw : w' ∈ w.introduces) : Relevant e w'

/-! ## Trees confined to a set of switches -/

variable {K : Switch → Prop}

/-- A set of switches is closed under what rules introduce. -/
def Switch.IsClosed (K : Switch → Prop) : Prop := ∀ w, K w → ∀ w' ∈ w.introduces, K w'

namespace Expr

/-- The constructs of the tree belong to a set of switches. Letters do not count: only the first pass
looks at them. -/
def Confined (K : Switch → Prop) : Expr → Prop
  | var _ => True
  | constant c => K c.switch
  | relation r a b => (∀ w ∈ r.switches, K w) ∧ a.Confined K ∧ b.Confined K
  | negation a | quantified _ _ a => a.Confined K
  | connective _ a b => a.Confined K ∧ b.Confined K
  | unary k a => K k.switch ∧ a.Confined K
  | binary k a b => K k.switch ∧ a.Confined K ∧ b.Confined K
  | comprehension _ d p => K .comprehension ∧ d.Confined K ∧ p.Confined K

theorem confined_of_walk {e : Expr} (h : ∀ u ∈ e.walk, ∀ w ∈ u.switches, K w) : e.Confined K := by
  rw [walk_eq_preorder] at h
  induction e with
  | var i => trivial
  | constant c => exact h _ List.mem_cons_self _ List.mem_cons_self
  | relation r a b iha ihb =>
    simp only [preorder, List.forall_mem_cons, List.forall_mem_append] at h
    exact ⟨h.1, iha h.2.1, ihb h.2.2⟩
  | negation a ih =>
    simp only [preorder, List.forall_mem_cons] at h
    exact ih h.2
  | connective c a b iha ihb =>
    simp only [preorder, List.forall_mem_cons, List.forall_mem_append] at h
    exact ⟨iha h.2.1, ihb h.2.2⟩
  | quantified q x a ih =>
    simp only [preorder, List.forall_mem_cons] at h
    exact ih h.2.2
  | unary k a ih =>
    simp only [preorder, List.forall_mem_cons] at h
    exact ⟨h.1 _ List.mem_cons_self, ih h.2⟩
  | binary k a b iha ihb =>
    simp only [preorder, List.forall_mem_cons, List.forall_mem_append] at h
    exact ⟨h.1 _ List.mem_cons_self, iha h.2.1, ihb h.2.2⟩
  | comprehension x d p ihd ihp =>
    simp only [preorder, List.forall_mem_cons, List.forall_mem_append] at h
    exact ⟨h.1 _ List.mem_cons_self, ihd h.2.2.2.1, ihp h.2.2.2.2⟩

section

-- the equations are made here once, not by each of the proofs that follow
attribute [local simp] Confined

theorem confined_rename (f : Nat → Nat) (e : Expr) : (e.rename f).Confined K ↔ e.Confined K := by
  induction e <;> simp_all [rename]

theorem confined_renameFree (x y : Nat) (e : Expr) :
    (e.renameFree x y).Confined K ↔ e.Confined K := by
  induction e with
  | var i =>
    rw [renameFree]
    split <;> simp
  | quantified q z a ih =>
    rw [renameFree]
    split <;> simp_all
  | comprehension z d p ihd ihp =>
    rw [renameFree]
    split <;> simp_all
  | _ => simp_all [renameFree]

theorem Confined.of_mem_visited {e a : Expr} (he : e.Confined K) (ha : a ∈ e.visited) :
    a.Confined K := by
  cases e <;> simp [visited] at ha <;> simp at he <;> grind

end

/-- A relation that belongs to another switch does not occur. -/
theorem Confined.relationsAmong {allowed : Relation → Bool} {e : Expr} (he : e.Confined K)
    (h : ∀ r, (∀ w ∈ r.switches, K w) → allowed r) : e.relationsAmong allowed := by
  induction e with
  | relation r a b iha ihb => simp [Expr.relationsAmong, h r he.1, iha he.2.1, ihb he.2.2]
  | _ => simp_all [Confined, Expr.relationsAmong]

end Expr

namespace Elimination

open SetFormula.Expr

variable {s s' : Switches} {e e' : Expr} {t t' : Taken}

theorem Rewrites.confined (h : Rewrites s e e') (he : e.Confined K) : e'.Confined K := by
  cases h with
  | @negated r on hr a b =>
    refine ⟨fun w hw => he.1 w ?_, he.2⟩
    cases r <;> simp_all [Relation.switches, Relation.positive, Relation.isNegated]
  | _ =>
    simp [Confined, Relation.switches] at he ⊢
    grind

theorem Introduces.confined (hK : Switch.IsClosed K) {y : Nat} (h : Introduces s y e e')
    (he : e.Confined K) : e'.Confined K := by
  cases h with
  | singleton on a =>
    have hnew := hK .singleton he.1
    simp only [Switch.introduces, List.forall_mem_cons] at hnew
    exact ⟨hnew.2.1, ⟨hnew.1, he.2⟩, by simp [Relation.switches], trivial, he.2⟩
  | powerSet on a b =>
    have hnew := hK .powerSet he.2.1.1
    simp [Confined, Relation.switches, Switch.introduces] at he hnew ⊢
    exact ⟨he.2, hnew, he.1.2⟩
  | bigIntersection on a f =>
    have hnew := hK .bigIntersection he.2.2.1
    simp [Confined, Relation.switches, Switch.introduces] at he hnew ⊢
    exact ⟨⟨he.2.2, hnew⟩, he.2.2, he.1⟩
  | omega on a =>
    have hnew := hK .omega he.2.2
    simp [Confined, Relation.switches, Switch.introduces] at he hnew ⊢
    exact ⟨⟨hnew.1, he.1⟩, he.1, ⟨hnew.2.1, hnew.2.2⟩, he.1⟩
  | comprehension on x d p b =>
    simp [Confined, Relation.switches, confined_renameFree] at he ⊢
    grind
  | _ =>
    simp [Confined, Relation.switches] at he ⊢
    grind

/-- Unfolding does not leave a set of switches that is closed. -/
theorem Unfolds.confined (hK : Switch.IsClosed K) (h : Unfolds s e t e' t')
    (he : e.Confined K) : e'.Confined K := by
  induction h with
  | refl e t => exact he
  | trans _ _ ih₁ ih₂ => exact ih₂ (ih₁ he)
  | rewrite h t => exact h.confined he
  | introduce h => exact h.confined hK he
  | negation _ ih | quantified q x _ ih => exact ih he
  | unary k _ ih => exact ⟨he.1, ih he.2⟩
  | connective c _ _ iha ihb => exact ⟨iha he.1, ihb he.2⟩
  | relation r _ _ iha ihb | binary k _ _ iha ihb | comprehension x _ _ iha ihb =>
    exact ⟨he.1, iha he.2.1, ihb he.2.2⟩

end Elimination

/-! ## Steps with the same results -/

namespace Unfolding

variable {α β : Type}

/-- Two sequences are the same if their second steps do the same with every result of the first. -/
theorem bind_congr_of_eq_some {x : Unfolding α} {f g : α → Unfolding β}
    (h : ∀ t a t₁, x t = some (a, t₁) → f a = g a) : x >>= f = x >>= g := by
  funext t
  change (x t).bind (fun p => f p.1 p.2) = (x t).bind (fun p => g p.1 p.2)
  cases hx : x t with
  | none => rfl
  | some p => exact congrFun (h t p.1 p.2 hx) p.2

/-- Where both steps have a result, it is the same one. -/
def Agrees (x y : Unfolding α) : Prop := ∀ t r r', x t = some r → y t = some r' → r = r'

theorem agrees_refl (x : Unfolding α) : Agrees x x := fun _ _ _ h h' =>
  Option.some.inj (h.symm.trans h')

theorem Agrees.bind {x y : Unfolding α} {f g : α → Unfolding β} (hxy : Agrees x y)
    (hfg : ∀ t a t₁, x t = some (a, t₁) → Agrees (f a) (g a)) : Agrees (x >>= f) (y >>= g) := by
  intro t r r' h h'
  obtain ⟨a, t₁, ha, h⟩ := bind_eq_some.1 h
  obtain ⟨a', t₁', ha', h'⟩ := bind_eq_some.1 h'
  cases hxy t _ _ ha ha'
  exact hfg t a t₁ ha t₁ r r' h h'

end Unfolding

namespace Elimination

open SetFormula.Expr Unfolding

variable {s s' : Switches} {e : Expr}

theorem descend_congr {step step' : Expr → Unfolding Expr} (h : ∀ a ∈ e.visited, step a = step' a) :
    descend step e = descend step' e := by
  cases e with
  | var i | constant c => rfl
  | relation r a b | connective c a b | binary k a b =>
    have ha := h a (by simp [visited])
    have hb := h b (by simp [visited])
    simp only [descend, mapChildren, ha, hb]
  | negation a | quantified q x a | unary k a | comprehension x d a =>
    have ha := h a (by simp [visited])
    simp only [descend, mapChildren, ha]

theorem descend_agrees {step step' : Expr → Unfolding Expr}
    (h : ∀ a ∈ e.visited, Agrees (step a) (step' a)) :
    Agrees (descend step e) (descend step' e) := by
  cases e with
  | var i | constant c => exact agrees_refl _
  | relation r a b | connective c a b | binary k a b =>
    have ha := h a (by simp [visited])
    have hb := h b (by simp [visited])
    exact ha.bind fun _ _ _ _ => hb.bind fun _ _ _ _ => agrees_refl _
  | negation a | quantified q x a | unary k a | comprehension x d a =>
    have ha := h a (by simp [visited])
    exact ha.bind fun _ _ _ _ => agrees_refl _

/-! ## The fourth pass -/

section Congr

variable (hagree : ∀ w, K w → s w = s' w)

include hagree

theorem targeted_congr (he : e.Confined K) : targeted s e = targeted s' e := by
  cases e with
  | unary k a => exact hagree _ he.1
  | binary k a b => exact hagree _ he.1
  | comprehension x d p => exact hagree _ he.1
  | _ => rfl

theorem targetedConstant_congr (he : e.Confined K) :
    targetedConstant s e = targetedConstant s' e := by
  cases e with
  | constant c => exact hagree _ he
  | _ => rfl

theorem unfoldSingleton_congr (he : e.Confined K) : unfoldSingleton s e = unfoldSingleton s' e := by
  unfold unfoldSingleton
  split
  · rw [hagree .singleton he.1]
  · rfl

variable (hK : Switch.IsClosed K)

include hK

theorem equalityOf_congr (left right : Expr) {term : Expr} (hterm : term.Confined K)
    (other : Expr) : equalityOf s left right term other = equalityOf s' left right term other := by
  unfold equalityOf
  split
  · -- the rule for the power set introduces `⊆`
    have hsubset : K .subset := hK .powerSet hterm.1 _ (by simp [Switch.introduces])
    rw [powerSetEquality, powerSetEquality, hagree .subset hsubset]
  · rfl
  · rfl

theorem equalityRule_congr {left right : Expr} (hleft : left.Confined K)
    (hright : right.Confined K) : equalityRule s left right = equalityRule s' left right := by
  rw [equalityRule, equalityRule, targeted_congr hagree hleft, targeted_congr hagree hright,
    equalityOf_congr hagree hK left right hleft right,
    equalityOf_congr hagree hK left right hright left]

omit hK in
theorem membershipRule_congr {left right : Expr} (hleft : left.Confined K)
    (hright : right.Confined K) : membershipRule s left right = membershipRule s' left right := by
  rw [membershipRule, membershipRule, targeted_congr hagree hleft, targeted_congr hagree hright]

/-- A rule that works on two operands after unfolding singletons depends on the relevant switches
only, if it does so on confined operands. -/
theorem unfoldSingletons_congr {rule rule' : Expr → Expr → Unfolding Expr} {a b : Expr}
    (ha : a.Confined K) (hb : b.Confined K)
    (hrule : ∀ a b : Expr, a.Confined K → b.Confined K → rule a b = rule' a b) :
    (do rule (← unfoldSingleton s a) (← unfoldSingleton s b)) =
      (do rule' (← unfoldSingleton s' a) (← unfoldSingleton s' b)) := by
  rw [← unfoldSingleton_congr hagree ha, ← unfoldSingleton_congr hagree hb]
  refine bind_congr_of_eq_some fun t a' t₁ ha' => bind_congr_of_eq_some fun t b' t₁ hb' => ?_
  exact hrule a' b' ((unfoldSingleton_unfolds ha').confined hK ha)
    ((unfoldSingleton_unfolds hb').confined hK hb)

theorem operatorRule_congr (he : e.Confined K) : operatorRule s e = operatorRule s' e := by
  unfold operatorRule
  split
  · exact unfoldSingleton_congr hagree he
  · exact unfoldSingletons_congr hagree hK he.2.1 he.2.2 fun _ _ => equalityRule_congr hagree hK
  · exact unfoldSingletons_congr hagree hK he.2.1 he.2.2 fun _ _ => membershipRule_congr hagree
  · rfl

theorem operators_congr (depth : Nat) (he : e.Confined K) :
    operators s depth e = operators s' depth e := by
  induction depth generalizing e with
  | zero => rfl
  | succ depth ih =>
    rw [operators_succ, operators_succ, ← operatorRule_congr hagree hK he]
    refine bind_congr_of_eq_some fun t e₁ t₁ hrule => descend_congr fun a ha => ?_
    exact ih (((operatorRule_unfolds hrule).confined hK he).of_mem_visited ha)

omit hagree hK in
/-- If the fourth pass is left out, then it would change nothing with enough levels. -/
theorem operators_of_operatorsIfOn {depth : Nat} {t : Taken} {r : Expr × Taken}
    (h : operatorsIfOn s depth e t = some r) :
    ∃ bound, ∀ depth', bound ≤ depth' → operators s depth' e t = some r := by
  unfold operatorsIfOn at h
  split at h
  · exact ⟨depth, fun depth' hle => operators_extends hle e t r h⟩
  · rename_i off
    cases h
    have hunfolded := isUnfolded_of_forall_not (targeted_eq_false_of_not_touches off) e
    exact ⟨e.height + 1, fun depth' hle => operators_of_isUnfolded hunfolded hle t⟩

theorem operatorsIfOn_agrees (depth depth' : Nat) (he : e.Confined K) :
    Agrees (operatorsIfOn s depth e) (operatorsIfOn s' depth' e) := by
  intro t r r' h h'
  obtain ⟨bound, hbound⟩ := operators_of_operatorsIfOn h
  obtain ⟨bound', hbound'⟩ := operators_of_operatorsIfOn h'
  have hr := hbound (max bound bound') (Nat.le_max_left _ _)
  have hr' := hbound' (max bound bound') (Nat.le_max_right _ _)
  rw [operators_congr hagree hK _ he] at hr
  exact Option.some.inj (hr.symm.trans hr')

/-! ## The last pass -/

theorem equalityOfConstant_agrees (depth depth' : Nat) (e : Expr) {term other : Expr}
    (hterm : term.Confined K) (hother : other.Confined K) :
    Agrees (equalityOfConstant s depth e term other)
      (equalityOfConstant s' depth' e term other) := by
  unfold equalityOfConstant
  split
  · rw [hagree .emptySet hterm]
    exact agrees_refl _
  · rw [hagree .omega hterm]
    split
    · refine (agrees_refl _).bind fun t e₁ t₁ hω => operatorsIfOn_agrees hagree hK _ _ ?_
      have hnew := hK .omega hterm
      cases hω
      simp [Confined, Relation.switches, Switch.introduces] at hnew ⊢
      exact ⟨⟨hnew.1, hother⟩, hother, ⟨hnew.2.1, hnew.2.2⟩, hother⟩
    · exact agrees_refl _
  · exact agrees_refl _

theorem constantRule_agrees (depth depth' : Nat) (he : e.Confined K) :
    Agrees (constantRule s depth e) (constantRule s' depth' e) := by
  unfold constantRule
  split
  · obtain ⟨-, ha, hb⟩ := he
    rw [constantEqualityRule_eq, constantEqualityRule_eq, targetedConstant_congr hagree hb]
    split
    · exact equalityOfConstant_agrees hagree hK _ _ _ hb ha
    · exact equalityOfConstant_agrees hagree hK _ _ _ ha hb
  · obtain ⟨-, ha, hb⟩ := he
    rw [constantMembershipRule, constantMembershipRule, targetedConstant_congr hagree ha,
      targetedConstant_congr hagree hb]
    exact agrees_refl _
  · exact agrees_refl _

theorem constants_agrees (depth depth' : Nat) (he : e.Confined K) :
    Agrees (constants s depth e) (constants s' depth' e) := by
  induction depth generalizing depth' e with
  | zero => exact fun _ _ _ h => nomatch h
  | succ depth ih =>
    cases depth' with
    | zero => exact fun _ _ _ _ h => nomatch h
    | succ depth' =>
      rw [constants_succ, constants_succ]
      refine (constantRule_agrees hagree hK depth depth' he).bind fun t e₁ t₁ hrule => ?_
      refine descend_agrees fun a ha => ih depth' ?_
      exact ((constantRule_unfolds hrule).confined hK he).of_mem_visited ha

omit hagree hK in
/-- If the last pass is left out, then it would change nothing with enough levels. -/
theorem constants_of_run {depth : Nat} {t : Taken} {r : Expr × Taken}
    (h : Pass.run s depth .constants e t = some r) :
    ∃ depth', constants s depth' e t = some r := by
  rw [Pass.run] at h
  split at h
  · exact ⟨depth, h⟩
  · rename_i off
    cases h
    have hunfolded := isUnfolded_of_forall_not (targetedConstant_eq_false_of_not_touches off) e
    exact ⟨e.height + 1, constants_of_isUnfolded hunfolded (Nat.lt_succ_self _) t⟩

end Congr

end Elimination

/-! ## Passes -/

namespace Pass

open Elimination Unfolding

variable {s s' : Switches} {depth depth' : Nat} {e : Expr} {t : Taken} {r r' : Expr × Taken}

theorem run_negatedRelations_eq_some (h : run s depth negatedRelations e t = some r) :
    r = (if s .negatedRelations then Elimination.negatedRelations e else e, t) := by
  rw [run] at h
  split at h
  · rename_i on
    obtain ⟨⟨⟩, t₁, ht, h⟩ := bind_eq_some.1 h
    obtain ⟨-, rfl⟩ := requireHeight_eq_some.1 ht
    rw [if_pos on]
    exact (Option.some.inj h).symm
  · rename_i off
    rw [if_neg off]
    exact (Option.some.inj h).symm

theorem run_subset_eq_some (h : run s depth subset e t = some r) :
    r = if s .subset then subsets e t else (e, t) := by
  rw [run] at h
  split at h
  · rename_i on
    obtain ⟨⟨⟩, t₁, ht, h⟩ := bind_eq_some.1 h
    obtain ⟨-, rfl⟩ := requireHeight_eq_some.1 ht
    rw [if_pos on]
    exact (Option.some.inj h).symm
  · rename_i off
    rw [if_neg off]
    exact (Option.some.inj h).symm

/-- The first pass depends on its switch only if there are letters. -/
theorem run_letters_agrees
    (hagree : ∀ i ∈ e.occurrences, isLetter i → s .letters = s' .letters)
    (h : run s depth letters e (Taken.ofExpr e) = some r)
    (h' : run s' depth' letters e (Taken.ofExpr e) = some r') : r = r' := by
  rw [run] at h h'
  by_cases hempty : (lettersOf (Taken.ofExpr e)).isEmpty
  · have hkept {c : Bool} {d : Nat} {r : Expr × Taken}
        (h : (if c then Elimination.letters d e else pure e) (Taken.ofExpr e) = some r) :
        r = (e, Taken.ofExpr e) := by
      split at h
      · rw [letters_apply, if_pos hempty] at h
        exact (Option.some.inj h).symm
      · exact (Option.some.inj h).symm
    rw [hkept h, hkept h']
  · obtain ⟨a, ha⟩ := List.exists_mem_of_ne_nil _ (mt List.isEmpty_iff.2 hempty)
    obtain ⟨hmem, hletter⟩ := mem_lettersOf.1 ha
    rw [Taken.ofExpr, Taken.mem_ofList, List.mem_map] at hmem
    obtain ⟨i, hi, rfl⟩ := hmem
    rw [hagree i hi hletter] at h
    split at h
    · rename_i on
      rw [if_pos on, letters_apply, if_neg hempty] at h'
      rw [letters_apply, if_neg hempty] at h
      split at h <;> split at h' <;> simp_all
    · rename_i off
      rw [if_neg off] at h'
      exact Option.some.inj (h.symm.trans h')

theorem run_agrees (hagree : ∀ w, K w → s w = s' w) (hK : Switch.IsClosed K) (he : e.Confined K)
    {p : Pass} (hp : p ≠ letters) : Agrees (p.run s depth e) (p.run s' depth' e) := by
  intro t r r' h h'
  cases p with
  | letters => exact absurd rfl hp
  | negatedRelations =>
    rw [run_negatedRelations_eq_some h, run_negatedRelations_eq_some h']
    by_cases hrelevant : K .negatedRelations
    · rw [hagree _ hrelevant]
    · -- no relation is negated, so the pass changes nothing
      have hnone : e.relationsAmong (!·.isNegated) := he.relationsAmong fun r hr => by
        cases r <;> simp_all [Relation.switches, Relation.isNegated]
      rw [negatedRelations_of_relationsAmong hnone, ite_self, ite_self]
  | subset =>
    rw [run_subset_eq_some h, run_subset_eq_some h']
    by_cases hrelevant : K .subset
    · rw [hagree _ hrelevant]
    · have hnone : e.relationsAmong (· != .subset) := he.relationsAmong fun r hr => by
        cases r <;> simp_all [Relation.switches]
      rw [subsets_of_relationsAmong hnone, ite_self, ite_self]
  | operators => exact operatorsIfOn_agrees hagree hK depth depth' he t r r' h h'
  | constants =>
    obtain ⟨d, hd⟩ := constants_of_run h
    obtain ⟨d', hd'⟩ := constants_of_run h'
    exact constants_agrees hagree hK d d' he t r r' hd hd'

theorem runAll_agrees (hagree : ∀ w, K w → s w = s' w) (hK : Switch.IsClosed K)
    {ps : List Pass} (hps : letters ∉ ps) (he : e.Confined K) {u u' : Expr}
    (h : (runAll s depth ps e t).2 = some u) (h' : (runAll s' depth' ps e t).2 = some u') :
    u = u' := by
  induction ps generalizing e t with
  | nil => exact Option.some.inj (h.symm.trans h')
  | cons p ps ih =>
    rw [List.mem_cons, not_or] at hps
    rw [runAll_cons_snd, Option.bind_eq_some_iff] at h h'
    obtain ⟨⟨e₁, t₁⟩, hrun, h⟩ := h
    obtain ⟨⟨e₁', t₁'⟩, hrun', h'⟩ := h'
    cases run_agrees hagree hK he (Ne.symm hps.1) t _ _ hrun hrun'
    exact ih hps.2 ((run_unfolds (Ne.symm hps.1) hrun).confined hK he) h h'

end Pass

open SetFormula.Expr Elimination

/-- Two settings that agree on the relevant switches have the same result, if both have one. -/
theorem eliminate_agrees {s s' : Switches} {depth depth' : Nat} {e u u' : Expr}
    (hagree : ∀ w, Relevant e w → s w = s' w) (h : eliminate s depth e = some u)
    (h' : eliminate s' depth' e = some u') : u = u' := by
  have hK : Switch.IsClosed (Relevant e) := fun _ hw _ => hw.introduced
  have hletters : ∀ i ∈ e.occurrences, isLetter i → s .letters = s' .letters := by
    intro i hi hletter
    obtain ⟨v, hv, hindex⟩ := List.mem_filterMap.1 hi
    cases v with
    | var j =>
      cases hindex
      exact hagree _ (.occurs hv (by simp [switches, hletter]))
    | _ => cases hindex
  rw [eliminate, eliminationSteps, Pass.all, Pass.runAll_cons_snd, Option.bind_eq_some_iff] at h h'
  obtain ⟨⟨e₁, t₁⟩, hrun, h⟩ := h
  obtain ⟨⟨e₁', t₁'⟩, hrun', h'⟩ := h'
  cases Pass.run_letters_agrees hletters hrun hrun'
  have he₁ : e₁.Confined (Relevant e) := by
    rw [(run_letters_eq_some hrun).1, confined_rename]
    exact confined_of_walk fun v hv w hw => .occurs hv hw
  exact Pass.runAll_agrees hagree hK (by decide) he₁ h h'

/-- **Irrelevant switches have no effect.** Two settings of the switches that agree on those that are
relevant for a tree give the same result, with the same variables: the same from some number of
levels on, and never two different ones. -/
theorem irrelevant_switches (s s' : Switches) (e : Expr)
    (hagree : ∀ w, Relevant e w → s w = s' w) :
    (∃ u bound, ∀ depth, bound ≤ depth →
      eliminate s depth e = some u ∧ eliminate s' depth e = some u) ∧
    ∀ depth depth' u u', eliminate s depth e = some u → eliminate s' depth' e = some u' →
      u = u' := by
  refine ⟨?_, fun depth depth' u u' => eliminate_agrees hagree⟩
  have hweight : e.weight < e.weight + 1 := Nat.lt_succ_self _
  obtain ⟨u, hu⟩ := Pass.runAll_succeeds (s := s) Pass.all hweight (Taken.ofExpr e)
  obtain ⟨u', hu'⟩ := Pass.runAll_succeeds (s := s') Pass.all hweight (Taken.ofExpr e)
  cases eliminate_agrees hagree hu hu'
  exact ⟨u, e.weight + 1, fun depth hle =>
    ⟨Pass.runAll_extends Pass.all hle hu, Pass.runAll_extends Pass.all hle hu'⟩⟩

/-- The switches that matter for `x ⊈ {∅}`. -/
def singletonSwitches : List Switch :=
  [.letters, .negatedRelations, .subset, .singleton, .powerSet, .comprehension, .emptySet]

/-- The formula `x ⊈ {∅}`. -/
def notSubsetSingleton : Expr :=
  relation .notSubset (var (indexOfLetter 'x')) (unary .singleton empty)

/-- The power set and the comprehension matter for a singleton, but the union does not. -/
theorem irrelevant_switches_singleton :
    (∀ w, Relevant notSubsetSingleton w → Switches.allOn w = Switches.ofList singletonSwitches w) ∧
      ∃ u, eliminate .allOn 40 notSubsetSingleton = some u ∧
        eliminate (.ofList singletonSwitches) 40 notSubsetSingleton = some u := by
  have hagree : ∀ w, Relevant notSubsetSingleton w →
      Switches.allOn w = Switches.ofList singletonSwitches w := by
    intro w hw
    have hmem : w ∈ singletonSwitches := by
      induction hw with
      | occurs hu hw =>
        have hnodes : ∀ u ∈ notSubsetSingleton.walk, ∀ w ∈ u.switches, w ∈ singletonSwitches := by
          decide
        exact hnodes _ hu _ hw
      | introduced _ hw ih =>
        have hclosed : ∀ w ∈ singletonSwitches, ∀ w' ∈ w.introduces, w' ∈ singletonSwitches := by
          decide
        exact hclosed _ ih _ hw
    exact (List.contains_iff_mem.2 hmem).symm
  have hsome : (eliminate .allOn 40 notSubsetSingleton).isSome := by decide +kernel
  have hsome' : (eliminate (.ofList singletonSwitches) 40 notSubsetSingleton).isSome := by
    decide +kernel
  obtain ⟨u, hu⟩ := Option.isSome_iff_exists.1 hsome
  obtain ⟨u', hu'⟩ := Option.isSome_iff_exists.1 hsome'
  cases (irrelevant_switches _ _ _ hagree).2 _ _ _ _ hu hu'
  exact ⟨hagree, u, hu, hu'⟩

end SetFormula
