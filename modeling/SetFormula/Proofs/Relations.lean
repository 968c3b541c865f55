import SetFormula.Proofs.Unfolds

/-!
# The relations that are left

Which relations occur in a tree (`Expr.relationsAmong`) and how the passes change that.

* After the second pass no relation is negated (`negatedRelations_relationsAmong`), and the third
  leaves what it finds but for `⊆` (`subsets_relationsAmong`).
* The later rules introduce `=` and `∈` only: the rule for the power set introduces `⊆`, but
  eliminates it again if its switch is on. So a pass keeps within every set of relations that admits
  these (`operators_relationsAmong`, `constants_relationsAmong`).
-/

namespace SetFormula

/-- Whether the relation belongs to the primitive vocabulary. -/
def Relation.isBasic : Relation → Bool
  | equality | element => true
  | _ => false

namespace Expr

/-- Whether all relations in the tree are allowed. -/
def relationsAmong (allowed : Relation → Bool) : Expr → Bool
  | var _ | constant _ => true
  | relation r a b => allowed r && (a.relationsAmong allowed && b.relationsAmong allowed)
  | negation a | quantified _ _ a | unary _ a => a.relationsAmong allowed
  | connective _ a b | binary _ a b | comprehension _ a b =>
    a.relationsAmong allowed && b.relationsAmong allowed

/-- Whether `=` and `∈` are the only relations in the tree. -/
abbrev isBasic (e : Expr) : Bool := e.relationsAmong Relation.isBasic

theorem relationsAmong_of_forall {allowed : Relation → Bool} (h : ∀ r, allowed r) (e : Expr) :
    e.relationsAmong allowed := by
  induction e <;> simp_all [relationsAmong]

theorem relationsAmong_mono {allowed allowed' : Relation → Bool}
    (h : ∀ r, allowed r → allowed' r) {e : Expr} (he : e.relationsAmong allowed) :
    e.relationsAmong allowed' := by
  induction e <;> simp_all [relationsAmong]

@[simp] theorem relationsAmong_renameFree (allowed : Relation → Bool) (x y : Nat) (e : Expr) :
    (e.renameFree x y).relationsAmong allowed = e.relationsAmong allowed := by
  induction e with
  | var i =>
    rw [renameFree]
    split <;> rfl
  | quantified q z a ih =>
    rw [renameFree]
    split <;> simp_all [relationsAmong]
  | comprehension z d p ihd ihp =>
    rw [renameFree]
    split <;> simp_all [relationsAmong]
  | _ => simp_all [renameFree, relationsAmong]

end Expr

namespace Elimination

open SetFormula.Expr

variable {s : Switches} {allowed : Relation → Bool} {e e' : Expr} {t t' : Taken}

/-! ## Negated relations and subset -/

theorem negatedRelations_relationsAmong (e : Expr) :
    (negatedRelations e).relationsAmong (!·.isNegated) := by
  induction e with
  | relation r a b iha ihb =>
    rw [negatedRelations]
    cases r <;> simp_all [relationsAmong, Relation.isNegated, Relation.positive]
  | _ => simp_all [negatedRelations, relationsAmong]

/-- Eliminating subset leaves the other relations and `∈`. -/
theorem subsets_relationsAmong (hmem : allowed .element) {e : Expr}
    (he : e.relationsAmong fun r => r == .subset || allowed r) (t : Taken) :
    (subsets e t).1.relationsAmong allowed := by
  induction e generalizing t with
  | var i => rfl
  | constant c => rfl
  | relation r a b iha ihb =>
    simp only [relationsAmong, Bool.and_eq_true] at he
    by_cases hr : r = .subset
    · subst hr
      change ((allowed .element && (true && (subsets a _).1.relationsAmong allowed)) &&
        (allowed .element && (true && (subsets b _).1.relationsAmong allowed))) = true
      simp only [hmem, iha he.2.1, ihb he.2.2, Bool.and_self]
    · have hallowed : allowed r := by simpa [hr] using he.1
      have hrun : (subsets (.relation r a b) t).1 =
          .relation r (subsets a t).1 (subsets b (subsets a t).2).1 := by
        cases r with
        | subset => exact absurd rfl hr
        | _ => rfl
      rw [hrun]
      simp only [relationsAmong, hallowed, iha he.2.1, ihb he.2.2, Bool.and_self]
  | negation a ih | quantified q x a ih | unary k a ih => exact ih he t
  | connective c a b iha ihb | binary k a b iha ihb | comprehension x a b iha ihb =>
    simp only [relationsAmong, Bool.and_eq_true] at he
    exact Bool.and_eq_true_iff.2 ⟨iha he.1 t, ihb he.2 _⟩

/-! ## Operators and comprehensions -/

/-- The relations that the later rules introduce are allowed: `=` and `∈`, and `⊆` unless it is
eliminated. -/
structure Admits (s : Switches) (allowed : Relation → Bool) : Prop where
  equality : allowed .equality
  element : allowed .element
  subset : s .subset ∨ allowed .subset

theorem admits_isBasic (on : s .subset) : Admits s Relation.isBasic := ⟨rfl, rfl, .inl on⟩

theorem unfoldSingleton_relationsAmong (hs : Admits s allowed) (he : e.relationsAmong allowed)
    (h : unfoldSingleton s e t = some (e', t')) : e'.relationsAmong allowed := by
  unfold unfoldSingleton at h
  split at h
  · split at h
    · cases h
      simpa [relationsAmong, hs.equality] using he
    · cases h
      exact he
  · cases h
    exact he

theorem powerSetEquality_relationsAmong (hs : Admits s allowed) {a b : Expr}
    (ha : a.relationsAmong allowed) (hb : b.relationsAmong allowed)
    (h : powerSetEquality s a b t = some (e', t')) : e'.relationsAmong allowed := by
  obtain ⟨y, t₁, hy, h⟩ := Unfolding.bind_eq_some.1 h
  split at h
  · obtain ⟨rfl, -⟩ := Unfolding.ofState_eq_some.1 h
    refine subsets_relationsAmong hs.element ?_ t₁
    have hmore (r : Relation) (hr : allowed r) : r == .subset || allowed r := by simp [hr]
    simp [relationsAmong, hs.element, relationsAmong_mono hmore ha, relationsAmong_mono hmore hb]
  · rename_i off
    have hsub : allowed .subset := hs.subset.resolve_left off
    cases h
    simp [relationsAmong, hs.element, hsub, ha, hb]

theorem equalityOf_relationsAmong (hs : Admits s allowed) {left right term other : Expr}
    (hleft : left.relationsAmong allowed) (hright : right.relationsAmong allowed)
    (hterm : term.relationsAmong allowed) (hother : other.relationsAmong allowed)
    (h : equalityOf s left right term other t = some (e', t')) : e'.relationsAmong allowed := by
  unfold equalityOf at h
  split at h
  · rename_i a
    have ha : a.relationsAmong allowed := hterm
    exact powerSetEquality_relationsAmong hs ha hother h
  · simp only [relationsAmong, Bool.and_eq_true] at hterm
    unfold comprehensionEquality at h
    split at h <;> cases h <;> simp [relationsAmong, hs.element, hterm, hother]
  · cases h
    simp [relationsAmong, hs.element, hleft, hright]

theorem equalityRule_relationsAmong (hs : Admits s allowed) {left right : Expr}
    (hleft : left.relationsAmong allowed) (hright : right.relationsAmong allowed)
    (h : equalityRule s left right t = some (e', t')) : e'.relationsAmong allowed := by
  unfold equalityRule at h
  split at h
  · exact equalityOf_relationsAmong hs hleft hright hleft hright h
  · split at h
    · exact equalityOf_relationsAmong hs hleft hright hright hleft h
    · cases h
      simp [relationsAmong, hs.equality, hleft, hright]

theorem membershipRule_relationsAmong (hs : Admits s allowed) {left right : Expr}
    (hleft : left.relationsAmong allowed) (hright : right.relationsAmong allowed)
    (h : membershipRule s left right t = some (e', t')) : e'.relationsAmong allowed := by
  have hmem := hs.element
  have heq := hs.equality
  unfold membershipRule at h
  split at h
  · unfold memberOf at h
    split at h <;> cases h <;> simp_all [relationsAmong]
  · split at h <;> cases h <;> simp [relationsAmong, hmem, heq, hleft, hright]

/-- A rule for operators introduces admitted relations only. -/
theorem operatorRule_relationsAmong (hs : Admits s allowed) (he : e.relationsAmong allowed)
    (h : operatorRule s e t = some (e', t')) : e'.relationsAmong allowed := by
  unfold operatorRule at h
  split at h
  · exact unfoldSingleton_relationsAmong hs he h
  · simp only [relationsAmong, Bool.and_eq_true] at he
    obtain ⟨a, t₁, ha, h⟩ := Unfolding.bind_eq_some.1 h
    obtain ⟨b, t₂, hb, h⟩ := Unfolding.bind_eq_some.1 h
    exact equalityRule_relationsAmong hs (unfoldSingleton_relationsAmong hs he.2.1 ha)
      (unfoldSingleton_relationsAmong hs he.2.2 hb) h
  · simp only [relationsAmong, Bool.and_eq_true] at he
    obtain ⟨a, t₁, ha, h⟩ := Unfolding.bind_eq_some.1 h
    obtain ⟨b, t₂, hb, h⟩ := Unfolding.bind_eq_some.1 h
    exact membershipRule_relationsAmong hs (unfoldSingleton_relationsAmong hs he.2.1 ha)
      (unfoldSingleton_relationsAmong hs he.2.2 hb) h
  · cases h
    exact he

theorem Below.relationsAmong {R : Expr → Expr → Prop} (h : Below R e e')
    (hR : ∀ a a', R a a' → a.relationsAmong allowed → a'.relationsAmong allowed)
    (he : e.relationsAmong allowed) : e'.relationsAmong allowed := by
  cases h with
  | var i | constant c => exact he
  | negation ha | quantified q x ha | unary k ha =>
    have ha' := hR _ _ ha
    exact ha' he
  | relation r ha hb =>
    simp only [Expr.relationsAmong, Bool.and_eq_true] at he ⊢
    exact ⟨he.1, hR _ _ ha he.2.1, hR _ _ hb he.2.2⟩
  | connective c ha hb | binary k ha hb =>
    simp only [Expr.relationsAmong, Bool.and_eq_true] at he ⊢
    exact ⟨hR _ _ ha he.1, hR _ _ hb he.2⟩
  | comprehension x d hp =>
    simp only [Expr.relationsAmong, Bool.and_eq_true] at he ⊢
    exact ⟨he.1, hR _ _ hp he.2⟩

theorem operators_relationsAmong (hs : Admits s allowed) {depth : Nat}
    (he : e.relationsAmong allowed) (h : operators s depth e t = some (e', t')) :
    e'.relationsAmong allowed := by
  induction depth generalizing e e' t t' with
  | zero => cases h
  | succ depth ih =>
    rw [operators_succ] at h
    obtain ⟨e₁, t₁, hrule, h⟩ := Unfolding.bind_eq_some.1 h
    refine (descend_below h).relationsAmong ?_ (operatorRule_relationsAmong hs he hrule)
    rintro a a' ⟨t, t', hstep⟩ ha
    exact ih ha hstep

theorem operatorsIfOn_relationsAmong (hs : Admits s allowed) {depth : Nat}
    (he : e.relationsAmong allowed) (h : operatorsIfOn s depth e t = some (e', t')) :
    e'.relationsAmong allowed := by
  unfold operatorsIfOn at h
  split at h
  · exact operators_relationsAmong hs he h
  · cases h
    exact he

/-! ## Constants -/

theorem constantEqualityRule_relationsAmong (hs : Admits s allowed) {depth : Nat}
    {left right : Expr} (hleft : left.relationsAmong allowed) (hright : right.relationsAmong allowed)
    (h : constantEqualityRule s depth left right t = some (e', t')) :
    e'.relationsAmong allowed := by
  rcases constantEqualityRule_cases h with ⟨rfl, -, -, -⟩ | ⟨c, other, hsides, hrule⟩
  · simp [relationsAmong, hs.equality, hleft, hright]
  · have hother : other.relationsAmong allowed := by
      rcases hsides with ⟨-, rfl⟩ | ⟨-, rfl⟩ <;> assumption
    rcases hrule with ⟨rfl, -, h⟩ | ⟨rfl, -, h⟩
    · cases h
      simp [relationsAmong, hs.element, hother]
    · obtain ⟨e₁, t₁, hω, h⟩ := Unfolding.bind_eq_some.1 h
      cases hω
      refine operatorsIfOn_relationsAmong hs ?_ h
      simp [relationsAmong, hs.element, hother]

theorem constantRule_relationsAmong (hs : Admits s allowed) {depth : Nat}
    (he : e.relationsAmong allowed) (h : constantRule s depth e t = some (e', t')) :
    e'.relationsAmong allowed := by
  cases e with
  | relation r a b =>
    simp only [relationsAmong, Bool.and_eq_true] at he
    cases r with
    | equality => exact constantEqualityRule_relationsAmong hs he.2.1 he.2.2 h
    | element =>
      change constantMembershipRule s a b t = _ at h
      unfold constantMembershipRule at h
      split at h
      · cases h
        simp [relationsAmong, hs.element, hs.equality, he]
      · split at h <;> cases h <;> simp [relationsAmong, hs.element, hs.equality, he]
    | _ =>
      cases h
      simp [relationsAmong, he]
  | _ =>
    cases h
    exact he

theorem constants_relationsAmong (hs : Admits s allowed) {depth : Nat}
    (he : e.relationsAmong allowed) (h : constants s depth e t = some (e', t')) :
    e'.relationsAmong allowed := by
  induction depth generalizing e e' t t' with
  | zero => cases h
  | succ depth ih =>
    rw [constants_succ] at h
    obtain ⟨e₁, t₁, hrule, h⟩ := Unfolding.bind_eq_some.1 h
    refine (descend_below h).relationsAmong ?_ (constantRule_relationsAmong hs he hrule)
    rintro a a' ⟨t, t', hstep⟩ ha
    exact ih ha hstep

end Elimination

/-! ## Passes -/

namespace Pass

open Elimination

variable {s : Switches} {allowed : Relation → Bool} {depth : Nat} {e e' : Expr} {t t' : Taken}

theorem run_negatedRelations_relationsAmong (on : s .negatedRelations)
    (h : run s depth negatedRelations e t = some (e', t')) : e'.relationsAmong (!·.isNegated) := by
  rw [run, if_pos on] at h
  obtain ⟨⟨⟩, t₁, -, h⟩ := Unfolding.bind_eq_some.1 h
  cases h
  exact negatedRelations_relationsAmong e

theorem run_subset_relationsAmong (on : s .subset) (hmem : allowed .element)
    (he : e.relationsAmong fun r => r == .subset || allowed r)
    (h : run s depth subset e t = some (e', t')) : e'.relationsAmong allowed := by
  rw [run, if_pos on] at h
  obtain ⟨⟨⟩, t₁, -, h⟩ := Unfolding.bind_eq_some.1 h
  obtain ⟨rfl, -⟩ := Unfolding.ofState_eq_some.1 h
  exact subsets_relationsAmong hmem he t₁

theorem run_subset_keeps_relationsAmong (hmem : allowed .element) (he : e.relationsAmong allowed)
    (h : run s depth subset e t = some (e', t')) : e'.relationsAmong allowed := by
  by_cases on : s .subset
  · refine run_subset_relationsAmong on hmem (Expr.relationsAmong_mono (fun r hr => ?_) he) h
    rw [hr, Bool.or_true]
  · rw [run, if_neg on] at h
    cases h
    exact he

theorem run_constants_relationsAmong (hs : Admits s allowed) (he : e.relationsAmong allowed)
    (h : run s depth constants e t = some (e', t')) : e'.relationsAmong allowed := by
  rw [run] at h
  split at h
  · exact constants_relationsAmong hs he h
  · cases h
    exact he

end Pass

end SetFormula
