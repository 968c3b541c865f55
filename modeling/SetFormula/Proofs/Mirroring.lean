import SetFormula.Proofs.MatchedTrees
import SetFormula.Proofs.PassSequences

/-!
# Two runs in lockstep

Run a pass on two trees that differ in their variables only. The two runs take the same rules at the
same places, but the numbers they draw may differ.

* A `Pairing` pairs numbers that are taken in the first run with numbers that are taken in the
  second, one to one. When both runs draw a number, the two are paired too (`Pairing.draw`), so
  pairings grow.
* `Mirrors P m m' Q` says that the second run does what the first one does: from the supplies of
  `P`, if the first step returns then so does the second, with results that `Q` relates for a larger
  pairing. It is kept by sequencing (`Mirrors.bind`).
* Every rule mirrors itself on matched trees, and so does every pass but the first
  (`Pass.run_mirrors`, `Pass.runList_mirrors`).
-/

namespace SetFormula

/-! ## Pairings -/

/-- A one-to-one correspondence between numbers that are taken on the left and numbers that are
taken on the right. -/
structure Pairing where
  pairs : Nat → Nat → Prop
  left : Taken
  right : Taken
  biUnique : Relator.BiUnique pairs
  mem_left : ∀ {i j : Nat}, pairs i j → (i : Int) ∈ left
  mem_right : ∀ {i j : Nat}, pairs i j → (j : Int) ∈ right

namespace Pairing

/-- A larger pairing has more pairs. -/
instance : Preorder Pairing where
  le P P' := ∀ i j, P.pairs i j → P'.pairs i j
  le_refl _ _ _ h := h
  le_trans _ _ _ h h' i j hij := h' i j (h i j hij)

/-- The trees differ in variables only, and corresponding variables are paired. -/
abbrev Matched (P : Pairing) (e e' : Expr) : Prop := e.Matched P.pairs e'

theorem Matched.mono {P P' : Pairing} {e e' : Expr} (h : P.Matched e e') (hle : P ≤ P') :
    P'.Matched e e' :=
  Expr.Matched.mono hle h

/-- Both sides draw a number, and the two are paired. -/
def draw (P : Pairing) : Pairing where
  pairs i j := P.pairs i j ∨ (i = P.left.fresh.1 ∧ j = P.right.fresh.1)
  left := P.left.fresh.2
  right := P.right.fresh.2
  biUnique := by
    have hleft {i j : Nat} (h : P.pairs i j) : i ≠ P.left.fresh.1 := by
      rintro rfl
      exact P.left.fresh_notMem (P.mem_left h)
    have hright {i j : Nat} (h : P.pairs i j) : j ≠ P.right.fresh.1 := by
      rintro rfl
      exact P.right.fresh_notMem (P.mem_right h)
    constructor
    · rintro i k j (h | ⟨rfl, rfl⟩) (h' | ⟨rfl, hj⟩)
      · exact P.biUnique.1 h h'
      · exact absurd hj (hright h)
      · exact absurd rfl (hright h')
      · rfl
    · rintro i j k (h | ⟨rfl, rfl⟩) (h' | ⟨hi, rfl⟩)
      · exact P.biUnique.2 h h'
      · exact absurd hi (hleft h)
      · exact absurd rfl (hleft h')
      · rfl
  mem_left := by
    rintro i j (h | ⟨rfl, -⟩)
    · exact Taken.mem_fresh.2 (.inr (P.mem_left h))
    · exact Taken.mem_fresh.2 (.inl rfl)
  mem_right := by
    rintro i j (h | ⟨-, rfl⟩)
    · exact Taken.mem_fresh.2 (.inr (P.mem_right h))
    · exact Taken.mem_fresh.2 (.inl rfl)

theorem le_draw (P : Pairing) : P ≤ P.draw := fun _ _ h => .inl h

end Pairing

/-! ## Mirrored steps -/

/-- From the supplies of `P`, whenever the first step returns, the second one does, and the results
are related for a pairing of the supplies afterwards. -/
def Mirrors {α : Type} (P : Pairing) (m m' : Unfolding α) (Q : Pairing → α → α → Prop) : Prop :=
  ∀ a t, m P.left = some (a, t) →
    ∃ P', P ≤ P' ∧ P'.left = t ∧ ∃ a', m' P.right = some (a', P'.right) ∧ Q P' a a'

section Steps

variable {α β : Type} {P : Pairing} {Q : Pairing → α → α → Prop} {S : Pairing → β → β → Prop}

theorem mirrors_pure {a a' : α} (h : Q P a a') : Mirrors P (pure a) (pure a') Q := by
  intro b t hb
  obtain ⟨rfl, rfl⟩ := Unfolding.pure_eq_some.1 hb
  exact ⟨P, le_refl P, rfl, a', rfl, h⟩

theorem mirrors_giveUp : Mirrors P (Unfolding.giveUp : Unfolding α) Unfolding.giveUp Q := by
  intro b t hb
  cases hb

theorem mirrors_fresh : Mirrors P Unfolding.fresh Unfolding.fresh fun P' y y' => P'.pairs y y' := by
  intro y t hy
  obtain ⟨rfl, rfl⟩ := Unfolding.fresh_eq_some.1 hy
  exact ⟨P.draw, P.le_draw, rfl, P.right.fresh.1, rfl, .inr ⟨rfl, rfl⟩⟩

theorem Mirrors.bind {m m' : Unfolding α} {f f' : α → Unfolding β} (hm : Mirrors P m m' Q)
    (hf : ∀ P', P ≤ P' → ∀ a a', Q P' a a' → Mirrors P' (f a) (f' a') S) :
    Mirrors P (m >>= f) (m' >>= f') S := by
  intro b t hb
  obtain ⟨a, t₁, ha, hb⟩ := Unfolding.bind_eq_some.1 hb
  obtain ⟨P₁, hle₁, rfl, a', ha', hQ⟩ := hm a t₁ ha
  obtain ⟨P₂, hle₂, rfl, b', hb', hS⟩ := hf P₁ hle₁ a a' hQ b t hb
  exact ⟨P₂, le_trans hle₁ hle₂, rfl, b', Unfolding.bind_eq_some.2 ⟨a', P₁.right, ha', hb'⟩, hS⟩

end Steps

/-! ## Steps on trees -/

section Trees

variable {P : Pairing}

/-- A fresh variable is drawn and a tree is built with it. -/
theorem mirrors_drawn {build build' : Nat → Expr}
    (h : ∀ P', P ≤ P' → ∀ y y', P'.pairs y y' → P'.Matched (build y) (build' y')) :
    Mirrors P (do let y ← Unfolding.fresh; return build y)
      (do let y ← Unfolding.fresh; return build' y) Pairing.Matched :=
  mirrors_fresh.bind fun P' hle y y' hy => mirrors_pure (h P' hle y y' hy)

/-- One tree is rewritten and a tree is built from the result. -/
theorem mirrors_one {m m' : Unfolding Expr} {build build' : Expr → Expr}
    (hm : Mirrors P m m' Pairing.Matched)
    (h : ∀ P', P ≤ P' → ∀ a a', P'.Matched a a' → P'.Matched (build a) (build' a')) :
    Mirrors P (do let a ← m; return build a) (do let a ← m'; return build' a) Pairing.Matched :=
  hm.bind fun P' hle a a' ha => mirrors_pure (h P' hle a a' ha)

/-- Two trees are rewritten one after the other and a tree is built from the results. -/
theorem mirrors_two {m m' n n' : Unfolding Expr} {build build' : Expr → Expr → Expr}
    (hm : Mirrors P m m' Pairing.Matched) (hn : ∀ P', P ≤ P' → Mirrors P' n n' Pairing.Matched)
    (h : ∀ P', P ≤ P' → ∀ a a' b b', P'.Matched a a' → P'.Matched b b' →
      P'.Matched (build a b) (build' a' b')) :
    Mirrors P (do let a ← m; let b ← n; return build a b)
      (do let a ← m'; let b ← n'; return build' a b) Pairing.Matched :=
  hm.bind fun P₁ hle₁ a a' ha => (hn P₁ hle₁).bind fun P₂ hle₂ b b' hb =>
    mirrors_pure (h P₂ (le_trans hle₁ hle₂) a a' b b' (ha.mono hle₂) hb)

/-- A step that mirrors itself on matched trees. -/
def SelfMirroring (step : Expr → Unfolding Expr) : Prop :=
  ∀ (P : Pairing) (e e' : Expr), P.Matched e e' → Mirrors P (step e) (step e') Pairing.Matched

theorem SelfMirroring.mapChildren {step : Expr → Unfolding Expr} (hstep : SelfMirroring step) :
    SelfMirroring (Unfolding.mapChildren step) := by
  intro P e e' he
  cases he with
  | var hi => exact mirrors_pure (.var hi)
  | constant c => exact mirrors_pure (.constant c)
  | relation r ha hb =>
    exact mirrors_two (hstep _ _ _ ha) (fun P' hle => hstep _ _ _ (hb.mono hle))
      fun _ _ _ _ _ _ ha hb => .relation r ha hb
  | negation ha => exact mirrors_one (hstep _ _ _ ha) fun _ _ _ _ ha => .negation ha
  | connective c ha hb =>
    exact mirrors_two (hstep _ _ _ ha) (fun P' hle => hstep _ _ _ (hb.mono hle))
      fun _ _ _ _ _ _ ha hb => .connective c ha hb
  | quantified q hx ha =>
    exact mirrors_one (hstep _ _ _ ha) fun _ hle _ _ ha => .quantified q (hle _ _ hx) ha
  | unary k ha => exact mirrors_one (hstep _ _ _ ha) fun _ _ _ _ ha => .unary k ha
  | binary k ha hb =>
    exact mirrors_two (hstep _ _ _ ha) (fun P' hle => hstep _ _ _ (hb.mono hle))
      fun _ _ _ _ _ _ ha hb => .binary k ha hb
  | comprehension hx hd hp =>
    exact mirrors_two (hstep _ _ _ hd) (fun P' hle => hstep _ _ _ (hp.mono hle))
      fun _ hle _ _ _ _ hd hp => .comprehension (hle _ _ hx) hd hp

theorem SelfMirroring.descend {step : Expr → Unfolding Expr} (hstep : SelfMirroring step) :
    SelfMirroring (Elimination.descend step) := by
  intro P e e' he
  have hmap := hstep.mapChildren P e e' he
  cases he with
  | comprehension hx hd hp =>
    exact mirrors_one (hstep _ _ _ hp) fun _ hle _ _ hp =>
      .comprehension (hle _ _ hx) (hd.mono hle) hp
  | _ => exact hmap

end Trees

namespace Elimination

open SetFormula.Expr

variable {s : Switches} {P : Pairing}

/-! ## Negated relations and subset -/

theorem negatedRelations_matched {R : Nat → Nat → Prop} {e e' : Expr} (h : e.Matched R e') :
    (negatedRelations e).Matched R (negatedRelations e') := by
  induction h with
  | var hi => exact .var hi
  | constant c => exact .constant c
  | relation r _ _ iha ihb =>
    rw [negatedRelations, negatedRelations]
    split
    · exact .negation (.relation _ iha ihb)
    · exact .relation _ iha ihb
  | negation _ ih => exact .negation ih
  | connective c _ _ iha ihb => exact .connective c iha ihb
  | quantified q hx _ ih => exact .quantified q hx ih
  | unary k _ ih => exact .unary k ih
  | binary k _ _ iha ihb => exact .binary k iha ihb
  | comprehension hx _ _ ihd ihp => exact .comprehension hx ihd ihp

/-- A subset relation draws its variable before its operands are visited. -/
theorem ofState_subsets_sub (a b : Expr) :
    Unfolding.ofState (subsets (sub a b)) = do
      let y ← Unfolding.fresh
      let a ← Unfolding.ofState (subsets a)
      let b ← Unfolding.ofState (subsets b)
      return all y (imp (mem (var y) a) (mem (var y) b)) := rfl

theorem subsets_mirrors : SelfMirroring fun e => Unfolding.ofState (subsets e) := by
  intro P e e' he
  induction e generalizing P e' with
  | relation r a b iha ihb =>
    cases he with
    | relation _ ha hb =>
      cases r with
      | subset =>
        dsimp only
        rw [ofState_subsets_sub, ofState_subsets_sub]
        refine mirrors_fresh.bind fun P₁ hle₁ y y' hy => ?_
        have ha := ha.mono hle₁
        have hb := hb.mono hle₁
        refine mirrors_two (iha _ _ ha) (fun _ hle => ihb _ _ (hb.mono hle)) ?_
        intro P₂ hle₂ a₁ a₁' b₁ b₁' ha₁ hb₁
        have hy := hle₂ _ _ hy
        exact .quantified _ hy
          (.connective _ (.relation _ (.var hy) ha₁) (.relation _ (.var hy) hb₁))
      | _ =>
        exact mirrors_two (iha _ _ ha) (fun _ hle => ihb _ _ (hb.mono hle))
          fun _ _ _ _ _ _ ha hb => .relation _ ha hb
  | var i =>
    cases he with
    | var hi => exact mirrors_pure (.var hi)
  | constant c =>
    cases he with
    | constant => exact mirrors_pure (.constant c)
  | negation a ih =>
    cases he with
    | negation ha => exact mirrors_one (ih _ _ ha) fun _ _ _ _ ha => .negation ha
  | connective c a b iha ihb =>
    cases he with
    | connective _ ha hb =>
      exact mirrors_two (iha _ _ ha) (fun _ hle => ihb _ _ (hb.mono hle))
        fun _ _ _ _ _ _ ha hb => .connective c ha hb
  | quantified q x a ih =>
    cases he with
    | quantified _ hx ha =>
      exact mirrors_one (ih _ _ ha) fun _ hle _ _ ha => .quantified q (hle _ _ hx) ha
  | unary k a ih =>
    cases he with
    | unary _ ha => exact mirrors_one (ih _ _ ha) fun _ _ _ _ ha => .unary k ha
  | binary k a b iha ihb =>
    cases he with
    | binary _ ha hb =>
      exact mirrors_two (iha _ _ ha) (fun _ hle => ihb _ _ (hb.mono hle))
        fun _ _ _ _ _ _ ha hb => .binary k ha hb
  | comprehension x d p ihd ihp =>
    cases he with
    | comprehension hx hd hp =>
      exact mirrors_two (ihd _ _ hd) (fun _ hle => ihp _ _ (hp.mono hle))
        fun _ hle _ _ _ _ hd hp => .comprehension (hle _ _ hx) hd hp

/-! ## Operators and comprehensions -/

theorem targeted_eq {R : Nat → Nat → Prop} {e e' : Expr} (h : e.Matched R e') :
    targeted s e' = targeted s e := by
  cases h <;> rfl

theorem unfoldSingleton_mirrors : SelfMirroring (unfoldSingleton s) := by
  intro P e e' he
  have hsame := mirrors_pure (Q := Pairing.Matched) he
  cases he with
  | unary k ha =>
    cases k with
    | singleton =>
      simp only [unfoldSingleton]
      split
      · exact mirrors_drawn fun _ hle _ _ hy =>
          .comprehension hy (.unary _ (ha.mono hle)) (.relation _ (.var hy) (ha.mono hle))
      · exact hsame
    | _ => exact hsame
  | _ => exact hsame

section Pairs

variable {a b a' b' : Expr} (ha : P.Matched a a') (hb : P.Matched b b')

include ha hb

theorem sameMembers_mirrors : Mirrors P (sameMembers a b) (sameMembers a' b') Pairing.Matched :=
  mirrors_drawn fun _ hle _ _ hy =>
    .quantified _ hy (.connective _ (.relation _ (.var hy) (ha.mono hle))
      (.relation _ (.var hy) (hb.mono hle)))

theorem powerSetEquality_mirrors :
    Mirrors P (powerSetEquality s a b) (powerSetEquality s a' b') Pairing.Matched := by
  refine mirrors_fresh.bind fun P' hle y y' hy => ?_
  have hdefinition : P'.Matched (all y (iff (mem (var y) b) (sub (var y) a)))
      (all y' (iff (mem (var y') b') (sub (var y') a'))) :=
    .quantified _ hy (.connective _ (.relation _ (.var hy) (hb.mono hle))
      (.relation _ (.var hy) (ha.mono hle)))
  dsimp only
  split
  · exact subsets_mirrors _ _ _ hdefinition
  · exact mirrors_pure hdefinition

theorem memberOfNamed_mirrors :
    Mirrors P (memberOfNamed a b) (memberOfNamed a' b') Pairing.Matched :=
  mirrors_drawn fun _ hle _ _ hy =>
    .quantified _ hy (.connective _ (.relation _ (hb.mono hle) (.var hy))
      (.relation _ (ha.mono hle) (.var hy)))

theorem namedMemberOf_mirrors :
    Mirrors P (namedMemberOf a b) (namedMemberOf a' b') Pairing.Matched :=
  mirrors_drawn fun _ hle _ _ hy =>
    .quantified _ hy (.connective _ (.relation _ (ha.mono hle) (.var hy))
      (.relation _ (.var hy) (hb.mono hle)))

theorem memberOf_mirrors : Mirrors P (memberOf a b) (memberOf a' b') Pairing.Matched := by
  have hnamed := memberOfNamed_mirrors ha hb
  cases hb with
  | unary k hf =>
    cases k with
    | bigIntersection =>
      exact mirrors_drawn fun _ hle _ _ hy =>
        .connective _ (.negation (.relation _ (hf.mono hle) (.constant _)))
          (.quantified _ hy (.connective _ (.relation _ (.var hy) (hf.mono hle))
            (.relation _ (ha.mono hle) (.var hy))))
    | bigUnion =>
      exact mirrors_drawn fun _ hle _ _ hy =>
        .quantified _ hy (.connective _ (.relation _ (.var hy) (hf.mono hle))
          (.relation _ (ha.mono hle) (.var hy)))
    | singleton | powerSet => exact hnamed
  | binary k hc hd =>
    cases k with
    | intersection | union | pairSet =>
      exact mirrors_pure (.connective _ (.relation _ ha hc) (.relation _ ha hd))
    | difference =>
      exact mirrors_pure (.connective _ (.relation _ ha hc) (.negation (.relation _ ha hd)))
  | _ => exact hnamed

theorem membershipRule_mirrors :
    Mirrors P (membershipRule s a b) (membershipRule s a' b') Pairing.Matched := by
  unfold membershipRule
  rw [targeted_eq ha, targeted_eq hb]
  split
  · exact memberOf_mirrors ha hb
  · split
    · exact namedMemberOf_mirrors ha hb
    · exact mirrors_pure (.relation _ ha hb)

end Pairs

/-- The variable of a comprehension is renamed in both runs or in neither, because it occurs in a
tree if and only if its counterpart occurs in the matched tree. -/
theorem comprehensionEquality_mirrors {x x' : Nat} {d p b d' p' b' : Expr} (hx : P.pairs x x')
    (hd : P.Matched d d') (hp : P.Matched p p') (hb : P.Matched b b') :
    Mirrors P (comprehensionEquality x d p b) (comprehensionEquality x' d' p' b')
      Pairing.Matched := by
  have htest : (b'.occurrences.contains x' || d'.occurrences.contains x') =
      (b.occurrences.contains x || d.occurrences.contains x) := by
    rw [Bool.eq_iff_iff]
    simp only [Bool.or_eq_true, List.contains_iff_mem]
    rw [hb.mem_occurrences_iff P.biUnique hx, hd.mem_occurrences_iff P.biUnique hx]
  unfold comprehensionEquality
  rw [htest]
  split
  · exact mirrors_drawn fun P' hle _ _ hy =>
      .quantified _ hy (.connective _ (.relation _ (.var hy) (hb.mono hle))
        (.connective _ (.relation _ (.var hy) (hd.mono hle))
          (.renameFree P'.biUnique (hp.mono hle) (hle _ _ hx) hy)))
  · exact mirrors_pure (.quantified _ hx (.connective _ (.relation _ (.var hx) hb)
      (.connective _ (.relation _ (.var hx) hd) hp)))

theorem equalityOf_mirrors {left right term other left' right' term' other' : Expr}
    (hleft : P.Matched left left') (hright : P.Matched right right')
    (hterm : P.Matched term term') (hother : P.Matched other other') :
    Mirrors P (equalityOf s left right term other) (equalityOf s left' right' term' other')
      Pairing.Matched := by
  have hsame := sameMembers_mirrors hleft hright
  cases hterm with
  | unary k ha =>
    cases k with
    | powerSet => exact powerSetEquality_mirrors ha hother
    | _ => exact hsame
  | comprehension hx hd hp => exact comprehensionEquality_mirrors hx hd hp hother
  | _ => exact hsame

theorem equalityRule_mirrors {a b a' b' : Expr} (ha : P.Matched a a') (hb : P.Matched b b') :
    Mirrors P (equalityRule s a b) (equalityRule s a' b') Pairing.Matched := by
  unfold equalityRule
  rw [targeted_eq ha, targeted_eq hb]
  split
  · exact equalityOf_mirrors ha hb ha hb
  · split
    · exact equalityOf_mirrors ha hb hb ha
    · exact mirrors_pure (.relation _ ha hb)

/-- Singletons among the operands are unfolded first, from left to right. -/
theorem mirrors_unfoldSingletons {rule : Expr → Expr → Unfolding Expr}
    (hrule : ∀ (P : Pairing) (a b a' b' : Expr), P.Matched a a' → P.Matched b b' →
      Mirrors P (rule a b) (rule a' b') Pairing.Matched)
    {a b a' b' : Expr} (ha : P.Matched a a') (hb : P.Matched b b') :
    Mirrors P (do let a ← unfoldSingleton s a; let b ← unfoldSingleton s b; rule a b)
      (do let a ← unfoldSingleton s a'; let b ← unfoldSingleton s b'; rule a b)
      Pairing.Matched := by
  refine (unfoldSingleton_mirrors P _ _ ha).bind fun P₁ hle₁ a₁ a₁' ha₁ => ?_
  refine (unfoldSingleton_mirrors P₁ _ _ (hb.mono hle₁)).bind fun P₂ hle₂ b₁ b₁' hb₁ => ?_
  exact hrule P₂ _ _ _ _ (ha₁.mono hle₂) hb₁

theorem operatorRule_mirrors : SelfMirroring (operatorRule s) := by
  intro P e e' he
  have hsame := mirrors_pure (Q := Pairing.Matched) he
  cases he with
  | unary k ha =>
    cases k with
    | singleton => exact unfoldSingleton_mirrors _ _ _ (.unary .singleton ha)
    | _ => exact hsame
  | relation r ha hb =>
    cases r with
    | equality => exact mirrors_unfoldSingletons (fun _ _ _ _ _ => equalityRule_mirrors) ha hb
    | element => exact mirrors_unfoldSingletons (fun _ _ _ _ _ => membershipRule_mirrors) ha hb
    | _ => exact hsame
  | _ => exact hsame

theorem operators_mirrors (depth : Nat) : SelfMirroring (operators s depth) := by
  induction depth with
  | zero =>
    intro P e e' he
    exact mirrors_giveUp
  | succ depth ih =>
    intro P e e' he
    rw [operators_succ, operators_succ]
    exact (operatorRule_mirrors P e e' he).bind fun P' _ => ih.descend P'

theorem operatorsIfOn_mirrors (depth : Nat) : SelfMirroring (operatorsIfOn s depth) := by
  intro P e e' he
  unfold operatorsIfOn
  split
  · exact operators_mirrors depth P e e' he
  · exact mirrors_pure he

/-! ## Constants -/

theorem targetedConstant_eq {R : Nat → Nat → Prop} {e e' : Expr} (h : e.Matched R e') :
    targetedConstant s e' = targetedConstant s e := by
  cases h <;> rfl

theorem emptyEquality_mirrors : SelfMirroring emptyEquality := fun _ _ _ ha =>
  mirrors_drawn fun _ hle _ _ hy =>
    .negation (.quantified _ hy (.relation _ (.var hy) (ha.mono hle)))

theorem omegaEquality_mirrors : SelfMirroring omegaEquality := fun _ _ _ ha =>
  mirrors_drawn fun _ hle _ _ hy =>
    have ha := ha.mono hle
    .connective _ (.relation _ (.constant _) ha)
      (.quantified _ hy (.connective _ (.relation _ (.var hy) ha)
        (.relation _ (.binary _ (.var hy) (.unary _ (.var hy))) ha)))

/-- The rule for the equality `e` of `term` and `other`, if `term` is a constant. -/
def equalityOfConstant (s : Switches) (depth : Nat) (e : Expr) : Expr → Expr → Unfolding Expr
  | constant .emptySet, other => if s .emptySet then emptyEquality other else pure e
  | constant .omega, other =>
    if s .omega then omegaEquality other >>= operatorsIfOn s depth else pure e
  | _, _ => pure e

theorem constantEqualityRule_eq (depth : Nat) (a b : Expr) :
    constantEqualityRule s depth a b =
      if targetedConstant s b then equalityOfConstant s depth (eq a b) b a
      else equalityOfConstant s depth (eq a b) a b := by
  unfold constantEqualityRule
  by_cases hb : targetedConstant s b
  · rw [if_pos hb, if_pos hb]
    rcases b with _ | (_ | _) | _ <;> rfl
  · rw [if_neg hb, if_neg hb]
    rcases a with _ | (_ | _) | _ <;> rfl

theorem equalityOfConstant_mirrors (depth : Nat) {e term other e' term' other' : Expr}
    (he : P.Matched e e') (hterm : P.Matched term term') (hother : P.Matched other other') :
    Mirrors P (equalityOfConstant s depth e term other) (equalityOfConstant s depth e' term' other')
      Pairing.Matched := by
  have hsame := mirrors_pure (Q := Pairing.Matched) he
  cases hterm with
  | constant c =>
    cases c with
    | emptySet =>
      simp only [equalityOfConstant]
      split
      · exact emptyEquality_mirrors _ _ _ hother
      · exact hsame
    | omega =>
      simp only [equalityOfConstant]
      split
      · exact (omegaEquality_mirrors _ _ _ hother).bind fun P' _ => operatorsIfOn_mirrors depth P'
      · exact hsame
  | _ => exact hsame

theorem constantEqualityRule_mirrors (depth : Nat) {a b a' b' : Expr} (ha : P.Matched a a')
    (hb : P.Matched b b') :
    Mirrors P (constantEqualityRule s depth a b) (constantEqualityRule s depth a' b')
      Pairing.Matched := by
  have hab : P.Matched (eq a b) (eq a' b') := .relation _ ha hb
  rw [constantEqualityRule_eq, constantEqualityRule_eq, targetedConstant_eq hb]
  split
  · exact equalityOfConstant_mirrors depth hab hb ha
  · exact equalityOfConstant_mirrors depth hab ha hb

theorem constantMembershipRule_mirrors {a b a' b' : Expr} (ha : P.Matched a a')
    (hb : P.Matched b b') :
    Mirrors P (constantMembershipRule s a b) (constantMembershipRule s a' b') Pairing.Matched := by
  unfold constantMembershipRule
  rw [targetedConstant_eq ha, targetedConstant_eq hb]
  split
  · exact memberOfNamed_mirrors ha hb
  · split
    · exact namedMemberOf_mirrors ha hb
    · exact mirrors_pure (.relation _ ha hb)

theorem constantRule_mirrors (depth : Nat) : SelfMirroring (constantRule s depth) := by
  intro P e e' he
  have hsame := mirrors_pure (Q := Pairing.Matched) he
  cases he with
  | relation r ha hb =>
    cases r with
    | equality => exact constantEqualityRule_mirrors depth ha hb
    | element => exact constantMembershipRule_mirrors ha hb
    | _ => exact hsame
  | _ => exact hsame

theorem constants_mirrors (depth : Nat) : SelfMirroring (constants s depth) := by
  induction depth with
  | zero =>
    intro P e e' he
    exact mirrors_giveUp
  | succ depth ih =>
    intro P e e' he
    rw [constants_succ, constants_succ]
    exact (constantRule_mirrors depth P e e' he).bind fun P' _ => ih.descend P'

end Elimination

/-! ## Passes -/

namespace Pass

open Elimination

variable {s : Switches} {depth : Nat}

theorem requireHeight_mirrors {P : Pairing} {e e' : Expr} (h : P.Matched e e') :
    Mirrors P (Unfolding.requireHeight depth e) (Unfolding.requireHeight depth e')
      fun _ _ _ => True := by
  unfold Unfolding.requireHeight
  rw [h.height_eq]
  split
  · exact mirrors_pure trivial
  · exact mirrors_giveUp

/-- Every pass but the renaming of letters does the same to matched trees. -/
theorem run_mirrors {p : Pass} (hp : p ≠ letters) : SelfMirroring (p.run s depth) := by
  intro P e e' he
  cases p with
  | letters => exact absurd rfl hp
  | negatedRelations =>
    rw [run, run]
    split
    · exact (requireHeight_mirrors he).bind fun _ hle _ _ _ =>
        mirrors_pure (negatedRelations_matched (he.mono hle))
    · exact mirrors_pure he
  | subset =>
    rw [run, run]
    split
    · exact (requireHeight_mirrors he).bind fun P' hle _ _ _ =>
        subsets_mirrors P' _ _ (he.mono hle)
    · exact mirrors_pure he
  | operators => exact operatorsIfOn_mirrors depth P e e' he
  | constants =>
    rw [run, run]
    split
    · exact constants_mirrors depth P e e' he
    · exact mirrors_pure he

theorem runList_mirrors {ps : List Pass} (hps : letters ∉ ps) :
    SelfMirroring (runList s depth ps) := by
  induction ps with
  | nil => exact fun _ _ _ he => mirrors_pure he
  | cons p ps ih =>
    rw [List.mem_cons, not_or] at hps
    intro P e e' he
    rw [runList_cons, runList_cons]
    exact (run_mirrors (Ne.symm hps.1) P e e' he).bind fun P' _ => ih hps.2 P'

end Pass

end SetFormula
