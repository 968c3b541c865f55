import SetFormula.Proofs.Letters
import SetFormula.Proofs.Weight

/-!
# Elimination terminates

The passes give up on trees that need more than the levels of nesting allowed. Here it is shown that
some number of levels is always enough: more than the weight of the tree, whatever the switches and
the numbers taken (`operators_succeeds`, `constants_succeeds`). Once a pass has a result, more
levels do not change it (`operators_extends`, `constants_extends`), so that is the result of the
recursion without any limit.
-/

namespace SetFormula

namespace Unfolding

/-! ## Steps that never give up -/

/-- The step has a result, whatever numbers are taken. -/
def Succeeds {α : Type} (m : Unfolding α) : Prop := ∀ t, ∃ r, m t = some r

variable {α β : Type}

theorem succeeds_pure (a : α) : Succeeds (pure a : Unfolding α) := fun t => ⟨(a, t), rfl⟩

theorem succeeds_fresh : Succeeds fresh := fun t => ⟨t.fresh, rfl⟩

theorem succeeds_ofState (step : StateM Taken α) : Succeeds (ofState step) := fun t =>
  ⟨step t, rfl⟩

/-- A sequence has a result if its first step has one and each result of it is followed by one. -/
theorem succeeds_bind {x : Unfolding α} {f : α → Unfolding β} (hx : Succeeds x)
    (hf : ∀ t a t₁, x t = some (a, t₁) → Succeeds (f a)) : Succeeds (x >>= f) := by
  intro t
  obtain ⟨⟨a, t₁⟩, ha⟩ := hx t
  obtain ⟨r, hr⟩ := hf t a t₁ ha t₁
  exact ⟨r, bind_eq_some.2 ⟨a, t₁, ha, hr⟩⟩

theorem succeeds_requireHeight {depth : Nat} {e : Expr} (h : e.height ≤ depth) :
    Succeeds (requireHeight depth e) := fun t => ⟨((), t), requireHeight_eq_some.2 ⟨h, rfl⟩⟩

/-! ## Steps that do at least as much -/

/-- Every result of `m` is one of `m'`. -/
def Extends {α : Type} (m m' : Unfolding α) : Prop := ∀ t r, m t = some r → m' t = some r

theorem Extends.refl (m : Unfolding α) : Extends m m := fun _ _ h => h

theorem Extends.bind {x x' : Unfolding α} {f f' : α → Unfolding β} (hx : Extends x x')
    (hf : ∀ a, Extends (f a) (f' a)) : Extends (x >>= f) (x' >>= f') := by
  intro t r h
  obtain ⟨a, t₁, ha, h⟩ := bind_eq_some.1 h
  exact bind_eq_some.2 ⟨a, t₁, hx t _ ha, hf a t₁ r h⟩

end Unfolding

namespace Elimination

open SetFormula.Expr Unfolding

variable {s : Switches}

/-! ## The rules always apply -/

theorem unfoldSingleton_succeeds (e : Expr) : Succeeds (unfoldSingleton s e) := by
  unfold unfoldSingleton
  split
  · split
    · exact succeeds_bind succeeds_fresh fun _ _ _ _ => succeeds_pure _
    · exact succeeds_pure _
  · exact succeeds_pure _

theorem equalityOf_succeeds (left right term other : Expr) :
    Succeeds (equalityOf s left right term other) := by
  unfold equalityOf
  split
  · refine succeeds_bind succeeds_fresh fun _ _ _ _ => ?_
    split
    · exact succeeds_ofState _
    · exact succeeds_pure _
  · unfold comprehensionEquality
    split
    · exact succeeds_bind succeeds_fresh fun _ _ _ _ => succeeds_pure _
    · exact succeeds_pure _
  · exact succeeds_bind succeeds_fresh fun _ _ _ _ => succeeds_pure _

theorem equalityRule_succeeds (left right : Expr) : Succeeds (equalityRule s left right) := by
  unfold equalityRule
  split
  · exact equalityOf_succeeds _ _ _ _
  · split
    · exact equalityOf_succeeds _ _ _ _
    · exact succeeds_pure _

theorem memberOf_succeeds (a e : Expr) : Succeeds (memberOf a e) := by
  unfold memberOf
  split
  · exact succeeds_bind succeeds_fresh fun _ _ _ _ => succeeds_pure _
  · exact succeeds_bind succeeds_fresh fun _ _ _ _ => succeeds_pure _
  · exact succeeds_pure _
  · exact succeeds_pure _
  · exact succeeds_pure _
  · exact succeeds_pure _
  · exact succeeds_bind succeeds_fresh fun _ _ _ _ => succeeds_pure _

theorem membershipRule_succeeds (left right : Expr) : Succeeds (membershipRule s left right) := by
  unfold membershipRule
  split
  · exact memberOf_succeeds _ _
  · split
    · exact succeeds_bind succeeds_fresh fun _ _ _ _ => succeeds_pure _
    · exact succeeds_pure _

theorem operatorRule_succeeds (e : Expr) : Succeeds (operatorRule s e) := by
  unfold operatorRule
  split
  · exact unfoldSingleton_succeeds _
  · exact succeeds_bind (unfoldSingleton_succeeds _) fun _ _ _ _ =>
      succeeds_bind (unfoldSingleton_succeeds _) fun _ _ _ _ => equalityRule_succeeds _ _
  · exact succeeds_bind (unfoldSingleton_succeeds _) fun _ _ _ _ =>
      succeeds_bind (unfoldSingleton_succeeds _) fun _ _ _ _ => membershipRule_succeeds _ _
  · exact succeeds_pure _

/-! ## Enough levels -/

/-- A step that has a result on every tree lighter than `e` has one below the root of `e`. -/
theorem descend_succeeds {step : Expr → Unfolding Expr} {e : Expr}
    (h : ∀ a : Expr, a.weight < e.weight → Succeeds (step a)) : Succeeds (descend step e) := by
  have one : ∀ {a : Expr} (f : Expr → Expr), a.weight < e.weight →
      Succeeds (step a >>= fun a' => pure (f a')) := fun f ha =>
    succeeds_bind (h _ ha) fun _ _ _ _ => succeeds_pure _
  have two : ∀ {a b : Expr} (f : Expr → Expr → Expr), a.weight < e.weight → b.weight < e.weight →
      Succeeds (step a >>= fun a' => step b >>= fun b' => pure (f a' b')) := fun f ha hb =>
    succeeds_bind (h _ ha) fun _ _ _ _ => succeeds_bind (h _ hb) fun _ _ _ _ => succeeds_pure _
  cases e with
  | var i | constant c => exact succeeds_pure _
  | relation r a b => exact two _ (weight_lt_relation r a b).1 (weight_lt_relation r a b).2
  | unary k a => exact one _ (weight_lt_unary k a)
  | negation a | quantified q x a => exact one _ (by simp only [weight]; omega)
  | connective c a b | binary k a b =>
    exact two _ (by simp only [weight]; omega) (by simp only [weight]; omega)
  | comprehension x d p => exact one _ (by simp only [weight]; omega)

/-- More levels than the weight of the tree are enough to eliminate its operators. -/
theorem operators_succeeds {depth : Nat} {e : Expr} (h : e.weight < depth) :
    Succeeds (operators s depth e) := by
  induction depth generalizing e with
  | zero => omega
  | succ depth ih =>
    rw [operators_succ]
    refine succeeds_bind (operatorRule_succeeds e) fun t e₁ t₁ hrule => ?_
    refine descend_succeeds fun a ha => ?_
    have hle := (operatorRule_unfolds hrule).noHeavier.weight_le
    exact ih (by omega)

theorem operatorsIfOn_succeeds {depth : Nat} {e : Expr} (h : e.weight < depth) :
    Succeeds (operatorsIfOn s depth e) := by
  unfold operatorsIfOn
  split
  · exact operators_succeeds h
  · exact succeeds_pure _

/-- The formula that unfolds an equality with `ω` is lighter than the equality. -/
theorem omegaEquality_weight_lt {a b e : Expr} {t t' : Taken} (h : omegaEquality a t = some (e, t'))
    (hb : b = constant .omega) : e.weight < (eq a b).weight := by
  cases h
  have ha := a.rightWeight_le a.weight
  subst hb
  simp only [weight, leftWeight, isVariable, if_true, Bool.false_eq_true, if_false]
  omega

theorem constantEqualityRule_succeeds {depth : Nat} {left right : Expr}
    (h : (eq left right).weight ≤ depth) :
    Succeeds (constantEqualityRule s depth left right) := by
  unfold constantEqualityRule
  generalize hsides :
    (if targetedConstant s right then (right, left) else (left, right)) = sides
  obtain ⟨c, other⟩ := sides
  have hweight : (eq other c).weight = (eq left right).weight := by
    split at hsides
    · cases hsides
      rfl
    · cases hsides
      simp only [weight]
      omega
  cases c with
  | constant c =>
    cases c with
    | emptySet =>
      simp only
      split
      · exact succeeds_bind succeeds_fresh fun _ _ _ _ => succeeds_pure _
      · exact succeeds_pure _
    | omega =>
      simp only
      split
      · refine succeeds_bind (succeeds_bind succeeds_fresh fun _ _ _ _ => succeeds_pure _)
          fun t e₁ t₁ hω => operatorsIfOn_succeeds ?_
        have hlt := omegaEquality_weight_lt hω rfl
        omega
      · exact succeeds_pure _
  | _ => exact succeeds_pure _

theorem constantRule_succeeds {depth : Nat} {e : Expr} (h : e.weight ≤ depth) :
    Succeeds (constantRule s depth e) := by
  cases e with
  | relation r a b =>
    cases r with
    | equality => exact constantEqualityRule_succeeds h
    | element =>
      change Succeeds (constantMembershipRule s a b)
      unfold constantMembershipRule
      split
      · exact succeeds_bind succeeds_fresh fun _ _ _ _ => succeeds_pure _
      · split
        · exact succeeds_bind succeeds_fresh fun _ _ _ _ => succeeds_pure _
        · exact succeeds_pure _
    | _ => exact succeeds_pure _
  | _ => exact succeeds_pure _

/-- More levels than the weight of the tree are enough to eliminate its constants. -/
theorem constants_succeeds {depth : Nat} {e : Expr} (h : e.weight < depth) :
    Succeeds (constants s depth e) := by
  induction depth generalizing e with
  | zero => omega
  | succ depth ih =>
    rw [constants_succ]
    refine succeeds_bind (constantRule_succeeds (by omega)) fun t e₁ t₁ hrule =>
      descend_succeeds fun a ha => ?_
    have hle := (constantRule_unfolds hrule).noHeavier.weight_le
    exact ih (by omega)

/-! ## More levels -/

theorem descend_extends {step step' : Expr → Unfolding Expr} (h : ∀ e, Extends (step e) (step' e))
    (e : Expr) : Extends (descend step e) (descend step' e) := by
  cases e with
  | var i | constant c => exact .refl _
  | negation a | quantified q x a | unary k a | comprehension x d a =>
    exact (h a).bind fun _ => .refl _
  | relation r a b | connective c a b | binary k a b =>
    exact (h a).bind fun _ => (h b).bind fun _ => .refl _

theorem operators_extends {depth depth' : Nat} (hle : depth ≤ depth') (e : Expr) :
    Extends (operators s depth e) (operators s depth' e) := by
  induction depth generalizing depth' e with
  | zero => exact fun _ _ h => nomatch h
  | succ depth ih =>
    obtain ⟨n, rfl⟩ : ∃ n, depth' = n + 1 := ⟨depth' - 1, by omega⟩
    rw [operators_succ, operators_succ]
    exact (Extends.refl _).bind fun e₁ => descend_extends (fun a => ih (by omega) a) e₁

theorem operatorsIfOn_extends {depth depth' : Nat} (hle : depth ≤ depth') (e : Expr) :
    Extends (operatorsIfOn s depth e) (operatorsIfOn s depth' e) := by
  unfold operatorsIfOn
  split
  · exact operators_extends hle e
  · exact .refl _

theorem constantRule_extends {depth depth' : Nat} (hle : depth ≤ depth') (e : Expr) :
    Extends (constantRule s depth e) (constantRule s depth' e) := by
  cases e with
  | relation r a b =>
    cases r with
    | equality =>
      change Extends (constantEqualityRule s depth a b) (constantEqualityRule s depth' a b)
      unfold constantEqualityRule
      generalize (if targetedConstant s b then (b, a) else (a, b)) = sides
      obtain ⟨c, other⟩ := sides
      cases c with
      | constant c =>
        cases c with
        | emptySet => exact .refl _
        | omega =>
          simp only
          split
          · exact (Extends.refl _).bind fun e₁ => operatorsIfOn_extends hle e₁
          · exact .refl _
      | _ => exact .refl _
    | _ => exact .refl _
  | _ => exact .refl _

theorem constants_extends {depth depth' : Nat} (hle : depth ≤ depth') (e : Expr) :
    Extends (constants s depth e) (constants s depth' e) := by
  induction depth generalizing depth' e with
  | zero => exact fun _ _ h => nomatch h
  | succ depth ih =>
    obtain ⟨n, rfl⟩ : ∃ n, depth' = n + 1 := ⟨depth' - 1, by omega⟩
    rw [constants_succ, constants_succ]
    exact (constantRule_extends (by omega) e).bind fun e₁ =>
      descend_extends (fun a => ih (by omega) a) e₁

end Elimination

/-! ## Passes -/

namespace Pass

open Unfolding

variable {s : Switches}

theorem run_succeeds (p : Pass) {depth : Nat} {e : Expr} (h : e.weight < depth) :
    Succeeds (p.run s depth e) := by
  have hheight : e.height ≤ depth := Nat.le_trans e.height_le_weight (Nat.le_of_lt h)
  cases p with
  | letters =>
    rw [run]
    split
    · intro t
      rw [Elimination.letters_apply, if_pos hheight]
      split
      · exact ⟨_, rfl⟩
      · exact ⟨_, rfl⟩
    · exact succeeds_pure _
  | negatedRelations =>
    rw [run]
    split
    · exact succeeds_bind (succeeds_requireHeight hheight) fun _ _ _ _ => succeeds_pure _
    · exact succeeds_pure _
  | subset =>
    rw [run]
    split
    · exact succeeds_bind (succeeds_requireHeight hheight) fun _ _ _ _ => succeeds_ofState _
    · exact succeeds_pure _
  | operators => exact Elimination.operatorsIfOn_succeeds h
  | constants =>
    rw [run]
    split
    · exact Elimination.constants_succeeds h
    · exact succeeds_pure _

theorem requireHeight_extends {depth depth' : Nat} (hle : depth ≤ depth') (e : Expr) :
    Extends (requireHeight depth e) (requireHeight depth' e) := by
  rintro t ⟨⟨⟩, t'⟩ h
  obtain ⟨hheight, rfl⟩ := requireHeight_eq_some.1 h
  exact requireHeight_eq_some.2 ⟨Nat.le_trans hheight hle, rfl⟩

theorem run_extends (p : Pass) {depth depth' : Nat} (hle : depth ≤ depth') (e : Expr) :
    Extends (p.run s depth e) (p.run s depth' e) := by
  cases p with
  | letters =>
    rw [run, run]
    split
    · intro t r h
      rw [Elimination.letters_apply] at h ⊢
      by_cases hempty : (Elimination.lettersOf t).isEmpty
      · rw [if_pos hempty] at h ⊢
        exact h
      · rw [if_neg hempty] at h ⊢
        split at h
        · rename_i hheight
          rw [if_pos (Nat.le_trans hheight hle)]
          exact h
        · cases h
    · exact .refl _
  | negatedRelations | subset =>
    rw [run, run]
    split
    · exact (requireHeight_extends hle e).bind fun _ => .refl _
    · exact .refl _
  | operators => exact Elimination.operatorsIfOn_extends hle e
  | constants =>
    rw [run, run]
    split
    · exact Elimination.constants_extends hle e
    · exact .refl _

/-- No pass raises the weight of a tree. -/
theorem run_weight_le {p : Pass} {depth : Nat} {e e' : Expr} {t t' : Taken}
    (h : p.run s depth e t = some (e', t')) : e'.weight ≤ e.weight := by
  by_cases hp : p = letters
  · subst hp
    rw [run] at h
    split at h
    · rw [Elimination.letters_apply] at h
      split at h
      · cases h
        exact Nat.le_refl _
      · split at h
        · cases h
          exact Nat.le_of_eq (Expr.weight_rename _ _)
        · cases h
    · cases h
      exact Nat.le_refl _
  · exact (run_unfolds hp h).noHeavier.weight_le

theorem runAll_succeeds (ps : List Pass) {depth : Nat} {e : Expr} (h : e.weight < depth)
    (t : Taken) : ∃ e', (runAll s depth ps e t).2 = some e' := by
  induction ps generalizing e t with
  | nil => exact ⟨e, rfl⟩
  | cons p ps ih =>
    obtain ⟨⟨e₁, t₁⟩, hrun⟩ := run_succeeds p h t
    obtain ⟨e', he'⟩ := ih (Nat.lt_of_le_of_lt (run_weight_le hrun) h) t₁
    exact ⟨e', by rw [runAll_cons_snd, hrun]; exact he'⟩

theorem runAll_extends (ps : List Pass) {depth depth' : Nat} (hle : depth ≤ depth') {e e' : Expr}
    {t : Taken} (h : (runAll s depth ps e t).2 = some e') :
    (runAll s depth' ps e t).2 = some e' := by
  induction ps generalizing e t with
  | nil => exact h
  | cons p ps ih =>
    rw [runAll_cons_snd, Option.bind_eq_some_iff] at h
    obtain ⟨⟨e₁, t₁⟩, hrun, h⟩ := h
    rw [runAll_cons_snd, run_extends p hle e t _ hrun]
    exact ih h

end Pass

/-- A step that succeeds at the depth `bound`, and whose results stay when the depth grows, has one
result at all depths from `bound` on. -/
theorem Unfolding.Succeeds.stable {α : Type} {m : Nat → Unfolding α} {bound : Nat}
    (hbound : (m bound).Succeeds) (hle : ∀ depth, bound ≤ depth → (m bound).Extends (m depth))
    (t : Taken) : ∃ r, ∀ depth, bound ≤ depth → m depth t = some r := by
  obtain ⟨r, hr⟩ := hbound t
  exact ⟨r, fun depth h => hle depth h t r hr⟩

/-- **Elimination terminates.** For every tree and all switches there is a number of levels from
which on the elimination of operators, that of constants and every single pass have a result,
whatever numbers are taken, and so has the whole elimination; and these results do not depend on the
number of levels. -/
theorem elimination_terminates (s : Switches) (e : Expr) :
    ∃ bound,
      (∀ t, ∃ r, ∀ depth, bound ≤ depth → Elimination.operators s depth e t = some r) ∧
      (∀ t, ∃ r, ∀ depth, bound ≤ depth → Elimination.constants s depth e t = some r) ∧
      (∀ (p : Pass) (t : Taken), ∃ r, ∀ depth, bound ≤ depth → p.run s depth e t = some r) ∧
      ∃ e', ∀ depth, bound ≤ depth → eliminate s depth e = some e' := by
  have h : e.weight < e.weight + 1 := Nat.lt_succ_self _
  refine ⟨e.weight + 1, ?_, ?_, fun p => ?_, ?_⟩
  · exact (Elimination.operators_succeeds h).stable fun _ hle => Elimination.operators_extends hle e
  · exact (Elimination.constants_succeeds h).stable fun _ hle => Elimination.constants_extends hle e
  · exact (p.run_succeeds h).stable fun _ hle => p.run_extends hle e
  · obtain ⟨e', he'⟩ := Pass.runAll_succeeds (s := s) Pass.all h (Taken.ofExpr e)
    exact ⟨e', fun depth hle => Pass.runAll_extends Pass.all hle he'⟩

end SetFormula
