import SetFormula.Proofs.Letters
import SetFormula.Proofs.Unfolds

/-!
# Passes take trees apart and put them together

A pass can be written in one scheme: apply a rule to the root of a tree, take the result apart into
its children, rewrite these in the same way, and put the node together from what they have become.
Putting a node together checks the parts (`Expr.rebuild`): their number, that a quantifier binds a
variable, that a comprehension starts with the membership of a variable.

* `Scheme.rewrite` is the scheme. It may fail where a pass cannot: by a part that does not fit. A
  rule builds its result by constructors, so nothing can go wrong there.
* It never does so, since each pass is the scheme with its rule (`Pass.assemble_eq`). In
  particular, the variable of a quantifier always becomes a variable, and the membership of a
  comprehension, where it is visited, becomes a membership of a variable.
-/

namespace SetFormula

open SetFormula.Expr

/-- A step that draws fresh variables, may give up, and may fail to put a node together. -/
abbrev Assembly (α : Type) := ExceptT BuildFault Unfolding α

namespace Assembly

/-- Put a node together from what a step makes of its children. -/
def reassemble (step : Expr → Assembly Expr) (e : Expr) : Assembly Expr := do
  ofExcept (e.rebuild (← e.children.mapM step))

theorem reassemble_congr {step step' : Expr → Assembly Expr} {e : Expr}
    (h : ∀ child ∈ e.children, step child = step' child) :
    reassemble step e = reassemble step' e := by
  have hparts : ∀ l : List Expr, (∀ child ∈ l, step child = step' child) →
      l.mapM step = l.mapM step' := by
    intro l hl
    induction l with
    | nil => rfl
    | cons child l ih =>
      rw [List.forall_mem_cons] at hl
      rw [List.mapM_cons, List.mapM_cons, hl.1, ih hl.2]
  rw [reassemble, reassemble, hparts _ h]

section Parts

variable (step : Expr → Unfolding Expr)

/-- A node of one part, which fits whatever it is. -/
theorem reassemble_one {e a : Expr} {build : Expr → Expr} (hchildren : e.children = [a])
    (hbuild : ∀ a', e.rebuild [a'] = .ok (build a')) :
    reassemble (fun e => liftM (step e)) e =
      liftM (do return build (← step a) : Unfolding Expr) := by
  rw [reassemble, hchildren]
  simp only [List.mapM_cons, List.mapM_nil, bind_assoc, pure_bind, hbuild, liftM_bind]
  rfl

/-- A node of two parts, which fit whatever they are. -/
theorem reassemble_two {e a b : Expr} {build : Expr → Expr → Expr} (hchildren : e.children = [a, b])
    (hbuild : ∀ a' b', e.rebuild [a', b'] = .ok (build a' b')) :
    reassemble (fun e => liftM (step e)) e =
      liftM (do return build (← step a) (← step b) : Unfolding Expr) := by
  rw [reassemble, hchildren]
  simp only [List.mapM_cons, List.mapM_nil, bind_assoc, pure_bind, hbuild, liftM_bind]
  rfl

/-- A quantifier, if its variable becomes a variable. -/
theorem reassemble_quantified {x y : Nat} (hvar : step (var x) = pure (var y)) (q : Quantifier)
    (a : Expr) :
    reassemble (fun e => liftM (step e)) (quantified q x a) =
      liftM (do return quantified q y (← step a) : Unfolding Expr) := by
  rw [reassemble]
  simp only [children, List.mapM_cons, List.mapM_nil, bind_assoc, pure_bind, hvar, liftM_bind,
    liftM_pure]
  rfl

/-- A comprehension, if its membership becomes the membership of a variable. -/
theorem reassemble_comprehension {x y : Nat} {d : Expr}
    (hmem : step (mem (var x) d) = do return mem (var y) (← step d)) (p : Expr) :
    reassemble (fun e => liftM (step e)) (comprehension x d p) =
      liftM (do return comprehension y (← step d) (← step p) : Unfolding Expr) := by
  rw [reassemble]
  simp only [children, List.mapM_cons, List.mapM_nil, bind_assoc, pure_bind, hmem, liftM_bind,
    liftM_pure]
  rfl

/-- A step that keeps variables, and the membership of a comprehension, gives parts that fit. -/
theorem reassemble_eq_mapChildren (hvar : ∀ x, step (var x) = pure (var x)) {e : Expr}
    (hmem : ∀ x d p, e = comprehension x d p →
      step (mem (var x) d) = do return mem (var x) (← step d)) :
    reassemble (fun e => liftM (step e)) e = liftM (Unfolding.mapChildren step e) := by
  cases e with
  | var i => rfl
  | constant c => rfl
  | relation r a b => exact reassemble_two step rfl fun _ _ => rfl
  | negation a => exact reassemble_one step rfl fun _ => rfl
  | connective c a b => exact reassemble_two step rfl fun _ _ => rfl
  | quantified q x a => exact reassemble_quantified step (hvar x) q a
  | unary k a => exact reassemble_one step rfl fun _ => rfl
  | binary k a b => exact reassemble_two step rfl fun _ _ => rfl
  | comprehension x d p => exact reassemble_comprehension step (hmem x d p rfl) p

end Parts

end Assembly

/-! ## The scheme -/

/-- How a tree is rewritten throughout: the rule for the root, which may depend on the levels left,
and whether the domain of a comprehension is visited. -/
structure Scheme where
  rule : Nat → Expr → Unfolding Expr
  visitsDomains : Bool

namespace Scheme

open Assembly

/-- Take a node apart, apply a step to its children, and put it together. -/
def visit (c : Scheme) (step : Expr → Assembly Expr) : Expr → Assembly Expr
  | comprehension x d p =>
    if c.visitsDomains then reassemble step (comprehension x d p)
    else do ofExcept (separate (mem (var x) d) (← step p))
  | e => reassemble step e

/-- Rewrite a tree, the root first, in at most `depth` levels. -/
def rewrite (c : Scheme) : Nat → Expr → Assembly Expr
  | 0, _ => liftM (Unfolding.giveUp : Unfolding Expr)
  | depth + 1, e => do c.visit (c.rewrite depth) (← c.rule depth e)

theorem rewrite_succ (c : Scheme) (depth : Nat) (e : Expr) :
    c.rewrite (depth + 1) e =
      (liftM (c.rule depth e) : Assembly Expr) >>= c.visit (c.rewrite depth) := rfl

/-- If domains are not visited, a step that keeps variables, or always gives up, is applied below
the root. -/
theorem visit_eq_descend {c : Scheme} (h : c.visitsDomains = false) {step : Expr → Unfolding Expr}
    (hstep : (∀ x, step (var x) = pure (var x)) ∨ ∀ e, step e = Unfolding.giveUp) (e : Expr) :
    c.visit (fun e => liftM (step e)) e = liftM (Elimination.descend step e) := by
  have hreassemble (hne : ∀ x d p, e ≠ comprehension x d p) :
      reassemble (fun e => liftM (step e)) e = liftM (Unfolding.mapChildren step e) := by
    rcases hstep with hvar | hgiveUp
    · exact reassemble_eq_mapChildren step hvar fun x d p he => absurd he (hne x d p)
    · obtain rfl : step = fun _ => Unfolding.giveUp := funext hgiveUp
      cases e with
      | comprehension x d p => exact absurd rfl (hne x d p)
      | _ => rfl
  cases e with
  | comprehension x d p =>
    rw [visit, h]
    simp only [Elimination.descend, liftM_bind]
    rfl
  | _ => exact hreassemble (by simp)

/-- A pass that counts its levels and does not visit domains is the scheme with its rule. -/
theorem rewrite_eq_of_descend {c : Scheme} (h : c.visitsDomains = false)
    {pass : Nat → Expr → Unfolding Expr} (hzero : ∀ e, pass 0 e = Unfolding.giveUp)
    (hsucc : ∀ depth e, pass (depth + 1) e = c.rule depth e >>= Elimination.descend (pass depth))
    (hvar : ∀ depth x, pass (depth + 1) (var x) = pure (var x)) (depth : Nat) (e : Expr) :
    c.rewrite depth e = liftM (pass depth e) := by
  induction depth generalizing e with
  | zero => rw [hzero, rewrite]
  | succ depth ih =>
    have hstep : (∀ x, pass depth (var x) = pure (var x)) ∨
        ∀ e, pass depth e = Unfolding.giveUp := by
      cases depth with
      | zero => exact .inr hzero
      | succ depth => exact .inl (hvar depth)
    rw [rewrite_succ, hsucc, liftM_bind, funext ih]
    exact congrArg _ (funext (visit_eq_descend h hstep))

end Scheme

/-! ## Levels -/

/-- The number of levels that a relation stands for, while it is being unfolded. -/
def Relation.levels (r : Relation) : Nat := if r.isNegated then 4 else if r = .subset then 3 else 1

@[simp] theorem Relation.levels_element : Relation.element.levels = 1 := rfl

@[simp] theorem Relation.levels_subset : Relation.subset.levels = 3 := rfl

theorem Relation.levels_pos (r : Relation) : 0 < r.levels := by
  cases r <;> decide

theorem Relation.levels_positive_lt {r : Relation} (h : r.isNegated) :
    r.positive.levels < r.levels := by
  cases r with
  | equality | element | subset => cases h
  | notEqual | notElement | notSubset => decide

namespace Expr

/-- The number of levels below the root, counting those that the relations stand for. -/
def levels : Expr → Nat
  | var _ | constant _ => 0
  | relation r a b => r.levels + max a.levels b.levels
  | connective _ a b | binary _ a b => 1 + max a.levels b.levels
  | negation a | unary _ a | quantified _ _ a => 1 + a.levels
  | comprehension _ d p => 1 + max (1 + d.levels) p.levels

theorem levels_lt_of_mem_children {e child : Expr} (h : child ∈ e.children) :
    child.levels < e.levels := by
  cases e with
  | var i => cases h
  | constant c => cases h
  | negation a | unary k a =>
    obtain rfl := List.mem_singleton.1 h
    simp only [levels]
    omega
  | relation r a b =>
    have hr := r.levels_pos
    rcases List.mem_pair.1 h with rfl | rfl <;> simp only [levels] <;> omega
  | connective c a b | binary k a b =>
    rcases List.mem_pair.1 h with rfl | rfl <;> simp only [levels] <;> omega
  | quantified q x a =>
    rcases List.mem_pair.1 h with rfl | rfl <;> simp only [levels] <;> omega
  | comprehension x d p =>
    rcases List.mem_pair.1 h with rfl | rfl <;> simp only [levels, Relation.levels_element] <;>
      omega

end Expr

/-- What a step makes of the children matters only, and these have fewer levels. -/
theorem Assembly.reassemble_of_levels {step : Expr → Assembly Expr} {pass : Expr → Unfolding Expr}
    {e : Expr} (h : ∀ e', e'.levels < e.levels → step e' = liftM (pass e')) :
    reassemble step e = reassemble (fun e => liftM (pass e)) e :=
  reassemble_congr fun child hchild => h child (levels_lt_of_mem_children hchild)

namespace Scheme

/-- A pass that follows the tree is the scheme with its rule, in enough levels, if one visit is
right as soon as what lies deeper is. -/
theorem rewrite_eq_of_levels {c : Scheme} (pass : Expr → Unfolding Expr)
    (h : ∀ depth e (step : Expr → Assembly Expr),
      (∀ e', e'.levels < e.levels → step e' = liftM (pass e')) →
        (liftM (c.rule depth e) : Assembly Expr) >>= c.visit step = liftM (pass e))
    {depth : Nat} {e : Expr} (hdepth : e.levels < depth) : c.rewrite depth e = liftM (pass e) := by
  induction depth generalizing e with
  | zero => exact absurd hdepth (Nat.not_lt_zero _)
  | succ depth ih =>
    rw [rewrite_succ]
    exact h depth e _ fun e' he' => ih (by omega)

end Scheme

namespace Elimination

open Assembly

variable {s : Switches}

/-! ## The schemes of the passes -/

/-- The scheme of a renaming. -/
def renamingScheme (f : Nat → Nat) : Scheme where
  rule _ e := pure (match e with
    | var i => var (f i)
    | e => e)
  visitsDomains := true

/-- The scheme of negated relations. -/
def negatedScheme : Scheme where
  rule _ e := pure (match e with
    | relation r a b =>
      if r.isNegated then negation (relation r.positive a b) else relation r a b
    | e => e)
  visitsDomains := true

/-- The scheme of subset relations. -/
def subsetScheme : Scheme where
  rule _ e := match e with
    | relation .subset a b => do
      let y ← Unfolding.fresh
      return all y (imp (mem (var y) a) (mem (var y) b))
    | e => pure e
  visitsDomains := true

/-- The scheme of operators and comprehensions. -/
def operatorScheme (s : Switches) : Scheme := ⟨fun _ => operatorRule s, false⟩

/-- The scheme of constants. -/
def constantScheme (s : Switches) : Scheme := ⟨constantRule s, false⟩

theorem rewrite_operatorScheme (depth : Nat) (e : Expr) :
    (operatorScheme s).rewrite depth e = liftM (operators s depth e) :=
  Scheme.rewrite_eq_of_descend rfl (fun _ => rfl) (operators_succ s) (fun _ _ => rfl) depth e

theorem rewrite_constantScheme (depth : Nat) (e : Expr) :
    (constantScheme s).rewrite depth e = liftM (constants s depth e) :=
  Scheme.rewrite_eq_of_descend rfl (fun _ => rfl) (constants_succ s) (fun _ _ => rfl) depth e

theorem rewrite_renamingScheme (f : Nat → Nat) {depth : Nat} {e : Expr} (h : e.levels < depth) :
    (renamingScheme f).rewrite depth e = liftM (pure (e.rename f) : Unfolding Expr) := by
  let pass : Expr → Unfolding Expr := fun e => pure (e.rename f)
  refine Scheme.rewrite_eq_of_levels pass ?_ h
  intro depth e step hstep
  have hparts := reassemble_of_levels hstep
  cases e with
  | var i => rfl
  | constant c => rfl
  | relation r a b => exact hparts.trans (reassemble_two pass rfl fun _ _ => rfl)
  | negation a => exact hparts.trans (reassemble_one pass rfl fun _ => rfl)
  | connective c a b => exact hparts.trans (reassemble_two pass rfl fun _ _ => rfl)
  | quantified q x a => exact hparts.trans (reassemble_quantified pass rfl q a)
  | unary k a => exact hparts.trans (reassemble_one pass rfl fun _ => rfl)
  | binary k a b => exact hparts.trans (reassemble_two pass rfl fun _ _ => rfl)
  | comprehension x d p => exact hparts.trans (reassemble_comprehension pass rfl p)

theorem rewrite_negatedScheme {depth : Nat} {e : Expr} (h : e.levels < depth) :
    negatedScheme.rewrite depth e = liftM (pure (negatedRelations e) : Unfolding Expr) := by
  let pass : Expr → Unfolding Expr := fun e => pure (negatedRelations e)
  refine Scheme.rewrite_eq_of_levels pass ?_ h
  intro depth e step hstep
  have hkeeps := (reassemble_of_levels hstep).trans
    (reassemble_eq_mapChildren pass (fun _ => rfl) fun _ _ _ _ => rfl)
  cases e with
  | relation r a b =>
    by_cases hr : r.isNegated
    · -- the positive relation, now below a negation, is visited next
      have hpositive : ∀ child ∈ (negation (relation r.positive a b)).children,
          step child = liftM (pass child) := by
        intro child hchild
        rw [List.mem_singleton.1 hchild]
        exact hstep _ (Nat.add_lt_add_right (Relation.levels_positive_lt hr) _)
      have hrule : negatedScheme.rule depth (relation r a b) =
          pure (negation (relation r.positive a b)) := congrArg pure (if_pos hr)
      rw [hrule, liftM_pure, pure_bind]
      refine (reassemble_congr hpositive).trans ((reassemble_one pass rfl fun _ => rfl).trans ?_)
      cases r with
      | equality | element | subset => cases hr
      | notEqual | notElement | notSubset => rfl
    · have hrule : negatedScheme.rule depth (relation r a b) = pure (relation r a b) :=
        congrArg pure (if_neg hr)
      rw [hrule, liftM_pure, pure_bind]
      refine hkeeps.trans ?_
      cases r with
      | equality | element | subset => rfl
      | notEqual | notElement | notSubset => exact absurd rfl hr
  | _ => exact hkeeps

theorem rewrite_subsetScheme {depth : Nat} {e : Expr} (h : e.levels < depth) :
    subsetScheme.rewrite depth e = liftM (Unfolding.ofState (subsets e)) := by
  let pass : Expr → Unfolding Expr := fun e => Unfolding.ofState (subsets e)
  refine Scheme.rewrite_eq_of_levels pass ?_ h
  intro depth e step hstep
  have hkeeps := (reassemble_of_levels hstep).trans
    (reassemble_eq_mapChildren pass (fun _ => rfl) fun _ _ _ _ => rfl)
  cases e with
  | relation r a b =>
    cases r with
    | subset =>
      let members : Nat → Expr := fun y => imp (mem (var y) a) (mem (var y) b)
      -- below the new quantifier, the two memberships are visited next
      have hmembers (y : Nat) : ∀ child ∈ (all y (members y)).children,
          step child = liftM (pass child) := by
        intro child hchild
        rcases List.mem_pair.1 hchild with rfl | rfl
        · refine hstep _ ?_
          simp only [levels, Relation.levels_subset]
          omega
        · refine hstep _ ?_
          simp only [members, levels, Relation.levels_subset, Relation.levels_element]
          omega
      have hvisit : (fun y => subsetScheme.visit step (all y (members y))) =
          fun y => liftM (do return all y (← pass (members y)) : Unfolding Expr) := by
        funext y
        exact (reassemble_congr (hmembers y)).trans (reassemble_quantified pass rfl _ _)
      calc (liftM (subsetScheme.rule depth (sub a b)) : Assembly Expr) >>= subsetScheme.visit step
          = liftM Unfolding.fresh >>= fun y => subsetScheme.visit step (all y (members y)) := by
            change (liftM (Unfolding.fresh >>= _) : Assembly Expr) >>= _ = _
            simp only [liftM_bind, bind_assoc, liftM_pure, pure_bind]
            rfl
        _ = liftM (do let y ← Unfolding.fresh; return all y (← pass (members y)) :
              Unfolding Expr) := by rw [hvisit, ← liftM_bind]
        _ = liftM (pass (sub a b)) := rfl
    | _ => exact hkeeps
  | _ => exact hkeeps

/-- The numbers that are taken are read once. -/
theorem letters_eq (depth : Nat) (e : Expr) :
    letters depth e = do
      let t ← get
      if (lettersOf t).isEmpty then pure e else do
        Unfolding.requireHeight depth e
        set (Taken.ofExpr (e.rename (freshNames t)))
        return e.rename (freshNames t) := by
  funext t
  change (if (lettersOf t).isEmpty then _ else _ : Unfolding Expr) t =
    (if (lettersOf t).isEmpty then _ else _ : Unfolding Expr) t
  split
  · rfl
  · rfl

end Elimination

namespace Pass

open Elimination

variable {s : Switches} {depth : Nat}

/-- Run one pass, with nodes taken apart and put together. -/
def assemble (s : Switches) (depth : Nat) : Pass → Expr → Assembly Expr
  | letters, e =>
    if s .letters then do
      let t ← get
      if (lettersOf t).isEmpty then return e
      Unfolding.requireHeight depth e
      let renamed ← (renamingScheme (freshNames t)).rewrite (e.levels + 1) e
      set (Taken.ofExpr renamed)
      return renamed
    else pure e
  | negatedRelations, e =>
    if s .negatedRelations then do
      Unfolding.requireHeight depth e
      negatedScheme.rewrite (e.levels + 1) e
    else pure e
  | subset, e =>
    if s .subset then do
      Unfolding.requireHeight depth e
      subsetScheme.rewrite (e.levels + 1) e
    else pure e
  | operators, e => if s.touchesOperators then (operatorScheme s).rewrite depth e else pure e
  | constants, e => if s.touchesConstants then (constantScheme s).rewrite depth e else pure e

/-- No part that is put into a node ever fails to fit. -/
theorem assemble_eq (p : Pass) (e : Expr) : p.assemble s depth e = liftM (p.run s depth e) := by
  cases p with
  | letters =>
    rw [assemble, run]
    split
    · rw [letters_eq]
      simp only [rewrite_renamingScheme _ (Nat.lt_succ_self _), liftM_pure, pure_bind, liftM_bind,
        apply_ite]
      rfl
    · rfl
  | negatedRelations =>
    rw [assemble, run]
    split
    · rw [rewrite_negatedScheme (Nat.lt_succ_self _), ← liftM_bind]
    · rfl
  | subset =>
    rw [assemble, run]
    split
    · rw [rewrite_subsetScheme (Nat.lt_succ_self _), ← liftM_bind]
    · rfl
  | operators =>
    rw [assemble, run, operatorsIfOn]
    split
    · exact rewrite_operatorScheme depth e
    · rfl
  | constants =>
    rw [assemble, run]
    split
    · exact rewrite_constantScheme depth e
    · rfl

end Pass

end SetFormula
