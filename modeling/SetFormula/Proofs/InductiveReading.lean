import SetFormula.Proofs.Soundness

/-!
# What eliminating `ω` means

The rule for `ω` says of a set that it is inductive, not that it is `ω`. So it keeps the meaning in
another reading: `x = ω` and `ω = x`, for a variable `x`, say that `x` is inductive, and all else
means what it usually does (`MembershipStructure.reading`). This is a reading of formulas in which
`ω` occurs in such equalities only, `Expr.omegaOnlyEquated`.

* The reading of a formula is the usual meaning of the formula with these equalities spelled out,
  `Expr.spellOmega z`, where `z` is a variable that does not occur
  (`reading_eq_meaning_spellOmega`).
* Spelling out turns every step of a rule into a step of the same rule (`Rewrites.spellOmega`,
  `Introduces.spellOmega`), the rule for `ω` excepted, which is what is spelled out. So a step keeps
  the reading because it keeps the meaning.
-/

namespace SetFormula

universe u

namespace Expr

/-! ## Equalities with `ω` -/

/-- The variable of an equality between a variable and `ω`. -/
def omegaVariable? : Relation → Expr → Expr → Option Nat
  | .equality, var x, constant .omega => some x
  | .equality, constant .omega, var x => some x
  | _, _, _ => none

/-- Whether `ω` occurs in equalities with a variable only. -/
def omegaOnlyEquated : Expr → Bool
  | var _ => true
  | constant c => c != .omega
  | relation r a b =>
    (omegaVariable? r a b).isSome || (a.omegaOnlyEquated && b.omegaOnlyEquated)
  | negation a | quantified _ _ a | unary _ a => a.omegaOnlyEquated
  | connective _ a b | binary _ a b | comprehension _ a b =>
    a.omegaOnlyEquated && b.omegaOnlyEquated

theorem omegaVariable?_eq_some_iff {r : Relation} {a b : Expr} {x : Nat} :
    omegaVariable? r a b = some x ↔
      r = .equality ∧
        ((a = var x ∧ b = constant .omega) ∨ (a = constant .omega ∧ b = var x)) := by
  constructor
  · intro h
    unfold omegaVariable? at h
    split at h
    · cases h
      exact ⟨rfl, .inl ⟨rfl, rfl⟩⟩
    · cases h
      exact ⟨rfl, .inr ⟨rfl, rfl⟩⟩
    · cases h
  · rintro ⟨rfl, ⟨rfl, rfl⟩ | ⟨rfl, rfl⟩⟩ <;> rfl

theorem omegaVariable?_comm (r : Relation) (a b : Expr) :
    omegaVariable? r a b = omegaVariable? r b a := by
  ext x
  simp only [omegaVariable?_eq_some_iff]
  grind

/-- In a tree that is read as intended, `ω` stands nowhere but in the equalities. -/
theorem omegaVariable?_eq_none {a b : Expr} (ha : a.omegaOnlyEquated) (hb : b.omegaOnlyEquated)
    (r : Relation) : omegaVariable? r a b = none := by
  cases h : omegaVariable? r a b with
  | none => rfl
  | some x =>
    obtain ⟨-, ⟨-, rfl⟩ | ⟨rfl, -⟩⟩ := omegaVariable?_eq_some_iff.1 h
    · cases hb
    · cases ha

/-- A relation in a tree that is read as intended is an equality with `ω`, or it has two such trees
as operands. -/
theorem omegaOnlyEquated_relation {r : Relation} {a b : Expr}
    (h : (relation r a b).omegaOnlyEquated) :
    (∃ x, omegaVariable? r a b = some x) ∨
      (omegaVariable? r a b = none ∧ a.omegaOnlyEquated ∧ b.omegaOnlyEquated) := by
  rw [omegaOnlyEquated, Bool.or_eq_true, Bool.and_eq_true] at h
  rcases h with h | ⟨ha, hb⟩
  · exact .inl (Option.isSome_iff_exists.1 h)
  · exact .inr ⟨omegaVariable?_eq_none ha hb r, ha, hb⟩

theorem omegaOnlyEquated_of_isNegated {r : Relation} {a b : Expr} (hr : r.isNegated)
    (h : (relation r a b).omegaOnlyEquated) : a.omegaOnlyEquated ∧ b.omegaOnlyEquated := by
  rcases omegaOnlyEquated_relation h with ⟨x, hx⟩ | ⟨-, hab⟩
  · obtain ⟨rfl, -⟩ := omegaVariable?_eq_some_iff.1 hx
    cases hr
  · exact hab

theorem exists_var_of_omegaOnlyEquated {a : Expr}
    (h : (eq a (constant .omega)).omegaOnlyEquated) : ∃ x, a = var x := by
  rcases omegaOnlyEquated_relation h with ⟨x, hx⟩ | ⟨-, -, hω⟩
  · obtain ⟨-, ⟨ha, -⟩ | ⟨-, hvar⟩⟩ := omegaVariable?_eq_some_iff.1 hx
    · exact ⟨x, ha⟩
    · cases hvar
  · cases hω

theorem omegaOnlyEquated_mem {a b : Expr} :
    (mem a b).omegaOnlyEquated ↔ a.omegaOnlyEquated ∧ b.omegaOnlyEquated := Bool.and_eq_true_iff

/-- A map that only changes the variables, and makes no leaf out of another tree, changes the
variable of an equality with `ω`. -/
theorem omegaVariable?_map {g : Expr → Expr} {f : Nat → Nat} (hvar : ∀ i, g (var i) = var (f i))
    (hconstant : ∀ c, g (constant c) = constant c)
    (hleaf : ∀ a, (g a).children = [] → a.children = []) (r : Relation) (a b : Expr) :
    omegaVariable? r (g a) (g b) = (omegaVariable? r a b).map f := by
  have hleaves {a : Expr} (h : (g a).children = []) : (∃ i, a = var i) ∨ ∃ c, a = constant c := by
    have ha := hleaf a h
    cases a <;> simp_all [children]
  cases h : omegaVariable? r (g a) (g b) with
  | none =>
    cases h' : omegaVariable? r a b with
    | none => rfl
    | some x =>
      obtain ⟨rfl, ⟨rfl, rfl⟩ | ⟨rfl, rfl⟩⟩ := omegaVariable?_eq_some_iff.1 h' <;>
        simp [hvar, hconstant, omegaVariable?] at h
  | some x =>
    obtain ⟨rfl, ⟨ha, hb⟩ | ⟨ha, hb⟩⟩ := omegaVariable?_eq_some_iff.1 h
    all_goals
      obtain ⟨i, rfl⟩ | ⟨c, rfl⟩ := hleaves (a := a) (by rw [ha]; rfl) <;>
        obtain ⟨j, rfl⟩ | ⟨d, rfl⟩ := hleaves (a := b) (by rw [hb]; rfl) <;>
          simp_all [omegaVariable?]

@[simp] theorem children_rename_eq_nil {f : Nat → Nat} {e : Expr} :
    (e.rename f).children = [] ↔ e.children = [] := by
  cases e <;> simp [rename, children]

@[simp] theorem children_renameFree_eq_nil {x y : Nat} {e : Expr} :
    (e.renameFree x y).children = [] ↔ e.children = [] := by
  cases e with
  | var i =>
    rw [renameFree]
    split <;> simp [children]
  | _ => simp [renameFree, children]

theorem omegaVariable?_rename (f : Nat → Nat) (r : Relation) (a b : Expr) :
    omegaVariable? r (a.rename f) (b.rename f) = (omegaVariable? r a b).map f :=
  omegaVariable?_map (fun _ => rfl) (fun _ => rfl) (fun _ => children_rename_eq_nil.1) r a b

theorem omegaVariable?_renameFree (x y : Nat) (r : Relation) (a b : Expr) :
    omegaVariable? r (a.renameFree x y) (b.renameFree x y) =
      (omegaVariable? r a b).map fun i => if i = x then y else i := by
  refine omegaVariable?_map (fun i => ?_) (fun _ => rfl) (fun _ => children_renameFree_eq_nil.1) r a b
  rw [renameFree]
  split <;> rfl

@[simp] theorem omegaOnlyEquated_rename (f : Nat → Nat) (e : Expr) :
    (e.rename f).omegaOnlyEquated = e.omegaOnlyEquated := by
  induction e with
  | relation r a b iha ihb =>
    simp [rename, omegaOnlyEquated, omegaVariable?_rename, iha, ihb]
  | _ => simp_all [rename, omegaOnlyEquated]

@[simp] theorem omegaOnlyEquated_renameFree (x y : Nat) (e : Expr) :
    (e.renameFree x y).omegaOnlyEquated = e.omegaOnlyEquated := by
  induction e with
  | var i =>
    rw [renameFree]
    split <;> rfl
  | relation r a b iha ihb =>
    simp [renameFree, omegaOnlyEquated, omegaVariable?_renameFree, iha, ihb]
  | quantified q z a ih =>
    rw [renameFree]
    split <;> simp_all [omegaOnlyEquated]
  | comprehension z d p ihd ihp =>
    rw [renameFree]
    split <;> simp_all [omegaOnlyEquated]
  | _ => simp_all [renameFree, omegaOnlyEquated]

/-! ## Spelling out the equalities -/

/-- The formula `(∅ ∈ x ∧ ∀z (z ∈ x → z ∪ {z} ∈ x))`. -/
def inductiveFormula (z x : Nat) : Expr :=
  conj (mem empty (var x)) (all z (imp (mem (var z) (var x))
    (mem (binary .union (var z) (unary .singleton (var z))) (var x))))

/-- The tree in which the equalities between a variable and `ω` are spelled out, with `z` bound. -/
def spellOmega (z : Nat) : Expr → Expr
  | var i => var i
  | constant c => constant c
  | relation r a b =>
    match omegaVariable? r a b with
    | some x => inductiveFormula z x
    | none => relation r (a.spellOmega z) (b.spellOmega z)
  | negation a => negation (a.spellOmega z)
  | connective c a b => connective c (a.spellOmega z) (b.spellOmega z)
  | quantified q x a => quantified q x (a.spellOmega z)
  | unary k a => unary k (a.spellOmega z)
  | binary k a b => binary k (a.spellOmega z) (b.spellOmega z)
  | comprehension x d p => comprehension x (d.spellOmega z) (p.spellOmega z)

theorem spellOmega_relation {r : Relation} {a b : Expr} (h : omegaVariable? r a b = none)
    (z : Nat) :
    (relation r a b).spellOmega z = relation r (a.spellOmega z) (b.spellOmega z) := by
  rw [spellOmega, h]

theorem spellOmega_eq {a b : Expr} (ha : a.omegaOnlyEquated) (hb : b.omegaOnlyEquated) (z : Nat) :
    (eq a b).spellOmega z = eq (a.spellOmega z) (b.spellOmega z) :=
  spellOmega_relation (omegaVariable?_eq_none ha hb .equality) z

theorem mem_occurrences_of_omegaVariable? {r : Relation} {a b : Expr} {x : Nat}
    (h : omegaVariable? r a b = some x) : x ∈ (relation r a b).occurrences := by
  obtain ⟨rfl, ⟨rfl, rfl⟩ | ⟨rfl, rfl⟩⟩ := omegaVariable?_eq_some_iff.1 h <;> simp

section

-- the equations are made here once, not by each of the proofs that follow
attribute [local simp] spellOmega

/-- Spelling out brings in the bound variable only. -/
theorem mem_of_mem_occurrences_spellOmega {z i : Nat} {e : Expr}
    (h : i ∈ (e.spellOmega z).occurrences) : i ∈ e.occurrences ∨ i = z := by
  induction e with
  | var j | constant c => exact .inl h
  | relation r a b iha ihb =>
    rw [spellOmega] at h
    split at h
    · rename_i x hx
      have hmem := mem_occurrences_of_omegaVariable? hx
      simp [inductiveFormula] at h
      grind
    · simp only [occurrences_relation, List.mem_append] at h ⊢
      grind
  | _ =>
    simp at h ⊢
    grind

end

/-- Once the equalities are spelled out, `ω` does not occur. -/
theorem omega_notMem_walk_spellOmega (z : Nat) {e : Expr} (he : e.omegaOnlyEquated) :
    constant .omega ∉ (e.spellOmega z).walk := by
  rw [walk_eq_preorder]
  induction e with
  | constant c => cases c <;> simp_all [omegaOnlyEquated, spellOmega, preorder]
  | relation r a b iha ihb =>
    rcases omegaOnlyEquated_relation he with ⟨x, hx⟩ | ⟨hnone, ha, hb⟩
    · simp [spellOmega, hx, inductiveFormula, preorder]
    · simp [spellOmega_relation hnone, preorder, iha ha, ihb hb]
  | _ => simp_all [omegaOnlyEquated, spellOmega, preorder]

/-- Without `ω` there is nothing to spell out. -/
theorem spellOmega_of_omega_notMem (z : Nat) {e : Expr} (he : constant .omega ∉ e.walk) :
    e.spellOmega z = e := by
  rw [walk_eq_preorder] at he
  induction e with
  | relation r a b iha ihb =>
    simp only [preorder, List.mem_cons, List.mem_append, reduceCtorEq, false_or, not_or] at he
    have hnone : omegaVariable? r a b = none := by
      cases h : omegaVariable? r a b with
      | none => rfl
      | some x =>
        obtain ⟨-, ⟨-, rfl⟩ | ⟨rfl, -⟩⟩ := omegaVariable?_eq_some_iff.1 h <;>
          simp [preorder] at he
    rw [spellOmega_relation hnone, iha he.1, ihb he.2]
  | _ => simp_all [spellOmega, preorder]

theorem spellOmega_rename {f : Nat → Nat} {z : Nat} {e : Expr} (hz : z ∉ e.occurrences) :
    (e.rename f).spellOmega z = (e.spellOmega z).rename (Function.update f z z) := by
  induction e with
  | var i =>
    have hne : i ≠ z := fun h => hz (by simp [h])
    simp [rename, spellOmega, hne]
  | constant c => rfl
  | relation r a b iha ihb =>
    rw [rename, spellOmega, spellOmega, omegaVariable?_rename]
    cases h : omegaVariable? r a b with
    | none =>
      simp only [occurrences_relation, List.mem_append, not_or] at hz
      simp [rename, iha hz.1, ihb hz.2]
    | some x =>
      have hne : x ≠ z := fun h' => hz (h' ▸ mem_occurrences_of_omegaVariable? h)
      simp [rename, inductiveFormula, hne]
  | quantified q x a ih =>
    simp only [occurrences_quantified, List.mem_cons, not_or] at hz
    simp [rename, spellOmega, ih hz.2, Function.update_of_ne (Ne.symm hz.1)]
  | comprehension x d p ihd ihp =>
    simp only [occurrences_comprehension, List.mem_cons, List.mem_append, not_or] at hz
    simp [rename, spellOmega, ihd hz.2.1, ihp hz.2.2, Function.update_of_ne (Ne.symm hz.1)]
  | _ => simp_all [rename, spellOmega]

theorem spellOmega_renameFree {x y z : Nat} (hx : z ≠ x) (e : Expr) :
    (e.renameFree x y).spellOmega z = (e.spellOmega z).renameFree x y := by
  induction e with
  | var i =>
    rw [renameFree, spellOmega, renameFree]
    split <;> rfl
  | constant c => rfl
  | relation r a b iha ihb =>
    rw [renameFree, spellOmega, spellOmega, omegaVariable?_renameFree]
    cases h : omegaVariable? r a b with
    | none => simp [renameFree, iha, ihb]
    | some i => by_cases hi : i = x <;> simp [renameFree, inductiveFormula, hx, hi]
  | quantified q i a ih =>
    simp only [renameFree, spellOmega]
    split <;> simp_all
  | comprehension i d p ihd ihp =>
    simp only [renameFree, spellOmega]
    split <;> simp_all
  | _ => simp_all [renameFree, spellOmega]

end Expr

open SetFormula.Expr

/-! ## The reading -/

namespace MembershipStructure

open Interpretation

variable {M : Type u} (S : MembershipStructure M)

/-- The set has the empty set as a member, and with each member `m` also `m ∪ {m}`. -/
def IsInductive (a : M) : Prop :=
  S.Mem (S.constant .emptySet) a ∧
    ∀ m, S.Mem m a → S.Mem (S.binary .union m (S.unary .singleton m)) a

/-- The set that a tree denotes and whether it is true, when an equality between a variable and `ω`
says that the variable is inductive. -/
def reading (ρ : Nat → M) : Expr → M × Prop
  | .var i => (ρ i, False)
  | .constant c => (S.constant c, False)
  | .relation r a b =>
    (S.constant .emptySet,
      match omegaVariable? r a b with
      | some x => S.IsInductive (ρ x)
      | none => S.Related r (reading ρ a).1 (reading ρ b).1)
  | .negation a => (S.constant .emptySet, ¬(reading ρ a).2)
  | .connective c a b => (S.constant .emptySet, c.Joins (reading ρ a).2 (reading ρ b).2)
  | .quantified q x a =>
    (S.constant .emptySet, q.Ranges fun m => (reading (Function.update ρ x m) a).2)
  | .unary k a => (S.unary k (reading ρ a).1, False)
  | .binary k a b => (S.binary k (reading ρ a).1 (reading ρ b).1, False)
  | .comprehension x d p =>
    (S.separate (reading ρ d).1 fun m => (reading (Function.update ρ x m) p).2, False)

/-- The formula is true in this reading. -/
def HoldsAsRead (ρ : Nat → M) (e : Expr) : Prop := (S.reading ρ e).2

theorem meaning_inductiveFormula {z x : Nat} (hz : z ≠ x) (ρ : Nat → M) :
    S.meaning ρ (inductiveFormula z x) = (S.constant .emptySet, S.IsInductive (ρ x)) := by
  simp [inductiveFormula, meaning, Related, Connective.Joins, Quantifier.Ranges, IsInductive,
    Function.update_of_ne hz.symm]

/-- The reading of a tree is the meaning of the tree with the equalities spelled out. -/
theorem reading_eq_meaning_spellOmega {z : Nat} {e : Expr} (hz : z ∉ e.occurrences)
    (ρ : Nat → M) : S.reading ρ e = S.meaning ρ (e.spellOmega z) := by
  induction e generalizing ρ with
  | var i | constant c => rfl
  | relation r a b iha ihb =>
    cases h : omegaVariable? r a b with
    | none =>
      simp only [occurrences_relation, List.mem_append, not_or] at hz
      rw [spellOmega_relation h, reading, h, meaning, iha hz.1, ihb hz.2]
    | some x =>
      have hne : z ≠ x := fun h' => hz (h' ▸ mem_occurrences_of_omegaVariable? h)
      rw [spellOmega, h, meaning_inductiveFormula S hne, reading, h]
  | connective c a b iha ihb | binary k a b iha ihb =>
    simp only [occurrences_connective, occurrences_binary, List.mem_append, not_or] at hz
    rw [reading, spellOmega, meaning, iha hz.1, ihb hz.2]
  | negation a ih | unary k a ih =>
    simp only [occurrences_negation, occurrences_unary] at hz
    rw [reading, spellOmega, meaning, ih hz]
  | quantified q x a ih =>
    simp only [occurrences_quantified, List.mem_cons, not_or] at hz
    simp only [reading, spellOmega, meaning, ih hz.2]
  | comprehension x d p ihd ihp =>
    simp only [occurrences_comprehension, List.mem_cons, List.mem_append, not_or] at hz
    simp only [reading, spellOmega, meaning, ihd hz.2.1, ihp hz.2.2]

theorem exists_notMem (l : List Nat) : ∃ z, z ∉ l := by
  obtain ⟨z, hz⟩ := Infinite.exists_notMem_finset l.toFinset
  exact ⟨z, fun h => hz (List.mem_toFinset.2 h)⟩

/-- Without `ω` the reading is the usual meaning. -/
theorem reading_eq_meaning {e : Expr} (he : Expr.constant .omega ∉ e.walk) (ρ : Nat → M) :
    S.reading ρ e = S.meaning ρ e := by
  obtain ⟨z, hz⟩ := exists_notMem e.occurrences
  rw [S.reading_eq_meaning_spellOmega hz, spellOmega_of_omega_notMem z he]

/-- A variable that does not occur may have any value. -/
theorem reading_update {e : Expr} {y : Nat} (hy : y ∉ e.occurrences) (ρ : Nat → M) (m : M) :
    S.reading (Function.update ρ y m) e = S.reading ρ e := by
  obtain ⟨z, hz⟩ := exists_notMem (y :: e.occurrences)
  rw [List.mem_cons, not_or] at hz
  have hy' : y ∉ (e.spellOmega z).occurrences := fun h =>
    (mem_of_mem_occurrences_spellOmega h).elim hy (Ne.symm hz.1)
  rw [S.reading_eq_meaning_spellOmega hz.2, S.reading_eq_meaning_spellOmega hz.2,
    S.meaning_update hy']

/-- Renaming all variables moves the renaming into the assignment. -/
theorem reading_rename {f : Nat → Nat} {e : Expr}
    (hf : ∀ i ∈ e.occurrences, ∀ j ∈ e.occurrences, f i = f j → i = j) (ρ : Nat → M) :
    S.reading ρ (e.rename f) = S.reading (ρ ∘ f) e := by
  obtain ⟨z, hz⟩ := exists_notMem (e.occurrences ++ (e.rename f).occurrences)
  rw [List.mem_append, not_or] at hz
  obtain ⟨hz, hz'⟩ := hz
  have hmoved {i : Nat} (hi : i ∈ e.occurrences) : f i ≠ z := by
    rintro rfl
    exact hz' (occurrences_rename f e ▸ List.mem_map_of_mem hi)
  have hne {i : Nat} (hi : i ∈ e.occurrences) : i ≠ z := fun h => hz (h ▸ hi)
  -- the renaming that keeps `z` merges no two variables of the spelled tree
  have hinj : ∀ i ∈ (e.spellOmega z).occurrences, ∀ j ∈ (e.spellOmega z).occurrences,
      Function.update f z z i = Function.update f z z j → i = j := by
    intro i hi j hj h
    rcases mem_of_mem_occurrences_spellOmega hi with hi' | hi' <;>
      rcases mem_of_mem_occurrences_spellOmega hj with hj' | hj'
    · rw [Function.update_of_ne (hne hi'), Function.update_of_ne (hne hj')] at h
      exact hf i hi' j hj' h
    · rw [hj', Function.update_of_ne (hne hi'), Function.update_self] at h
      exact absurd h (hmoved hi')
    · rw [hi', Function.update_of_ne (hne hj'), Function.update_self] at h
      exact absurd h.symm (hmoved hj')
    · rw [hi', hj']
  have hcomp : ρ ∘ Function.update f z z = Function.update (ρ ∘ f) z (ρ z) := by
    rw [Function.comp_update]
  rw [S.reading_eq_meaning_spellOmega hz', spellOmega_rename hz, S.meaning_rename hinj, hcomp,
    ← S.reading_eq_meaning_spellOmega hz, S.reading_update hz]

end MembershipStructure

namespace Elimination

variable {s : Switches} {e e' : Expr} {t t' : Taken}

/-! ## The rules -/

theorem targeted_spellOmega (s : Switches) (z : Nat) (e : Expr) :
    targeted s (e.spellOmega z) = targeted s e := by
  cases e with
  | relation r a b =>
    rw [spellOmega]
    split <;> rfl
  | _ => rfl

theorem isMemberwise_spellOmega (z : Nat) (e : Expr) :
    (e.spellOmega z).isMemberwise = e.isMemberwise := by
  cases e with
  | relation r a b =>
    rw [spellOmega]
    split <;> rfl
  | unary k a => cases k <;> rfl
  | _ => rfl

theorem targets_spellOmega (z : Nat) : Targets s (e.spellOmega z) ↔ Targets s e := by
  cases e with
  | relation r a b =>
    rw [spellOmega]
    split <;> simp [Targets, targeted, targetedConstant, inductiveFormula]
  | _ => rfl

theorem omegaVariable?_of_memberwise {a b : Expr}
    (h : (targeted s a ∧ a.isMemberwise) ∨ (targeted s b ∧ b.isMemberwise)) :
    omegaVariable? .equality a b = none := by
  cases hx : omegaVariable? .equality a b with
  | none => rfl
  | some x =>
    obtain ⟨-, ⟨rfl, rfl⟩ | ⟨rfl, rfl⟩⟩ := omegaVariable?_eq_some_iff.1 hx <;>
      simp [targeted] at h

/-- Spelling out turns a step into a step of the same rule, or the step only turns an equality with
`ω` over. -/
theorem Rewrites.spellOmega {z : Nat} (h : Rewrites s e e') (he : e.omegaOnlyEquated)
    (hz : z ∉ e.occurrences) :
    e.spellOmega z = e'.spellOmega z ∨ Rewrites s (e.spellOmega z) (e'.spellOmega z) := by
  cases h with
  | @negated r on hr a b =>
    obtain ⟨ha, hb⟩ := omegaOnlyEquated_of_isNegated hr he
    have hspelled (r : Relation) := spellOmega_relation (omegaVariable?_eq_none ha hb r) z
    rw [hspelled r, Expr.spellOmega, hspelled r.positive]
    exact .inr (.negated on hr _ _)
  | swap a b =>
    rcases omegaOnlyEquated_relation he with ⟨x, hx⟩ | ⟨hnone, ha, hb⟩
    · have hx' : omegaVariable? .equality b a = some x := omegaVariable?_comm .equality a b ▸ hx
      rw [Expr.spellOmega, Expr.spellOmega, hx, hx']
      exact .inl rfl
    · rw [spellOmega_relation hnone, spellOmega_relation (omegaVariable?_eq_none hb ha .equality)]
      exact .inr (.swap _ _)
  | @comprehension x d b on hb hd p =>
    have hspelled {a : Expr} (ha : x ∉ a.occurrences) : x ∉ (a.spellOmega z).occurrences := by
      intro hx
      rcases mem_of_mem_occurrences_spellOmega hx with hx | rfl
      · exact ha hx
      · simp at hz
    exact .inr (.comprehension on (hspelled hb) (hspelled hd) _)
  | intersection on a b c => exact .inr (.intersection on _ _ _)
  | difference on a b c => exact .inr (.difference on _ _ _)
  | union on a b c => exact .inr (.union on _ _ _)
  | pairSet on a b c =>
    obtain ⟨ha, hbc⟩ := omegaOnlyEquated_mem.1 he
    obtain ⟨hb, hc⟩ := Bool.and_eq_true_iff.1 hbc
    right
    change Rewrites s (mem (a.spellOmega z) (.binary .pairSet (b.spellOmega z) (c.spellOmega z)))
      (disj ((eq a b).spellOmega z) ((eq a c).spellOmega z))
    rw [spellOmega_eq ha hb, spellOmega_eq ha hc]
    exact .pairSet on _ _ _

/-- Spelling out turns a step that binds `y` into a step of the same rule, or the step spells out an
equality with `ω`. -/
theorem Introduces.spellOmega {y z : Nat} (h : Introduces s y e e') (he : e.omegaOnlyEquated)
    (hz : z ∉ e.occurrences) :
    (∃ x ∈ e.occurrences, e.spellOmega z = inductiveFormula z x ∧
      e'.spellOmega z = inductiveFormula y x) ∨
    Introduces s y (e.spellOmega z) (e'.spellOmega z) := by
  cases h with
  | omega on a =>
    obtain ⟨x, rfl⟩ := exists_var_of_omegaOnlyEquated he
    exact .inl ⟨x, by simp, rfl, rfl⟩
  | subset on a b => exact .inr (.subset on _ _)
  | singleton on a =>
    have ha : a.omegaOnlyEquated := he
    have heq := spellOmega_eq (a := var y) rfl ha z
    right
    change Introduces s y (.unary .singleton (a.spellOmega z))
      (.comprehension y (.unary .powerSet (a.spellOmega z)) ((eq (var y) a).spellOmega z))
    rw [heq]
    exact .singleton on _
  | @sameMembers a b on =>
    rw [spellOmega_relation (omegaVariable?_of_memberwise on)]
    rw [← targeted_spellOmega s z a, ← targeted_spellOmega s z b, ← isMemberwise_spellOmega z a,
      ← isMemberwise_spellOmega z b] at on
    exact .inr (.sameMembers on)
  | powerSet on a b => exact .inr (.powerSet on _ _)
  | comprehension on x d p b =>
    have hne : z ≠ x := by
      rintro rfl
      simp at hz
    right
    change Introduces s y
      (eq (.comprehension x (d.spellOmega z) (p.spellOmega z)) (b.spellOmega z))
      (all y (iff (mem (var y) (b.spellOmega z))
        (conj (mem (var y) (d.spellOmega z)) ((p.renameFree x y).spellOmega z))))
    rw [spellOmega_renameFree hne]
    exact .comprehension on _ _ _ _
  | bigIntersection on a f =>
    have hf : f.omegaOnlyEquated := (omegaOnlyEquated_mem.1 he).2
    have heq := spellOmega_eq (b := empty) hf rfl z
    right
    change Introduces s y (mem (a.spellOmega z) (.unary .bigIntersection (f.spellOmega z)))
      (conj (.negation ((eq f empty).spellOmega z))
        (all y (imp (mem (var y) (f.spellOmega z)) (mem (a.spellOmega z) (var y)))))
    rw [heq]
    exact .bigIntersection on _ _
  | bigUnion on a f => exact .inr (.bigUnion on _ _)
  | @memberOfNamed e on hmw a =>
    obtain ⟨-, he⟩ := omegaOnlyEquated_mem.1 he
    have heq := spellOmega_eq (b := var y) he rfl z
    right
    change Introduces s y (mem (a.spellOmega z) (e.spellOmega z))
      (ex y (conj ((eq e (var y)).spellOmega z) (mem (a.spellOmega z) (var y))))
    rw [heq]
    rw [← isMemberwise_spellOmega z] at hmw
    exact .memberOfNamed ((targets_spellOmega z).2 on) hmw _
  | @namedMemberOf e on b =>
    obtain ⟨he, -⟩ := omegaOnlyEquated_mem.1 he
    have heq := spellOmega_eq (b := var y) he rfl z
    right
    change Introduces s y (mem (e.spellOmega z) (b.spellOmega z))
      (ex y (conj ((eq e (var y)).spellOmega z) (mem (var y) (b.spellOmega z))))
    rw [heq]
    exact .namedMemberOf ((targets_spellOmega z).2 on) _
  | emptySet on a =>
    rcases omegaOnlyEquated_relation he with ⟨x, hx⟩ | ⟨hnone, -, -⟩
    · obtain ⟨-, ⟨-, hempty⟩ | ⟨-, hempty⟩⟩ := omegaVariable?_eq_some_iff.1 hx <;> cases hempty
    · rw [spellOmega_relation hnone]
      exact .inr (.emptySet on _)

/-! ## Unfolding -/

theorem Rewrites.omegaOnlyEquated (h : Rewrites s e e') (he : e.omegaOnlyEquated) :
    e'.omegaOnlyEquated := by
  cases h with
  | @negated r on hr a b =>
    obtain ⟨ha, hb⟩ := omegaOnlyEquated_of_isNegated hr he
    simp [Expr.omegaOnlyEquated, ha, hb]
  | swap a b =>
    rw [Expr.omegaOnlyEquated, omegaVariable?_comm, Bool.and_comm]
    exact he
  | _ =>
    simp [Expr.omegaOnlyEquated, omegaVariable?] at he ⊢
    grind

theorem Introduces.omegaOnlyEquated {y : Nat} (h : Introduces s y e e') (he : e.omegaOnlyEquated) :
    e'.omegaOnlyEquated := by
  cases h with
  | omega on a =>
    obtain ⟨x, rfl⟩ := exists_var_of_omegaOnlyEquated he
    rfl
  | @sameMembers a b on =>
    rcases omegaOnlyEquated_relation he with ⟨x, hx⟩ | ⟨-, ha, hb⟩
    · rw [omegaVariable?_of_memberwise on] at hx
      cases hx
    · simp [Expr.omegaOnlyEquated, ha, hb]
  | _ =>
    simp [Expr.omegaOnlyEquated, omegaVariable?] at he ⊢
    grind

/-- A leaf is not unfolded. -/
theorem Unfolds.eq_of_leaf (h : Unfolds s e t e' t') (he : e.children = []) : e' = e := by
  induction h with
  | refl e t => rfl
  | trans _ _ ih₁ ih₂ =>
    cases ih₁ he
    exact ih₂ he
  | rewrite h t => cases h <;> cases he
  | introduce h => cases h <;> cases he
  | _ => cases he

theorem omegaVariable?_of_unfolds {r : Relation} {a b a' b' : Expr} {x : Nat} {t₁ t₂ : Taken}
    (ha : Unfolds s a t a' t₁) (hb : Unfolds s b t₁ b' t₂) (h : omegaVariable? r a b = some x) :
    a' = a ∧ b' = b := by
  obtain ⟨-, ⟨rfl, rfl⟩ | ⟨rfl, rfl⟩⟩ := omegaVariable?_eq_some_iff.1 h <;>
    exact ⟨ha.eq_of_leaf rfl, hb.eq_of_leaf rfl⟩

theorem Unfolds.omegaOnlyEquated (h : Unfolds s e t e' t') (he : e.omegaOnlyEquated) :
    e'.omegaOnlyEquated := by
  induction h with
  | refl e t => exact he
  | trans _ _ ih₁ ih₂ => exact ih₂ (ih₁ he)
  | rewrite h t => exact h.omegaOnlyEquated he
  | introduce h => exact h.omegaOnlyEquated he
  | relation r ha hb iha ihb =>
    rcases omegaOnlyEquated_relation he with ⟨x, hx⟩ | ⟨-, ha', hb'⟩
    · obtain ⟨rfl, rfl⟩ := omegaVariable?_of_unfolds ha hb hx
      exact he
    · simp [Expr.omegaOnlyEquated, iha ha', ihb hb']
  | negation _ ih | quantified q x _ ih | unary k _ ih => exact ih he
  | connective c _ _ iha ihb | binary k _ _ iha ihb | comprehension x _ _ iha ihb =>
    rw [Expr.omegaOnlyEquated, Bool.and_eq_true] at he ⊢
    exact ⟨iha he.1, ihb he.2⟩

variable {M : Type u} (S : MembershipStructure M)

theorem Rewrites.reading_eq (h : Rewrites s e e') (he : e.omegaOnlyEquated) (ρ : Nat → M) :
    S.reading ρ e = S.reading ρ e' := by
  obtain ⟨z, hz⟩ := MembershipStructure.exists_notMem e.occurrences
  rw [S.reading_eq_meaning_spellOmega hz,
    S.reading_eq_meaning_spellOmega fun hz' => hz (h.occurrences hz')]
  rcases h.spellOmega he hz with hsame | hrule
  · rw [hsame]
  · exact hrule.meaning_eq S ρ

theorem Introduces.reading_eq {y : Nat} (h : Introduces s y e e') (hy : y ∉ e.occurrences)
    (he : e.omegaOnlyEquated) (ρ : Nat → M) : S.reading ρ e = S.reading ρ e' := by
  obtain ⟨z, hz⟩ := MembershipStructure.exists_notMem (y :: e.occurrences)
  rw [List.mem_cons, not_or] at hz
  rw [S.reading_eq_meaning_spellOmega hz.2,
    S.reading_eq_meaning_spellOmega fun hz' => (h.occurrences hz').elim hz.2 hz.1]
  rcases h.spellOmega he hz.2 with ⟨x, hx, hspelled, hspelled'⟩ | hrule
  · -- both formulas say that `x` is inductive, with another variable bound
    have hzx : z ≠ x := fun h => hz.2 (h ▸ hx)
    have hyx : y ≠ x := fun h => hy (h ▸ hx)
    rw [hspelled, hspelled', S.meaning_inductiveFormula hzx, S.meaning_inductiveFormula hyx]
  · have hy' : y ∉ (e.spellOmega z).occurrences := fun h =>
      (mem_of_mem_occurrences_spellOmega h).elim hy (Ne.symm hz.1)
    exact hrule.meaning_eq S hy' (.inr (omega_notMem_walk_spellOmega z he)) ρ

/-- Unfolding keeps the reading, since every variable that it binds is new to the tree. -/
theorem Unfolds.reading_eq (h : Unfolds s e t e' t') (ht : t.Covers e) (he : e.omegaOnlyEquated)
    (ρ : Nat → M) : S.reading ρ e = S.reading ρ e' := by
  induction h generalizing ρ with
  | refl e t => rfl
  | trans h₁ h₂ ih₁ ih₂ =>
    rw [ih₁ ht he, ih₂ (h₁.covers ht) (h₁.omegaOnlyEquated he)]
  | rewrite h t => exact h.reading_eq S he ρ
  | introduce h => exact h.reading_eq S ht.fresh_notMem_occurrences he ρ
  | relation r ha hb iha ihb =>
    rcases omegaOnlyEquated_relation he with ⟨x, hx⟩ | ⟨hnone, ha', hb'⟩
    · obtain ⟨rfl, rfl⟩ := omegaVariable?_of_unfolds ha hb hx
      rfl
    · have hnone' := omegaVariable?_eq_none (ha.omegaOnlyEquated ha') (hb.omegaOnlyEquated hb') r
      rw [MembershipStructure.reading, MembershipStructure.reading, hnone, hnone',
        iha (ht.of_mem_children (by simp [children])) ha',
        ihb ((ht.of_mem_children (by simp [children])).mono fun _ => ha.mem_of_mem) hb']
  | negation _ ih | unary k _ ih =>
    rw [MembershipStructure.reading, MembershipStructure.reading,
      ih (ht.of_mem_children (by simp [children])) he]
  | quantified q x _ ih =>
    simp only [MembershipStructure.reading, ih (ht.of_mem_children (by simp [children])) he]
  | connective c ha hb iha ihb | binary k ha hb iha ihb =>
    rw [Expr.omegaOnlyEquated, Bool.and_eq_true] at he
    rw [MembershipStructure.reading, MembershipStructure.reading,
      iha (ht.of_mem_children (by simp [children])) he.1,
      ihb ((ht.of_mem_children (by simp [children])).mono fun _ => ha.mem_of_mem) he.2]
  | comprehension x hd hp ihd ihp =>
    rename_i d p d' p' t t₁ t₂
    rw [Expr.omegaOnlyEquated, Bool.and_eq_true] at he
    have hmem : t.Covers (mem (var x) d) := ht.of_mem_children (by simp [children])
    have hdomain : t.Covers d := hmem.of_mem_children (by simp [children])
    have hpredicate : t.Covers p := ht.of_mem_children (by simp [children])
    simp only [MembershipStructure.reading, ihd hdomain he.1,
      ihp (hpredicate.mono fun _ => hd.mem_of_mem) he.2]

end Elimination

open Elimination

/-- **What eliminating `ω` means.** Take a formula in which `ω` occurs in equalities with a variable
only. In every membership structure and under every assignment `ρ`, the result of elimination is
true if and only if the formula is true under `ρ` after the renaming of letters, when an equality
with `ω` says that the variable is inductive. This reading matters for the result only where `ω` is
left; if it is not, the result is true in the usual sense. -/
theorem eliminate_reads_omega_as_inductive (s : Switches) (depth : Nat) (e e' : Expr)
    (h : eliminate s depth e = some e') (hω : e.omegaOnlyEquated) {M : Type u}
    (S : MembershipStructure M) (ρ : Nat → M) :
    (S.HoldsAsRead ρ e' ↔ S.HoldsAsRead (ρ ∘ letterRenaming s e) e) ∧
      (Expr.constant .omega ∉ e'.walk →
        (S.Holds ρ e' ↔ S.HoldsAsRead (ρ ∘ letterRenaming s e) e)) := by
  obtain ⟨e₁, t₁, t', hletters, hunfolds⟩ := eliminate_unfolds h
  obtain ⟨rfl, hcovers⟩ := run_letters_eq_some hletters
  have hread : S.reading ρ e' = S.reading (ρ ∘ letterRenaming s e) e := by
    rw [← hunfolds.reading_eq S hcovers ((omegaOnlyEquated_rename _ e).trans hω),
      S.reading_rename fun i hi j hj => letterRenaming_injOn s e hi hj]
  refine ⟨by rw [MembershipStructure.HoldsAsRead, hread]; rfl, fun hnone => ?_⟩
  rw [Interpretation.Holds, ← S.reading_eq_meaning hnone, hread]
  rfl

/-- The formula `∃y (y ∈ x ∧ ω = y)`. -/
def hasOmega : Expr :=
  ex (indexOfLetter 'y') (conj (mem (var (indexOfLetter 'y')) (var (indexOfLetter 'x')))
    (eq (constant .omega) (var (indexOfLetter 'y'))))

/-- The least inductive set is inductive, so with every switch on the result says of `{ω}` what is
true of it: that it has an inductive member. -/
theorem eliminate_reads_omega_as_inductive_member :
    hasOmega.omegaOnlyEquated ∧
      ∃ e', eliminate .allOn 60 hasOmega = some e' ∧ Expr.constant .omega ∉ e'.walk ∧
        MembershipStructure.zfSets.{0}.Holds (fun _ => {ZFSet.omega}) e' := by
  have hω : hasOmega.omegaOnlyEquated := by decide
  have hsome : (eliminate .allOn 60 hasOmega).isSome := by decide +kernel
  obtain ⟨e', he'⟩ := Option.isSome_iff_exists.1 hsome
  have hgone : (eliminate .allOn 60 hasOmega).all
      fun e' => !e'.walk.contains (constant .omega) := by
    decide +kernel
  rw [he', Option.all_some, Bool.not_eq_true', ← Bool.not_eq_true, List.contains_iff_mem] at hgone
  refine ⟨hω, e', he', hgone, ?_⟩
  have hiff := (eliminate_reads_omega_as_inductive .allOn 60 hasOmega e' he' hω
    MembershipStructure.zfSets.{0} (fun _ => {ZFSet.omega})).2 hgone
  refine hiff.2 ⟨ZFSet.omega, ZFSet.mem_singleton.2 rfl, ZFSet.omega_zero, fun m hm => ?_⟩
  have hsucc : m ∪ {m} = insert m m := by
    ext i
    rw [ZFSet.mem_union, ZFSet.mem_singleton, ZFSet.mem_insert_iff, or_comm]
  change m ∪ {m} ∈ ZFSet.omega
  rw [hsucc]
  exact ZFSet.omega_succ hm

end SetFormula
