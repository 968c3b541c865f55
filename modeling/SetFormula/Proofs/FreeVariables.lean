import SetFormula.Proofs.Hygiene
import SetFormula.Proofs.Letters

/-!
# Elimination captures no variable

A variable is free in a tree if it occurs outside the scope of every binder of it; the domain of a
comprehension lies outside the scope of its variable.

* Renaming all variables without merging any two renames the free ones (`freeVariables_rename`), and
  so does renaming the free occurrences of one variable to a new one (`freeVariables_renameFree`).
* Each rule keeps the free variables: those that bind no new variable outright
  (`Rewrites.freeVariables_eq`), those that bind `y` if `y` does not occur
  (`Introduces.freeVariables_eq`). The numbers of the tree are taken all along, so a whole unfolding
  keeps them (`Unfolds.freeVariables_eq`), the rule for `ω` included.
-/

namespace SetFormula

namespace Expr

/-- The variables that occur outside the scope of every binder of them. -/
def freeVariables : Expr → Finset Nat
  | var i => {i}
  | constant _ => ∅
  | relation _ a b | connective _ a b | binary _ a b => a.freeVariables ∪ b.freeVariables
  | negation a | unary _ a => a.freeVariables
  | quantified _ x a => a.freeVariables.erase x
  | comprehension x d p => d.freeVariables ∪ p.freeVariables.erase x

theorem mem_occurrences_of_mem_freeVariables {e : Expr} {i : Nat} (h : i ∈ e.freeVariables) :
    i ∈ e.occurrences := by
  induction e with
  | var j => simpa [freeVariables] using h
  | constant c => simp [freeVariables] at h
  | _ =>
    simp [freeVariables] at h ⊢
    grind

theorem notMem_freeVariables {e : Expr} {y : Nat} (hy : y ∉ e.occurrences) :
    y ∉ e.freeVariables := fun h => hy (mem_occurrences_of_mem_freeVariables h)

/-! ## Renaming -/

/-- Below a binder, a renaming that merges no other variable with the bound one commutes with
leaving the bound variable out. -/
theorem image_erase_of_injOn {f : Nat → Nat} {x : Nat} {l : Finset Nat}
    (h : ∀ i ∈ l, f i = f x → i = x) : (l.erase x).image f = (l.image f).erase (f x) := by
  ext j
  simp only [Finset.mem_image, Finset.mem_erase]
  constructor
  · rintro ⟨i, ⟨hix, hi⟩, rfl⟩
    exact ⟨fun hfi => hix (h i hi hfi), i, hi, rfl⟩
  · rintro ⟨hj, i, hi, rfl⟩
    exact ⟨i, ⟨fun hix => hj (by rw [hix]), hi⟩, rfl⟩

/-- Renaming all variables without merging any two renames the free ones. -/
theorem freeVariables_rename {f : Nat → Nat} {e : Expr}
    (hf : ∀ i ∈ e.occurrences, ∀ j ∈ e.occurrences, f i = f j → i = j) :
    (e.rename f).freeVariables = e.freeVariables.image f := by
  induction e with
  | var i => rfl
  | constant c => rfl
  | relation r a b iha ihb | connective c a b iha ihb | binary k a b iha ihb =>
    simp only [occurrences_relation, occurrences_connective, occurrences_binary,
      List.mem_append] at hf
    rw [rename, freeVariables, freeVariables, iha fun i hi j hj => hf i (.inl hi) j (.inl hj),
      ihb fun i hi j hj => hf i (.inr hi) j (.inr hj), Finset.image_union]
  | negation a ih | unary k a ih =>
    simp only [occurrences_negation, occurrences_unary] at hf
    rw [rename, freeVariables, freeVariables, ih hf]
  | quantified q x a ih =>
    simp only [occurrences_quantified, List.mem_cons] at hf
    have hx : ∀ i ∈ a.freeVariables, f i = f x → i = x := fun i hi =>
      hf i (.inr (mem_occurrences_of_mem_freeVariables hi)) x (.inl rfl)
    rw [rename, freeVariables, freeVariables, ih fun i hi j hj => hf i (.inr hi) j (.inr hj),
      image_erase_of_injOn hx]
  | comprehension x d p ihd ihp =>
    simp only [occurrences_comprehension, List.mem_cons, List.mem_append] at hf
    have hx : ∀ i ∈ p.freeVariables, f i = f x → i = x := fun i hi =>
      hf i (.inr (.inr (mem_occurrences_of_mem_freeVariables hi))) x (.inl rfl)
    rw [rename, freeVariables, freeVariables,
      ihd fun i hi j hj => hf i (.inr (.inl hi)) j (.inr (.inl hj)),
      ihp fun i hi j hj => hf i (.inr (.inr hi)) j (.inr (.inr hj)), Finset.image_union,
      image_erase_of_injOn hx]

/-- Renaming the free occurrences of `x` to a new variable replaces `x` among the free variables. -/
theorem freeVariables_renameFree {x y : Nat} {e : Expr} (hy : y ∉ e.occurrences) :
    (e.renameFree x y).freeVariables = e.freeVariables.image fun i => if i = x then y else i := by
  -- a binder of `x` leaves no free `x` to rename, and a binder of another variable is not `y`
  have hbinder {z : Nat} {a : Expr} (hz : y ≠ z) (ha : y ∉ a.occurrences)
      (ih : (a.renameFree x y).freeVariables =
        a.freeVariables.image fun i => if i = x then y else i) :
      (if z = x then a else a.renameFree x y).freeVariables.erase z =
        (a.freeVariables.erase z).image fun i => if i = x then y else i := by
    have hya := notMem_freeVariables ha
    split
    · rename_i hzx
      ext i
      simp only [Finset.mem_erase, Finset.mem_image]
      grind
    · rename_i hzx
      rw [ih]
      ext i
      simp only [Finset.mem_erase, Finset.mem_image]
      grind
  induction e with
  | var i =>
    rw [renameFree]
    split <;> simp_all [freeVariables]
  | constant c => rfl
  | relation r a b iha ihb | connective c a b iha ihb | binary k a b iha ihb =>
    simp only [occurrences_relation, occurrences_connective, occurrences_binary, List.mem_append,
      not_or] at hy
    rw [renameFree, freeVariables, freeVariables, iha hy.1, ihb hy.2, Finset.image_union]
  | negation a ih | unary k a ih =>
    simp only [occurrences_negation, occurrences_unary] at hy
    rw [renameFree, freeVariables, freeVariables, ih hy]
  | quantified q z a ih =>
    simp only [occurrences_quantified, List.mem_cons, not_or] at hy
    rw [renameFree, freeVariables, freeVariables, hbinder hy.1 hy.2 (ih hy.2)]
  | comprehension z d p ihd ihp =>
    simp only [occurrences_comprehension, List.mem_cons, List.mem_append, not_or] at hy
    rw [renameFree, freeVariables, freeVariables, ihd hy.2.1,
      hbinder hy.1 hy.2.2 (ihp hy.2.2), Finset.image_union]

end Expr

namespace Elimination

open SetFormula.Expr

variable {s : Switches} {e e' : Expr} {t t' : Taken}

/-! ## The rules -/

theorem Rewrites.freeVariables_eq (h : Rewrites s e e') : e'.freeVariables = e.freeVariables := by
  cases h with
  | negated on hr a b => rfl
  | swap a b => exact Finset.union_comm _ _
  | comprehension on hb hd p =>
    -- the variable of the comprehension is new to the other side and to the domain
    have hb' := notMem_freeVariables hb
    have hd' := notMem_freeVariables hd
    ext i
    simp only [freeVariables, Finset.mem_erase, Finset.mem_union, Finset.mem_singleton]
    grind
  | intersection on a b c | difference on a b c | union on a b c | pairSet on a b c =>
    -- the member is copied, the parts of the set are not
    exact (Finset.union_union_distrib_left _ _ _).symm

theorem Introduces.freeVariables_eq {y : Nat} (h : Introduces s y e e') (hy : y ∉ e.occurrences) :
    e'.freeVariables = e.freeVariables := by
  have hfree := notMem_freeVariables hy
  cases h with
  | comprehension on x d p b =>
    simp only [occurrences_relation, occurrences_comprehension, List.mem_append, List.mem_cons,
      not_or] at hy
    have hp := notMem_freeVariables hy.1.2.2
    ext i
    simp only [freeVariables, freeVariables_renameFree hy.1.2.2, Finset.mem_erase,
      Finset.mem_union, Finset.mem_singleton, Finset.mem_image] at hfree ⊢
    grind
  | _ =>
    ext i
    simp only [freeVariables, Finset.mem_erase, Finset.mem_union, Finset.mem_singleton,
      Finset.notMem_empty, or_false] at hfree ⊢
    grind

/-! ## Unfolding -/

/-- Unfolding keeps the free variables, since every variable that it binds is new to the tree. -/
theorem Unfolds.freeVariables_eq (h : Unfolds s e t e' t') (ht : t.Covers e) :
    e'.freeVariables = e.freeVariables := by
  induction h with
  | refl e t => rfl
  | trans h₁ h₂ ih₁ ih₂ => rw [ih₂ (h₁.covers ht), ih₁ ht]
  | rewrite h t => exact h.freeVariables_eq
  | introduce h => exact h.freeVariables_eq ht.fresh_notMem_occurrences
  | negation _ ih | unary k _ ih | quantified q x _ ih =>
    rw [freeVariables, freeVariables, ih (ht.of_mem_children (by simp [children]))]
  | relation r ha hb iha ihb | connective c ha hb iha ihb | binary k ha hb iha ihb =>
    -- the right part starts from the numbers that the left one leaves
    rw [freeVariables, freeVariables, iha (ht.of_mem_children (by simp [children])),
      ihb ((ht.of_mem_children (by simp [children])).mono fun _ => ha.mem_of_mem)]
  | comprehension x hd hp ihd ihp =>
    rename_i d p d' p' t t₁ t₂
    have hmem : t.Covers (mem (var x) d) := ht.of_mem_children (by simp [children])
    have hdomain : t.Covers d := hmem.of_mem_children (by simp [children])
    have hpredicate : t.Covers p := ht.of_mem_children (by simp [children])
    rw [freeVariables, freeVariables, ihd hdomain, ihp (hpredicate.mono fun _ => hd.mem_of_mem)]

end Elimination

open Elimination in
/-- **Elimination captures no variable**: the free variables of the result are those of the tree
after the renaming of letters. None is captured, dropped or invented, whatever the switches. -/
theorem eliminate_freeVariables (s : Switches) (depth : Nat) (e e' : Expr)
    (h : eliminate s depth e = some e') :
    e'.freeVariables = e.freeVariables.image (letterRenaming s e) := by
  obtain ⟨e₁, t₁, t', hletters, hunfolds⟩ := eliminate_unfolds h
  obtain ⟨rfl, hcovers⟩ := run_letters_eq_some hletters
  rw [hunfolds.freeVariables_eq hcovers,
    Expr.freeVariables_rename fun i hi j hj => letterRenaming_injOn s e hi hj]

open SetFormula.Expr in
/-- The formula `v₀ = {v₀ ∈ v₀ | (v₀ ∈ x ∧ x = ω)}`, where one name stands for two variables. -/
def separationOfItself : Expr :=
  eq (var 0) (comprehension 0 (var 0) (conj (mem (var 0) (var (indexOfLetter 'x')))
    (eq (var (indexOfLetter 'x')) (constant .omega))))

open Elimination in
/-- The variable of the comprehension is renamed, the outer one of the same name stays, and `x`
becomes `v₁`. -/
theorem eliminate_freeVariables_separation :
    separationOfItself.freeVariables = {0, indexOfLetter 'x'} ∧
    letterRenaming .allOn separationOfItself (indexOfLetter 'x') = 1 ∧
    ∃ e', eliminate .allOn 60 separationOfItself = some e' ∧ e'.freeVariables = {0, 1} := by
  have hsome : (eliminate .allOn 60 separationOfItself).isSome := by decide +kernel
  obtain ⟨e', he'⟩ := Option.isSome_iff_exists.1 hsome
  refine ⟨by decide, by decide, e', he', ?_⟩
  rw [eliminate_freeVariables .allOn 60 separationOfItself e' he']
  decide

end SetFormula
