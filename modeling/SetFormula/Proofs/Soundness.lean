import SetFormula.Proofs.Hygiene
import SetFormula.Proofs.Letters
import SetFormula.Proofs.Meaning

/-!
# Elimination preserves meaning

Each rule replaces a tree by one of the same meaning, in every membership structure: those that bind
no new variable outright (`Rewrites.meaning_eq`), those that bind `y` if `y` does not occur
(`Introduces.meaning_eq`). The rule for `ω` is the exception, since `ω` may be any set. The indices
of the tree are taken all along, so every fresh variable is new, and a whole unfolding keeps the
meaning (`Unfolds.meaning_eq`). The first pass renames letters without merging variables, which
moves the renaming into the assignment.

`MembershipStructure.zfSets` is the structure of the sets of ZFC.
-/

namespace SetFormula

universe u

open SetFormula.Expr

variable {M : Type u}

namespace MembershipStructure

/-- Two sets are equal if and only if they have the same members. -/
theorem eq_iff (S : MembershipStructure M) {a b : M} : a = b ↔ ∀ z, S.Mem z a ↔ S.Mem z b :=
  ⟨fun h z => by rw [h], S.ext⟩

/-- The sets of ZFC, with the least inductive set as `ω`. -/
def zfSets : MembershipStructure ZFSet.{u} where
  Mem a b := a ∈ b
  constant
    | .emptySet => ∅
    | .omega => ZFSet.omega
  unary
    | .singleton, a => {a}
    | .powerSet, a => ZFSet.powerset a
    | .bigUnion, a => ZFSet.sUnion a
    | .bigIntersection, a => ZFSet.sInter a
  binary
    | .union, a, b => a ∪ b
    | .intersection, a, b => a ∩ b
    | .difference, a, b => a \ b
    | .pairSet, a, b => {a, b}
  separate a P := ZFSet.sep P a
  ext h := ZFSet.ext h
  notMem_emptySet := ZFSet.notMem_empty
  mem_singleton := ZFSet.mem_singleton
  mem_powerSet := ZFSet.mem_powerset
  mem_bigUnion := ZFSet.mem_sUnion
  mem_bigIntersection := by
    intro z a
    simp only [ZFSet.sInter, ZFSet.mem_sep, ZFSet.mem_sUnion]
    constructor
    · rintro ⟨⟨b, hb, -⟩, h⟩
      exact ⟨⟨b, hb⟩, h⟩
    · rintro ⟨⟨b, hb⟩, h⟩
      exact ⟨⟨b, hb, h b hb⟩, h⟩
  mem_union := ZFSet.mem_union
  mem_intersection := ZFSet.mem_inter
  mem_difference := ZFSet.mem_sdiff
  mem_pairSet := ZFSet.mem_pair
  mem_separate := ZFSet.mem_sep

end MembershipStructure

namespace Elimination

variable {s : Switches} {e e' : Expr} {t t' : Taken} (S : MembershipStructure M)

/-! ## The rules -/

theorem Rewrites.meaning_eq (h : Rewrites s e e') (ρ : Nat → M) :
    S.meaning ρ e = S.meaning ρ e' := by
  refine Prod.ext ?_ (propext ?_)
  · cases h <;> rfl
  · cases h with
    | negated on hr a b =>
      rename_i r
      cases r <;> simp_all [Interpretation.meaning, Interpretation.Related,
        Relation.positive, Relation.isNegated]
    | swap a b => exact eq_comm
    | comprehension on hb hd p =>
      simp [Interpretation.meaning, Interpretation.Related, Connective.Joins,
        Quantifier.Ranges, S.meaning_update hb, S.meaning_update hd, S.eq_iff, S.mem_separate]
      grind
    | intersection on a b c => exact S.mem_intersection
    | difference on a b c => exact S.mem_difference
    | union on a b c => exact S.mem_union
    | pairSet on a b c => exact S.mem_pairSet

open Interpretation in
/-- A rule that binds a new variable keeps the meaning, that for `ω` excepted. -/
theorem Introduces.meaning_eq {y : Nat} (h : Introduces s y e e') (hy : y ∉ e.occurrences)
    (hω : s .omega = false ∨ .constant .omega ∉ e.walk) (ρ : Nat → M) :
    S.meaning ρ e = S.meaning ρ e' := by
  cases h with
  | singleton on a =>
    simp only [occurrences_unary] at hy
    refine Prod.ext (S.ext fun z => ?_) rfl
    simp only [meaning, Related, S.meaning_update hy, Function.update_self, S.mem_singleton,
      S.mem_separate, S.mem_powerSet]
    -- a set belongs to its own power set
    exact ⟨fun h => ⟨fun w hw => h ▸ hw, h⟩, And.right⟩
  | subset on a b =>
    simp only [occurrences_relation, List.mem_append, not_or] at hy
    refine Prod.ext rfl (propext ?_)
    simp only [meaning, Related, Connective.Joins, Quantifier.Ranges, S.meaning_update hy.1,
      S.meaning_update hy.2, Function.update_self]
  | sameMembers on =>
    simp only [occurrences_relation, List.mem_append, not_or] at hy
    refine Prod.ext rfl (propext ?_)
    simp only [meaning, Related, Connective.Joins, Quantifier.Ranges, S.meaning_update hy.1,
      S.meaning_update hy.2, Function.update_self]
    exact S.eq_iff
  | powerSet on a b =>
    simp only [occurrences_relation, occurrences_unary, List.mem_append, not_or] at hy
    refine Prod.ext rfl (propext ?_)
    simp only [meaning, Related, Connective.Joins, Quantifier.Ranges, S.meaning_update hy.1,
      S.meaning_update hy.2, Function.update_self, S.eq_iff (a := S.unary _ _), S.mem_powerSet]
    exact forall_congr' fun z => Iff.comm
  | comprehension on x d p b =>
    simp only [occurrences_relation, occurrences_comprehension, List.mem_append, List.mem_cons,
      not_or] at hy
    refine Prod.ext rfl (propext ?_)
    simp only [meaning, Related, Connective.Joins, Quantifier.Ranges, S.meaning_update hy.1.2.1,
      S.meaning_update hy.2, S.meaning_renameFree hy.1.2.2, Function.update_self,
      S.eq_iff (a := S.separate _ _), S.mem_separate]
    refine forall_congr' fun z => Iff.comm.trans (iff_congr .rfl (and_congr_right fun _ => ?_))
    -- the new variable occurs nowhere in the predicate, so only the old one matters there
    rw [Function.update_comm hy.1.1, S.meaning_update hy.1.2.2]
  | bigIntersection on a f =>
    simp only [occurrences_relation, occurrences_unary, List.mem_append, not_or] at hy
    refine Prod.ext rfl (propext ?_)
    simp only [meaning, Related, Connective.Joins, Quantifier.Ranges, S.meaning_update hy.1,
      S.meaning_update hy.2, Function.update_self, S.mem_bigIntersection]
    refine and_congr_left fun _ => ?_
    -- a set differs from the empty one if and only if it has a member
    rw [S.eq_iff, not_forall]
    exact exists_congr fun z => by simp [S.notMem_emptySet]
  | bigUnion on a f =>
    simp only [occurrences_relation, occurrences_unary, List.mem_append, not_or] at hy
    refine Prod.ext rfl (propext ?_)
    simp only [meaning, Related, Connective.Joins, Quantifier.Ranges, S.meaning_update hy.1,
      S.meaning_update hy.2, Function.update_self, S.mem_bigUnion]
  | memberOfNamed on he a =>
    simp only [occurrences_relation, List.mem_append, not_or] at hy
    refine Prod.ext rfl (propext ?_)
    simp only [meaning, Related, Connective.Joins, Quantifier.Ranges, S.meaning_update hy.1,
      S.meaning_update hy.2, Function.update_self, exists_eq_left']
  | namedMemberOf on b =>
    simp only [occurrences_relation, List.mem_append, not_or] at hy
    refine Prod.ext rfl (propext ?_)
    simp only [meaning, Related, Connective.Joins, Quantifier.Ranges, S.meaning_update hy.1,
      S.meaning_update hy.2, Function.update_self, exists_eq_left']
  | emptySet on a =>
    simp only [occurrences_relation, List.mem_append, not_or] at hy
    refine Prod.ext rfl (propext ?_)
    simp only [meaning, Related, Quantifier.Ranges, S.meaning_update hy.1, Function.update_self,
      S.eq_iff, not_exists, S.notMem_emptySet, iff_false]
  | omega on a =>
    rw [walk_eq_preorder] at hω
    simp [preorder, on] at hω

/-! ## Unfolding -/

/-- The indices of the tree are taken, and no `ω` in it is to be eliminated. -/
structure Sheltered (s : Switches) (t : Taken) (e : Expr) : Prop where
  covers : t.Covers e
  omega : s .omega = false ∨ .constant .omega ∉ e.walk

theorem Sheltered.of_mem_children (h : Sheltered s t e) {a : Expr} (ha : a ∈ e.children) :
    Sheltered s t a where
  covers := h.covers.of_mem_children ha
  omega := by
    refine h.omega.imp_right fun hω hmem => hω ?_
    rw [walk_eq_preorder] at hmem ⊢
    rw [preorder_eq_cons]
    exact List.mem_cons_of_mem _ (List.mem_flatMap.2 ⟨a, ha, hmem⟩)

theorem Sheltered.mono (h : Sheltered s t e) (ht : ∀ a ∈ t, a ∈ t') : Sheltered s t' e :=
  ⟨h.covers.mono ht, h.omega⟩

theorem Unfolds.sheltered (h : Unfolds s e t e' t') (he : Sheltered s t e) : Sheltered s t' e' :=
  ⟨h.covers he.covers, he.omega.imp_right fun hω hmem => hω (h.omega_mem hmem)⟩

/-- Unfolding keeps the meaning, since every variable that it binds is new to the tree. -/
theorem Unfolds.meaning_eq (h : Unfolds s e t e' t') (he : Sheltered s t e) (ρ : Nat → M) :
    S.meaning ρ e = S.meaning ρ e' := by
  induction h generalizing ρ with
  | refl e t => rfl
  | trans h₁ h₂ ih₁ ih₂ => rw [ih₁ he, ih₂ (h₁.sheltered he)]
  | rewrite h t => exact h.meaning_eq S ρ
  | introduce h =>
    exact h.meaning_eq S (he.covers.fresh_notMem_occurrences) he.omega ρ
  | negation _ ih | unary k _ ih =>
    rw [Interpretation.meaning, Interpretation.meaning,
      ih (he.of_mem_children (by simp [children]))]
  | quantified q x _ ih =>
    simp only [Interpretation.meaning, ih (he.of_mem_children (by simp [children]))]
  | relation r ha hb iha ihb | connective c ha hb iha ihb | binary k ha hb iha ihb =>
    -- the right part starts from the numbers that the left one leaves
    rw [Interpretation.meaning, Interpretation.meaning,
      iha (he.of_mem_children (by simp [children])),
      ihb ((he.of_mem_children (by simp [children])).mono fun _ => ha.mem_of_mem)]
  | comprehension x hd hp ihd ihp =>
    rename_i d p d' p' t t₁ t₂
    have hmem : Sheltered s t (mem (var x) d) := he.of_mem_children (by simp [children])
    have hdomain : Sheltered s t d := hmem.of_mem_children (by simp [children])
    have hpredicate : Sheltered s t p := he.of_mem_children (by simp [children])
    simp only [Interpretation.meaning, ihd hdomain,
      ihp (hpredicate.mono fun _ => hd.mem_of_mem)]

end Elimination

open Elimination in
/-- **Elimination preserves meaning**: in every membership structure and under every assignment `ρ`,
the result is true if and only if the formula is true under `ρ` after the renaming of letters,
provided that `ω` is not eliminated or does not occur. No condition on the sorts is needed. -/
theorem eliminate_preserves_meaning (s : Switches) (depth : Nat) (e e' : Expr)
    (h : eliminate s depth e = some e')
    (hω : s .omega = false ∨ Expr.constant .omega ∉ e.walk) {M : Type u}
    (S : MembershipStructure M) (ρ : Nat → M) :
    S.Holds ρ e' ↔ S.Holds (ρ ∘ letterRenaming s e) e := by
  obtain ⟨e₁, t₁, t', hletters, hunfolds⟩ := eliminate_unfolds h
  obtain ⟨rfl, hcovers⟩ := run_letters_eq_some hletters
  have hω' : s .omega = false ∨
      Expr.constant .omega ∉ (e.rename (letterRenaming s e)).walk :=
    hω.imp_right fun hω hmem => hω (omega_mem_walk_rename hmem)
  rw [Interpretation.Holds, Interpretation.Holds,
    ← hunfolds.meaning_eq S ⟨hcovers, hω'⟩ ρ,
    S.meaning_rename (fun i hi j hj => letterRenaming_injOn s e hi hj) ρ]

/-- The formula `x ∈ {v₀ ∈ v₁ | v₀ ⊈ x}`. -/
def memSeparation : Expr :=
  mem (var (indexOfLetter 'x'))
    (comprehension 0 (var 1) (relation .notSubset (var 0) (var (indexOfLetter 'x'))))

open Elimination in
/-- With every switch on, the letter becomes `v₂`, and the set is named `v₄` by its members. -/
theorem eliminate_preserves_meaning_separation :
    eliminate .allOn 40 memSeparation =
      some (ex 4 (conj
        (all 0 (iff (mem (var 0) (var 4)) (conj (mem (var 0) (var 1))
          (negation (all 3 (imp (mem (var 3) (var 0)) (mem (var 3) (var 2))))))))
        (mem (var 2) (var 4)))) ∧
    Expr.constant .omega ∉ memSeparation.walk ∧
    (MembershipStructure.zfSets.{0}.Holds (fun i => if i = 1 then {∅} else ∅)
      (ex 4 (conj
        (all 0 (iff (mem (var 0) (var 4)) (conj (mem (var 0) (var 1))
          (negation (all 3 (imp (mem (var 3) (var 0)) (mem (var 3) (var 2))))))))
        (mem (var 2) (var 4)))) ↔
      MembershipStructure.zfSets.{0}.Holds
        ((fun i => if i = 1 then {∅} else ∅) ∘ letterRenaming .allOn memSeparation)
        memSeparation) := by
  have hω : Expr.constant .omega ∉ memSeparation.walk := by decide
  refine ⟨by decide, hω, ?_⟩
  exact eliminate_preserves_meaning .allOn 40 memSeparation _ (by decide) (.inr hω) .zfSets _

end SetFormula
