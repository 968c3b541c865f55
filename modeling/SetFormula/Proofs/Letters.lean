import SetFormula.Elimination.Pass
import SetFormula.Proofs.Allocation

/-!
# The renaming of letters

The first pass renames the letters among the taken numbers to numbers that are not taken. Its
renaming `freshNames t` depends on the taken numbers only, is the identity if there are no letters
among them, and never merges two taken numbers (`freshNames_injOn`). `letterRenaming s e` is the
renaming that elimination starts with: that of the indices of the tree, or none at all if the switch
is off.
-/

namespace SetFormula

namespace Expr

theorem rename_id (e : Expr) : e.rename id = e := by
  induction e <;> simp_all [rename]

/-- Renaming all variables renames the indices of the tree, in their order. -/
theorem occurrences_rename (f : Nat → Nat) (e : Expr) :
    (e.rename f).occurrences = e.occurrences.map f := by
  induction e <;> simp_all [rename]

end Expr

namespace Elimination

open SetFormula.Expr

/-- The renaming of the letters among the taken numbers. -/
def freshNames (t : Taken) : Nat → Nat :=
  letterImage ((lettersOf t).zip (t.allocate (lettersOf t).length).1)

/-- The renaming that elimination starts with. -/
def letterRenaming (s : Switches) (e : Expr) : Nat → Nat :=
  if s .letters then freshNames (Taken.ofExpr e) else id

theorem freshNames_eq_id {t : Taken} (h : (lettersOf t).isEmpty) : freshNames t = id := by
  funext i
  rw [freshNames, List.isEmpty_iff.1 h]
  rfl

/-- The pass as a choice between leaving the tree alone, renaming it, and giving up. -/
theorem letters_apply (depth : Nat) (e : Expr) (t : Taken) :
    letters depth e t =
      if (lettersOf t).isEmpty then some (e, t)
      else if e.height ≤ depth then
        some (e.rename (freshNames t), Taken.ofExpr (e.rename (freshNames t)))
      else none := by
  unfold letters
  change (if (lettersOf t).isEmpty then _ else _ : Unfolding Expr) t = _
  split
  · rfl
  · by_cases hheight : e.height ≤ depth
    · rw [if_pos hheight, Unfolding.requireHeight, if_pos hheight]
      rfl
    · rw [if_neg hheight, Unfolding.requireHeight, if_neg hheight]
      rfl

/-! ## No two numbers are merged -/

theorem mem_of_lookup_eq_some {pairs : List (Int × Nat)} {a : Int} {n : Nat}
    (h : pairs.lookup a = some n) : (a, n) ∈ pairs := by
  induction pairs with
  | nil => cases h
  | cons p pairs ih =>
    obtain ⟨b, m⟩ := p
    rw [List.lookup_cons] at h
    split at h
    · rename_i hab
      cases h
      rw [eq_of_beq hab]
      exact List.mem_cons_self
    · exact List.mem_cons_of_mem _ (ih h)

/-- In a list of pairs whose second parts are different, the second part determines the first. -/
theorem eq_of_mem_zip_of_nodup {as : List Int} {ns : List Nat} (hns : ns.Nodup) {a b : Int}
    {n : Nat} (ha : (a, n) ∈ as.zip ns) (hb : (b, n) ∈ as.zip ns) : a = b := by
  induction as generalizing ns with
  | nil => cases ha
  | cons c as ih =>
    cases ns with
    | nil => cases ha
    | cons m ns =>
      obtain ⟨hm, hns⟩ := List.nodup_cons.1 hns
      rw [List.zip_cons_cons, List.mem_cons, Prod.mk.injEq] at ha hb
      rcases ha with ⟨rfl, rfl⟩ | ha
      · rcases hb with ⟨rfl, -⟩ | hb
        · rfl
        · exact absurd (List.of_mem_zip hb).2 hm
      · rcases hb with ⟨rfl, rfl⟩ | hb
        · exact absurd (List.of_mem_zip ha).2 hm
        · exact ih hns ha hb

/-- A number either keeps its place or moves to one that is not taken. -/
theorem freshNames_cases (t : Taken) (i : Nat) :
    freshNames t i = i ∨
      ((freshNames t i : Int) ∉ t ∧
        ((i : Int), freshNames t i) ∈ (lettersOf t).zip (t.allocate (lettersOf t).length).1) := by
  simp only [freshNames, letterImage]
  rcases hlookup : List.lookup (i : Int) _ with _ | n
  · exact .inl rfl
  · have hmem := mem_of_lookup_eq_some hlookup
    exact .inr ⟨Taken.notMem_of_mem_allocate (List.of_mem_zip hmem).2, hmem⟩

theorem freshNames_injOn {t : Taken} {i j : Nat} (hi : (i : Int) ∈ t) (hj : (j : Int) ∈ t)
    (h : freshNames t i = freshNames t j) : i = j := by
  rcases freshNames_cases t i with hi' | ⟨hi', hmi⟩
  · rcases freshNames_cases t j with hj' | ⟨hj', -⟩
    · rw [← hi', ← hj', h]
    · -- `j` moves to a number that is not taken, but `i` is taken
      rw [← h, hi'] at hj'
      exact absurd hi hj'
  · rcases freshNames_cases t j with hj' | ⟨-, hmj⟩
    · rw [h, hj'] at hi'
      exact absurd hj hi'
    · rw [← h] at hmj
      exact Int.ofNat.inj (eq_of_mem_zip_of_nodup (Taken.nodup_allocate t _) hmi hmj)

theorem letterRenaming_injOn (s : Switches) (e : Expr) {i j : Nat} (hi : i ∈ e.occurrences)
    (hj : j ∈ e.occurrences) (h : letterRenaming s e i = letterRenaming s e j) : i = j := by
  unfold letterRenaming at h
  split at h
  · exact freshNames_injOn (Taken.covers_ofExpr e i hi) (Taken.covers_ofExpr e j hj) h
  · exact h

/-! ## The first pass -/

/-- Elimination starts by renaming the letters, after which all indices of the tree are taken. -/
theorem run_letters_eq_some {s : Switches} {depth : Nat} {e e' : Expr} {t' : Taken}
    (h : Pass.run s depth .letters e (Taken.ofExpr e) = some (e', t')) :
    e' = e.rename (letterRenaming s e) ∧ t'.Covers e' := by
  rw [Pass.run] at h
  unfold letterRenaming
  split at h
  · rename_i on
    rw [letters_apply] at h
    rw [if_pos on]
    split at h
    · rename_i hempty
      cases h
      rw [freshNames_eq_id hempty, rename_id]
      exact ⟨rfl, Taken.covers_ofExpr e⟩
    · split at h
      · cases h
        exact ⟨rfl, Taken.covers_ofExpr _⟩
      · cases h
  · rename_i off
    cases h
    rw [if_neg off, rename_id]
    exact ⟨rfl, Taken.covers_ofExpr e⟩

end Elimination

end SetFormula
