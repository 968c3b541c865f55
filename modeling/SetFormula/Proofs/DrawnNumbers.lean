import SetFormula.Proofs.Numeral
import SetFormula.Proofs.PassSequences

/-!
# The numbers that elimination draws

`drawnNumbers s depth e` lists the numbers that become indices of new variables while `e` is
eliminated: those that the first pass allocates for letters, and those that the other passes take.

Every index of the result of a pass is one of the tree before it or was drawn by the pass
(`Pass.run_occurrences`), and the first pass leaves no letter that it has not drawn itself. So the
indices of a result are known: they are indices of the tree, letters excepted if these are
eliminated, and drawn numbers (`occurrences_of_eliminate`).
-/

namespace SetFormula

namespace Elimination

theorem isLetter_of_lt {i : Nat} (h : i < letterStart) : isLetter i = false := by
  rw [isLetter, letterOf?_of_lt h]
  rfl

theorem mem_lettersOf {t : Taken} {a : Int} : a ∈ lettersOf t ↔ a ∈ t ∧ isLetter a := by
  rw [lettersOf, List.mem_filter, Taken.mem_def]

/-- A number that is no letter keeps its place. -/
theorem freshNames_of_not_isLetter (t : Taken) {i : Nat} (h : isLetter i = false) :
    freshNames t i = i := by
  rcases freshNames_cases t i with hstays | ⟨-, hzip⟩
  · exact hstays
  · have hletter := (mem_lettersOf.1 (List.of_mem_zip hzip).1).2
    rw [h] at hletter
    cases hletter

/-- In a list of pairs with enough second parts, every first part is found. -/
theorem isSome_lookup_zip {as : List Int} {ns : List Nat} (hlen : as.length ≤ ns.length) {a : Int}
    (ha : a ∈ as) : ((as.zip ns).lookup a).isSome := by
  induction as generalizing ns with
  | nil => cases ha
  | cons b as ih =>
    cases ns with
    | nil => cases hlen
    | cons n ns =>
      rw [List.zip_cons_cons, List.lookup_cons]
      split
      · rfl
      · rename_i hne
        have ha : a ∈ as := (List.mem_cons.1 ha).resolve_left (by simpa using hne)
        exact ih (Nat.le_of_succ_le_succ hlen) ha

/-- A taken letter moves to an allocated number. -/
theorem freshNames_of_isLetter {t : Taken} {i : Nat} (hi : (i : Int) ∈ t) (h : isLetter i) :
    freshNames t i ∈ (t.allocate (lettersOf t).length).1 := by
  have hlen : (lettersOf t).length ≤ (t.allocate (lettersOf t).length).1.length := by
    rw [Taken.allocate, List.length_reverse, Taken.length_missingFrom]
  obtain ⟨n, hn⟩ := Option.isSome_iff_exists.1 (isSome_lookup_zip hlen (mem_lettersOf.2 ⟨hi, h⟩))
  rw [freshNames, letterImage, hn]
  exact (List.of_mem_zip (mem_of_lookup_eq_some hn)).2

end Elimination

open Elimination

namespace Pass

/-- The numbers that a pass draws, by the numbers taken before and after it. The first pass takes
the indices of its result afterwards, so what it draws is read off the letters; the other passes
keep what is taken and add what they draw. -/
def drawn (s : Switches) (t t' : Taken) : Pass → List Nat
  | letters => if s .letters then (t.allocate (lettersOf t).length).1 else []
  | _ => (t'.toList.filter (· ∉ t.toList)).map Int.toNat

/-- The numbers that passes draw one after the other, as far as they finish. -/
def drawnAll (s : Switches) (depth : Nat) : List Pass → Expr → Taken → List Nat
  | [], _, _ => []
  | p :: ps, e, t =>
    match p.run s depth e t with
    | none => []
    | some (e', t') => p.drawn s t t' ++ drawnAll s depth ps e' t'

variable {s : Switches} {depth : Nat} {e e' : Expr} {t t' : Taken}

theorem mem_drawn {p : Pass} (hp : p ≠ letters) {i : Nat} (hi : (i : Int) ∈ t')
    (hnew : (i : Int) ∉ t) : i ∈ p.drawn s t t' := by
  have hmem : i ∈ (t'.toList.filter (· ∉ t.toList)).map Int.toNat := by
    exact List.mem_map.2 ⟨i, List.mem_filter.2 ⟨hi, decide_eq_true hnew⟩, Int.toNat_natCast i⟩
  cases p with
  | letters => exact absurd rfl hp
  | _ => exact hmem

/-- Where an index of the result of the first pass comes from. -/
theorem run_letters_occurrences (ht : t.Covers e)
    (h : run s depth letters e t = some (e', t')) {i : Nat} (hi : i ∈ e'.occurrences) :
    (i ∈ e.occurrences ∧ (s .letters → isLetter i = false)) ∨ i ∈ letters.drawn s t t' := by
  rw [run] at h
  split at h
  · rename_i on
    rw [drawn, if_pos on]
    rw [letters_apply] at h
    split at h
    · rename_i hempty
      cases h
      refine .inl ⟨hi, fun _ => ?_⟩
      by_contra hletter
      have hmem := mem_lettersOf.2 ⟨ht i hi, by simpa using hletter⟩
      rw [List.isEmpty_iff.1 hempty] at hmem
      cases hmem
    · split at h
      · cases h
        rw [Expr.occurrences_rename] at hi
        obtain ⟨j, hj, rfl⟩ := List.mem_map.1 hi
        by_cases hletter : isLetter j
        · exact .inr (freshNames_of_isLetter (ht j hj) hletter)
        · have hletter : isLetter j = false := by simpa using hletter
          rw [freshNames_of_not_isLetter t hletter]
          exact .inl ⟨hj, fun _ => hletter⟩
      · cases h
  · rename_i off
    cases h
    exact .inl ⟨hi, fun on => absurd on off⟩

/-- Where an index of the result of a pass comes from. -/
theorem run_occurrences (p : Pass) (ht : t.Covers e) (h : p.run s depth e t = some (e', t'))
    {i : Nat} (hi : i ∈ e'.occurrences) :
    (i ∈ e.occurrences ∧ (p = letters → s .letters → isLetter i = false)) ∨
      i ∈ p.drawn s t t' := by
  by_cases hp : p = letters
  · subst hp
    exact (run_letters_occurrences ht h hi).imp_left fun ⟨hold, hletter⟩ => ⟨hold, fun _ => hletter⟩
  · rcases (run_unfolds hp h).occurrences hi with hold | ⟨hnew, hnot⟩
    · exact .inl ⟨hold, fun heq => absurd heq hp⟩
    · exact .inr (mem_drawn hp hnew hnot)

/-- Where an index of the result of several passes comes from. -/
theorem runAll_occurrences (ps : List Pass) (ht : t.Covers e)
    (h : (runAll s depth ps e t).2 = some e') {i : Nat} (hi : i ∈ e'.occurrences) :
    (i ∈ e.occurrences ∧ (letters ∈ ps → s .letters → isLetter i = false)) ∨
      i ∈ drawnAll s depth ps e t := by
  induction ps generalizing e t with
  | nil =>
    cases h
    exact .inl ⟨hi, fun hmem => absurd hmem List.not_mem_nil⟩
  | cons p ps ih =>
    rw [runAll_cons_snd, Option.bind_eq_some_iff] at h
    obtain ⟨⟨e₁, t₁⟩, hrun, h⟩ := h
    rw [drawnAll, hrun]
    simp only [List.mem_append, List.mem_cons]
    rcases ih (p.run_hygienic ht hrun).covers h with ⟨hi₁, hrest⟩ | hdrawn
    · rcases p.run_occurrences ht hrun hi₁ with ⟨hold, hfirst⟩ | hdrawn
      · refine .inl ⟨hold, ?_⟩
        rintro (rfl | hmem)
        · exact hfirst rfl
        · exact hrest hmem
      · exact .inr (.inl hdrawn)
    · exact .inr (.inr hdrawn)

/-- Where an index of the result of any pass on the way comes from. -/
theorem mem_runAll_occurrences (ps : List Pass) (ht : t.Covers e) {p : Pass} {u : Expr}
    (h : (p, u) ∈ (runAll s depth ps e t).1) {i : Nat} (hi : i ∈ u.occurrences) :
    i ∈ e.occurrences ∨ i ∈ drawnAll s depth ps e t := by
  induction ps generalizing e t with
  | nil => cases h
  | cons p' ps ih =>
    rw [runAll] at h
    rw [drawnAll]
    cases hrun : p'.run s depth e t with
    | none =>
      rw [hrun] at h
      cases h
    | some r =>
      obtain ⟨e₁, t₁⟩ := r
      rw [hrun] at h
      have horigin {j : Nat} (hj : j ∈ e₁.occurrences) :
          j ∈ e.occurrences ∨ j ∈ p'.drawn s t t₁ :=
        (p'.run_occurrences ht hrun hj).imp_left And.left
      rw [List.mem_append]
      rcases List.mem_cons.1 h with heq | hmem
      · cases heq
        exact (horigin hi).imp_right .inl
      · rcases ih (p'.run_hygienic ht hrun).covers hmem with hold | hdrawn
        · exact (horigin hold).imp_right .inl
        · exact .inr (.inr hdrawn)

end Pass

/-- The numbers that are drawn while a formula is eliminated. -/
def drawnNumbers (s : Switches) (depth : Nat) (e : Expr) : List Nat :=
  Pass.drawnAll s depth Pass.all e (Taken.ofExpr e)

/-- Where an index of the result of elimination comes from. -/
theorem occurrences_of_eliminate {s : Switches} {depth : Nat} {e e' : Expr}
    (h : eliminate s depth e = some e') {i : Nat} (hi : i ∈ e'.occurrences) :
    (i ∈ e.occurrences ∧ (s .letters → isLetter i = false)) ∨ i ∈ drawnNumbers s depth e := by
  have horigin := Pass.runAll_occurrences Pass.all (Taken.covers_ofExpr e) h hi
  exact horigin.imp_left fun ⟨hold, hletter⟩ => ⟨hold, hletter (by decide)⟩

end SetFormula
