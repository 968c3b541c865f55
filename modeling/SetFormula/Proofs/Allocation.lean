import SetFormula.Taken
import SetFormula.Proofs.Walk

/-!
# Allocated numbers are the first new ones

`missingFrom` skips the taken numbers, so what `allocate` and `fresh` hand out is not taken
(`notMem_of_mem_allocate`, `fresh_notMem`) and never handed out twice (`nodup_allocate`). It skips no
other number, so what it lists are the first numbers that are not taken (`missingFrom_eq_nth`).

A set of taken numbers covers a tree if all indices of the tree are taken: a fresh number then
occurs nowhere in it (`Covers.fresh_notMem_occurrences`).
-/

namespace SetFormula.Taken

/-! ## Missing numbers -/

@[simp] theorem length_missingFrom (c n : Nat) (l : List Int) : (missingFrom c n l).length = n := by
  induction l generalizing c n with
  | nil => simp [missingFrom]
  | cons a l ih =>
    simp only [missingFrom]
    split
    · exact ih c n
    · split
      · simp
      · rw [List.length_append, List.length_range', ih]
        omega

theorem le_of_mem_missingFrom {c n k : Nat} {l : List Int} (h : k ∈ missingFrom c n l) : c ≤ k := by
  induction l generalizing c n with
  | nil =>
    simp only [missingFrom, List.mem_range'_1] at h
    exact h.1
  | cons a l ih =>
    simp only [missingFrom] at h
    split at h
    · exact ih h
    · split at h
      · exact (List.mem_range'_1.1 h).1
      · rcases List.mem_append.1 h with h | h
        · exact (List.mem_range'_1.1 h).1
        · have := ih h
          omega

theorem pairwise_missingFrom (c n : Nat) (l : List Int) : (missingFrom c n l).Pairwise (· < ·) := by
  induction l generalizing c n with
  | nil => exact List.pairwise_lt_range'
  | cons a l ih =>
    simp only [missingFrom]
    split
    · exact ih c n
    · split
      · exact List.pairwise_lt_range'
      · refine List.pairwise_append.2 ⟨List.pairwise_lt_range', ih _ _, fun k hk m hm => ?_⟩
        -- the first part lies below `a`, the rest above it
        have hm' := le_of_mem_missingFrom hm
        rw [List.mem_range'_1] at hk
        omega

theorem notMem_of_mem_missingFrom {c n k : Nat} {l : List Int} (hl : l.Pairwise (· < ·))
    (h : k ∈ missingFrom c n l) : (k : Int) ∉ l := by
  induction l generalizing c n with
  | nil => exact List.not_mem_nil
  | cons a l ih =>
    obtain ⟨ha, hl⟩ := List.pairwise_cons.1 hl
    -- a number below `a` is neither `a` nor in the rest of the list
    have below : (k : Int) < a → (k : Int) ∉ a :: l := fun hk hmem => by
      rcases List.mem_cons.1 hmem with hmem | hmem
      · omega
      · have := ha _ hmem
        omega
    simp only [missingFrom] at h
    split at h
    · have := le_of_mem_missingFrom h
      rw [List.mem_cons, not_or]
      exact ⟨by omega, ih hl h⟩
    · split at h
      · rw [List.mem_range'_1] at h
        exact below (by omega)
      · rcases List.mem_append.1 h with h | h
        · rw [List.mem_range'_1] at h
          exact below (by omega)
        · have := le_of_mem_missingFrom h
          rw [List.mem_cons, not_or]
          exact ⟨by omega, ih hl h⟩

/-- Between `c` and a number that is listed, no number is left out. -/
theorem mem_missingFrom_of_lt {c n k m : Nat} {l : List Int} (hk : k ∈ missingFrom c n l)
    (hcm : c ≤ m) (hmk : m < k) (hm : (m : Int) ∉ l) : m ∈ missingFrom c n l := by
  induction l generalizing c n with
  | nil =>
    simp only [missingFrom, List.mem_range'_1] at hk ⊢
    omega
  | cons a l ih =>
    obtain ⟨hma, hml⟩ := not_or.1 (List.mem_cons.not.1 hm)
    simp only [missingFrom] at hk ⊢
    split at hk
    · rename_i hac
      rw [if_pos hac]
      exact ih hk hcm hml
    · rename_i hac
      rw [if_neg hac]
      split at hk
      · rename_i hgap
        rw [if_pos hgap]
        rw [List.mem_range'_1] at hk ⊢
        omega
      · rename_i hgap
        rw [if_neg hgap]
        rw [List.mem_append, List.mem_range'_1] at hk ⊢
        -- the number lies below `a`, where all are listed, or above it
        by_cases hbelow : (m : Int) < a
        · exact .inl (by omega)
        · rcases hk with hk | hk
          · omega
          · exact .inr (ih hk (by omega) hml)

/-- Numbers in increasing order that have a property, and between which no number with the property
is left out, are the first numbers with the property. -/
theorem eq_map_nth {p : Nat → Prop} {l : List Nat} (hsorted : l.Pairwise (· < ·))
    (hp : ∀ k ∈ l, p k) (hlow : ∀ k ∈ l, ∀ m < k, p m → m ∈ l) :
    l = (List.range l.length).map (Nat.nth p) := by
  classical
  refine List.ext_getElem (by simp) fun i hi _ => ?_
  -- below the number at position `i`, the numbers with the property are those listed before it
  have hbelow : (Finset.range l[i]).filter p = (l.take i).toFinset := by
    ext m
    simp only [Finset.mem_filter, Finset.mem_range, List.mem_toFinset]
    constructor
    · rintro ⟨hm, hpm⟩
      obtain ⟨j, hj, rfl⟩ := List.getElem_of_mem (hlow _ (List.getElem_mem hi) m hm hpm)
      refine List.mem_take_iff_getElem.2 ⟨j, ?_, rfl⟩
      by_contra hji
      have hle : i ≤ j := by omega
      rcases Nat.eq_or_lt_of_le hle with rfl | hlt
      · omega
      · have := List.pairwise_iff_getElem.1 hsorted i j hi hj hlt
        omega
    · intro hm
      obtain ⟨j, hj, rfl⟩ := List.mem_take_iff_getElem.1 hm
      exact ⟨List.pairwise_iff_getElem.1 hsorted j i (by omega) hi (by omega),
        hp _ (List.getElem_mem _)⟩
  have hcount : Nat.count p l[i] = i := by
    have hnodup : (l.take i).Nodup := (hsorted.imp Nat.ne_of_lt).sublist (List.take_sublist i l)
    rw [Nat.count_eq_card_filter_range, hbelow, List.toFinset_card_of_nodup hnodup,
      List.length_take]
    omega
  have hnth := Nat.nth_count (hp _ (List.getElem_mem hi))
  rw [hcount] at hnth
  rw [List.getElem_map, List.getElem_range, hnth]

theorem missingFrom_eq_nth (t : Taken) (n : Nat) :
    missingFrom 0 n t.toList = (List.range n).map (Nat.nth fun k => (k : Int) ∉ t) := by
  have hfirst := eq_map_nth (p := fun k => (k : Int) ∉ t) (pairwise_missingFrom 0 n t.toList)
    (fun k hk => notMem_of_mem_missingFrom t.sorted hk)
    (fun k hk m hmk hm => mem_missingFrom_of_lt hk (Nat.zero_le m) hmk hm)
  rwa [length_missingFrom] at hfirst

/-! ## Allocation -/

theorem notMem_of_mem_allocate {t : Taken} {n k : Nat} (h : k ∈ (t.allocate n).1) : (k : Int) ∉ t :=
  notMem_of_mem_missingFrom t.sorted (List.mem_reverse.1 h)

theorem nodup_allocate (t : Taken) (n : Nat) : (t.allocate n).1.Nodup :=
  List.pairwise_reverse.2 ((pairwise_missingFrom 0 n t.toList).imp fun h => (Nat.ne_of_lt h).symm)

theorem fresh_notMem (t : Taken) : (t.fresh.1 : Int) ∉ t := by
  have hmem : t.fresh.1 ∈ missingFrom 0 1 t.toList := by
    have hlen := length_missingFrom 0 1 t.toList
    simp only [fresh]
    match missingFrom 0 1 t.toList, hlen with
    | [k], _ => simp
  exact notMem_of_mem_missingFrom t.sorted hmem

@[simp] theorem mem_fresh {t : Taken} {b : Int} : b ∈ t.fresh.2 ↔ b = t.fresh.1 ∨ b ∈ t :=
  mem_insert

/-! ## Covered trees -/

theorem mem_ofExpr {e : Expr} {a : Int} : a ∈ ofExpr e ↔ ∃ i ∈ e.occurrences, a = i := by
  rw [ofExpr, mem_ofList, List.mem_map]
  exact exists_congr fun i => and_congr_right fun _ => eq_comm

theorem natCast_mem_ofExpr {e : Expr} {i : Nat} : (i : Int) ∈ ofExpr e ↔ i ∈ e.occurrences := by
  simp [mem_ofExpr]

/-- All indices of the tree are taken. -/
def Covers (t : Taken) (e : Expr) : Prop := ∀ i ∈ e.occurrences, (i : Int) ∈ t

theorem covers_ofExpr (e : Expr) : (ofExpr e).Covers e := fun _ hi => natCast_mem_ofExpr.2 hi

theorem Covers.fresh_notMem_occurrences {t : Taken} {e : Expr} (h : t.Covers e) :
    t.fresh.1 ∉ e.occurrences := fun hmem => t.fresh_notMem (h _ hmem)

theorem Covers.of_mem_children {t : Taken} {e a : Expr} (h : t.Covers e) (ha : a ∈ e.children) :
    t.Covers a := by
  intro i hi
  refine h i ?_
  rw [Expr.occurrences_eq_append]
  exact List.mem_append_right _ (List.mem_flatMap.2 ⟨a, ha, hi⟩)

theorem Covers.mono {t t' : Taken} {e : Expr} (h : t.Covers e) (ht : ∀ a ∈ t, a ∈ t') :
    t'.Covers e := fun i hi => ht _ (h i hi)

end SetFormula.Taken
