import SetFormula.Expr.Walk

/-!
# Taken numbers and fresh variables

`Taken` is a finite set of integers, those that no new variable may have. It is kept as an increasing
list, so two of them with the same members are equal.

* `allocate n` hands out the `n` smallest natural numbers that are not taken, and takes them.
* `fresh` hands out one.
* `ofExpr e` takes the indices of all variables of a tree.
-/

namespace SetFormula

/-- A finite set of integers, in increasing order. -/
structure Taken where
  /-- The members, in increasing order. -/
  toList : List Int
  sorted : toList.Pairwise (· < ·)
  deriving DecidableEq, Repr

namespace Taken

/-! ## The set -/

/-- Insert a number into an increasing list, unless it is there. -/
def insertSorted (a : Int) : List Int → List Int
  | [] => [a]
  | b :: l => if a < b then a :: b :: l else if a = b then b :: l else b :: insertSorted a l

@[simp] theorem mem_insertSorted {a c : Int} {l : List Int} :
    c ∈ insertSorted a l ↔ c = a ∨ c ∈ l := by
  induction l with
  | nil => simp [insertSorted]
  | cons b l ih =>
    simp only [insertSorted]
    split
    · simp
    · split <;> simp_all [or_left_comm]

theorem pairwise_insertSorted (a : Int) {l : List Int} (h : l.Pairwise (· < ·)) :
    (insertSorted a l).Pairwise (· < ·) := by
  induction l with
  | nil => simp [insertSorted]
  | cons b l ih =>
    obtain ⟨hb, hl⟩ := List.pairwise_cons.1 h
    simp only [insertSorted]
    split
    · rename_i hab
      exact List.pairwise_cons.2
        ⟨fun c hc => (List.mem_cons.1 hc).elim (fun e => e ▸ hab) fun hc => Int.lt_trans hab (hb c hc),
          h⟩
    · split
      · exact h
      · refine List.pairwise_cons.2 ⟨fun c hc => ?_, ih hl⟩
        rcases mem_insertSorted.1 hc with rfl | hc
        · omega
        · exact hb c hc

instance : Membership Int Taken := ⟨fun t a => a ∈ t.toList⟩

/-- No number. -/
def empty : Taken := ⟨[], List.Pairwise.nil⟩

/-- Take one more number. -/
def insert (t : Taken) (a : Int) : Taken :=
  ⟨insertSorted a t.toList, pairwise_insertSorted a t.sorted⟩

/-- Take more numbers. -/
def insertMany (t : Taken) (l : List Int) : Taken := l.foldl insert t

/-- The set of the given numbers. -/
def ofList (l : List Int) : Taken := empty.insertMany l

/-- The indices of all variables of a tree, bound ones included. -/
def ofExpr (e : Expr) : Taken := ofList (e.occurrences.map Int.ofNat)

theorem mem_def {t : Taken} {a : Int} : a ∈ t ↔ a ∈ t.toList := Iff.rfl

@[simp] theorem mem_insert {t : Taken} {a b : Int} : b ∈ t.insert a ↔ b = a ∨ b ∈ t :=
  mem_insertSorted

@[simp] theorem mem_insertMany {t : Taken} {l : List Int} {b : Int} :
    b ∈ t.insertMany l ↔ b ∈ l ∨ b ∈ t := by
  induction l generalizing t with
  | nil => simp [insertMany]
  | cons a l ih =>
    rw [insertMany, List.foldl_cons, ← insertMany, ih, mem_insert, List.mem_cons]
    grind

@[simp] theorem not_mem_empty {b : Int} : b ∉ empty := List.not_mem_nil

@[simp] theorem mem_ofList {l : List Int} {b : Int} : b ∈ ofList l ↔ b ∈ l := by
  simp [ofList]

/-! ## Allocation -/

/-- The `n` smallest numbers from `c` on that are missing in an increasing list. -/
def missingFrom (c n : Nat) : List Int → List Nat
  | [] => List.range' c n
  | a :: l =>
    if a < c then missingFrom c n l
    else
      let gap := (a - c).toNat
      if n ≤ gap then List.range' c n
      else List.range' c gap ++ missingFrom (a.toNat + 1) (n - gap) l

/-- Hand out the `n` smallest natural numbers that are not taken, the largest first, and take
them. -/
def allocate (t : Taken) (n : Nat) : List Nat × Taken :=
  let new := missingFrom 0 n t.toList
  (new.reverse, t.insertMany (new.map Int.ofNat))

/-- Hand out the smallest natural number that is not taken, and take it. -/
def fresh (t : Taken) : Nat × Taken :=
  let new := (missingFrom 0 1 t.toList).headD 0
  (new, t.insert new)

end Taken

end SetFormula
