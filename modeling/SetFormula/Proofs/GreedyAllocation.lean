import SetFormula.Proofs.Allocation
import SetFormula.Proofs.Loop

/-!
# Numbers are handed out greedily

`allocate` computes the numbers that it hands out from the gaps between the taken ones. Here it is
compared with a search that knows nothing of gaps: it tests the natural numbers one after the other
and takes those that are not taken, until it has found enough of them. As the search adds to the set
that it tests against and sets itself no bound, it is a loop run by `StateTransition.eval`.

* `IsLowest t count l` says what `l` has to be, and there is only one such list (`IsLowest.unique`).
  Both the search and `allocate` arrive at it (`Scan.Inv.isLowest`, `isLowest_allocate`), so they
  agree (`scan_eq_allocate`).
* The search ends because it has found, or seen in the finite set that it began with, every candidate
  that it has passed (`Scan.Inv.candidate_le`).
* One request after the other hands out what one request for all of the numbers would
  (`allocate_add`, `Request.serveAll_eq_allocate`). A request for a negative count is one for no
  number, so counts of opposite signs do not add up.
-/

namespace SetFormula.Taken

/-! ## Sets of taken numbers -/

instance (a : Int) (t : Taken) : Decidable (a ∈ t) := inferInstanceAs (Decidable (a ∈ t.toList))

theorem eq_of_mem_iff {t t' : Taken} (h : ∀ a, a ∈ t ↔ a ∈ t') : t = t' := by
  have hlist : t.toList = t'.toList := t.sorted.eq_of_mem_iff t'.sorted h
  cases t
  cases t'
  cases hlist
  rfl

theorem insertMany_concat (t : Taken) (l : List Int) (a : Int) :
    t.insertMany (l ++ [a]) = (t.insertMany l).insert a := by
  rw [insertMany, List.foldl_append, ← insertMany]
  rfl

theorem mem_allocate_snd {t : Taken} {n : Nat} {a : Int} :
    a ∈ (t.allocate n).2 ↔ a ∈ t ∨ ∃ k ∈ (t.allocate n).1, a = k := by
  simp only [allocate, mem_insertMany, List.mem_map, List.mem_reverse]
  rw [or_comm]
  exact or_congr_right (exists_congr fun k => and_congr_right fun _ => eq_comm)

/-- At most as many natural numbers are taken as the set has members. -/
theorem length_filter_mem_le (t : Taken) (c : Nat) :
    ((List.range c).filter fun k : Nat => (k : Int) ∈ t).length ≤ t.toList.length := by
  have hnodup : (((List.range c).filter fun k : Nat => (k : Int) ∈ t).map Int.ofNat).Nodup :=
    (List.nodup_range.filter _).map Int.ofNat_injective
  have hsubset : ((List.range c).filter fun k : Nat => (k : Int) ∈ t).map Int.ofNat ⊆ t.toList := by
    intro a ha
    obtain ⟨k, hk, rfl⟩ := List.mem_map.1 ha
    exact of_decide_eq_true (List.mem_filter.1 hk).2
  have hle := (List.subperm_of_subset hnodup hsubset).length_le
  rwa [List.length_map] at hle

/-! ## The lowest numbers -/

/-- The list holds exactly the `count` lowest natural numbers that are not taken, none of them if
`count` is negative, in strictly decreasing order. -/
structure IsLowest (t : Taken) (count : Int) (l : List Nat) : Prop where
  decreasing : l.Pairwise (· > ·)
  length_eq : (l.length : Int) = max count 0
  notMem : ∀ k ∈ l, (k : Int) ∉ t
  lt_of_notMem : ∀ m : Nat, (m : Int) ∉ t → m ∉ l → ∀ k ∈ l, k < m

namespace IsLowest

variable {t t' : Taken} {count : Int} {l l' : List Nat}

theorem reverse_eq_nth (h : IsLowest t count l) :
    l.reverse = (List.range l.length).map (Nat.nth fun k => (k : Int) ∉ t) := by
  have hlow : ∀ k ∈ l.reverse, ∀ m < k, (m : Int) ∉ t → m ∈ l.reverse := by
    intro k hk m hmk hm
    by_contra hml
    rw [List.mem_reverse] at hk hml
    have hkm := h.lt_of_notMem m hm hml k hk
    omega
  have hnth := eq_map_nth (List.pairwise_reverse.2 h.decreasing)
    (fun k hk => h.notMem k (List.mem_reverse.1 hk)) hlow
  rwa [List.length_reverse] at hnth

theorem unique (h : IsLowest t count l) (h' : IsLowest t count l') : l = l' := by
  have hlength : l.length = l'.length := by
    have := h.length_eq
    have := h'.length_eq
    omega
  rw [← List.reverse_inj, h.reverse_eq_nth, h'.reverse_eq_nth, hlength]

/-- The lowest numbers, and then the lowest of those left, are together the lowest numbers. -/
theorem append {m n : Nat} (h : IsLowest t m l)
    (ht : ∀ a, a ∈ t' ↔ a ∈ t ∨ ∃ k ∈ l, a = k) (h' : IsLowest t' n l') :
    IsLowest t ↑(m + n) (l' ++ l) := by
  -- left for the second list is what is neither taken nor in the first one
  have hleft {k : Nat} (hk : (k : Int) ∉ t') : (k : Int) ∉ t ∧ k ∉ l :=
    ⟨fun hmem => hk ((ht k).2 (.inl hmem)), fun hmem => hk ((ht k).2 (.inr ⟨k, hmem, rfl⟩))⟩
  have hright {k : Nat} (hk : (k : Int) ∉ t) (hkl : k ∉ l) : (k : Int) ∉ t' := by
    intro hmem
    rcases (ht k).1 hmem with hmem | ⟨j, hj, heq⟩
    · exact hk hmem
    · exact hkl (Int.ofNat_inj.1 heq ▸ hj)
  constructor
  case decreasing =>
    refine List.pairwise_append.2 ⟨h'.decreasing, h.decreasing, fun k hk j hj => ?_⟩
    -- the first list has skipped `k`, so all its numbers are lower
    obtain ⟨hkt, hkl⟩ := hleft (h'.notMem k hk)
    exact h.lt_of_notMem k hkt hkl j hj
  case length_eq =>
    have := h.length_eq
    have := h'.length_eq
    rw [List.length_append]
    omega
  case notMem =>
    intro k hk
    rcases List.mem_append.1 hk with hk | hk
    · exact (hleft (h'.notMem k hk)).1
    · exact h.notMem k hk
  case lt_of_notMem =>
    intro j hj hjl k hk
    rw [List.mem_append, not_or] at hjl
    rcases List.mem_append.1 hk with hk | hk
    · exact h'.lt_of_notMem j (hright hj hjl.2) hjl.1 k hk
    · exact h.lt_of_notMem j hj hjl.2 k hk

end IsLowest

theorem isLowest_allocate (t : Taken) (count : Int) :
    IsLowest t count (t.allocate count.toNat).1 where
  decreasing := List.pairwise_reverse.2 (pairwise_missingFrom 0 _ _)
  length_eq := by
    rw [allocate, List.length_reverse, length_missingFrom]
    omega
  notMem _ hk := notMem_of_mem_allocate hk
  lt_of_notMem m hm hml k hk := by
    rw [allocate, List.mem_reverse] at hml hk
    by_contra hle
    rcases Nat.lt_or_eq_of_le (Nat.le_of_not_lt hle) with hlt | rfl
    · exact hml (mem_missingFrom_of_lt hk (Nat.zero_le m) hlt hm)
    · exact hml hk

/-! ## The search, candidate by candidate -/

/-- A search for numbers that are not taken: the candidate to test next, the numbers found so far,
and the numbers taken, those found included. -/
structure Scan where
  candidate : Nat
  found : List Nat
  taken : Taken

namespace Scan

/-- As long as fewer than `count` numbers are found, test the candidate and go on to the next one. A
candidate that is not taken is found, and taken from then on. -/
def step (count : Int) (s : Scan) : Option Scan :=
  if s.found.length < count then
    if (s.candidate : Int) ∈ s.taken then some { s with candidate := s.candidate + 1 }
    else some ⟨s.candidate + 1, s.found ++ [s.candidate], s.taken.insert s.candidate⟩
  else none

/-- What holds of a search for `count` numbers that began with `t`. Found are the numbers below the
candidate that are not in `t`, and no more than `count` of them; taken are these and `t`. -/
structure Inv (t : Taken) (count : Int) (s : Scan) : Prop where
  found_eq : s.found = (List.range s.candidate).filter fun k : Nat => (k : Int) ∉ t
  taken_eq : s.taken = t.insertMany (s.found.map Int.ofNat)
  length_le : (s.found.length : Int) ≤ max count 0

variable {t : Taken} {count : Int} {s s' : Scan}

theorem step_eq_none : s.step count = none ↔ count ≤ s.found.length := by
  rw [step]
  split
  · split <;> simp only [reduceCtorEq, false_iff] <;> omega
  · simp only [true_iff]
    omega

theorem inv_start (t : Taken) (count : Int) : Inv t count ⟨0, [], t⟩ :=
  ⟨rfl, rfl, le_max_right _ _⟩

namespace Inv

theorem mem_found (h : Inv t count s) {k : Nat} :
    k ∈ s.found ↔ k < s.candidate ∧ (k : Int) ∉ t := by
  rw [h.found_eq, List.mem_filter, List.mem_range, decide_eq_true_iff]

/-- The numbers found on the way lie below the candidate, so they do not change the test. -/
theorem candidate_mem (h : Inv t count s) :
    (s.candidate : Int) ∈ s.taken ↔ (s.candidate : Int) ∈ t := by
  rw [h.taken_eq, mem_insertMany]
  refine or_iff_right fun hmem => ?_
  obtain ⟨k, hk, heq⟩ := List.mem_map.1 hmem
  have hlt := (h.mem_found.1 hk).1
  have : k = s.candidate := Int.ofNat_inj.1 heq
  omega

theorem step (h : Inv t count s) (hstep : s.step count = some s') :
    Inv t count s' ∧ s'.candidate = s.candidate + 1 ∧ s.found.length < count := by
  rw [Scan.step] at hstep
  split at hstep
  case isFalse => cases hstep
  case isTrue hlen =>
    split at hstep
    case isTrue hmem =>
      cases hstep
      have hold := h.candidate_mem.1 hmem
      refine ⟨⟨?_, h.taken_eq, h.length_le⟩, rfl, hlen⟩
      rw [h.found_eq, List.range_succ, List.filter_append]
      simp [hold]
    case isFalse hmem =>
      cases hstep
      have hnew := h.candidate_mem.not.1 hmem
      refine ⟨⟨?_, ?_, ?_⟩, rfl, hlen⟩
      · rw [h.found_eq, List.range_succ, List.filter_append]
        simp [hnew]
      · rw [List.map_append, List.map_singleton, insertMany_concat, ← h.taken_eq]
        rfl
      · rw [List.length_append, List.length_singleton]
        omega

/-- Every candidate passed was found or is in the finite set that the search began with. -/
theorem candidate_le (h : Inv t count s) : s.candidate ≤ s.found.length + t.toList.length := by
  have hsplit := List.length_eq_length_filter_add (l := List.range s.candidate)
    fun k : Nat => decide ((k : Int) ∈ t)
  have hfound := h.found_eq
  simp only [decide_not] at hfound
  rw [List.length_range, ← hfound] at hsplit
  have htaken := length_filter_mem_le t s.candidate
  omega

theorem isLowest (h : Inv t count s) (hstop : s.step count = none) :
    IsLowest t count s.found.reverse where
  decreasing := by
    rw [List.pairwise_reverse, h.found_eq]
    exact List.pairwise_lt_range.filter _
  length_eq := by
    have := step_eq_none.1 hstop
    have := h.length_le
    rw [List.length_reverse]
    omega
  notMem k hk := (h.mem_found.1 (List.mem_reverse.1 hk)).2
  lt_of_notMem m hm hml k hk := by
    rw [List.mem_reverse, h.mem_found] at hml hk
    by_contra hle
    exact hml ⟨by omega, hm⟩

end Inv

end Scan

/-- The search ends, and has found and taken what `allocate` hands out and takes. -/
theorem scan_eq_allocate (t : Taken) (count : Int) :
    ∃ s, StateTransition.eval (Scan.step count) ⟨0, [], t⟩ = Part.some s ∧
      (s.found.reverse, s.taken) = t.allocate count.toNat := by
  obtain ⟨s, hends, hinv, hstop⟩ := eval_of_invariant (Scan.step count) (Scan.Inv t count)
    (fun s => count.toNat + t.toList.length - s.candidate)
    (fun s s' hs hstep => by
      -- a search that goes on has passed fewer candidates than are asked for or in `t`
      obtain ⟨hs', hnext, hlen⟩ := hs.step hstep
      have hbound := hs.candidate_le
      exact ⟨hs', by omega⟩)
    ⟨0, [], t⟩ (Scan.inv_start t count)
  have hfound := (hinv.isLowest hstop).unique (isLowest_allocate t count)
  refine ⟨s, hends, Prod.ext hfound ?_⟩
  have hlist : s.found = missingFrom 0 count.toNat t.toList := List.reverse_inj.1 hfound
  rw [hinv.taken_eq, hlist]
  rfl

/-! ## Several requests -/

/-- Allocations of different sizes differ. -/
theorem forall_mem_allocate_iff {t : Taken} {m n : Nat} :
    (∀ k, k ∈ (t.allocate m).1 ↔ k ∈ (t.allocate n).1) ↔ m = n := by
  constructor
  · intro h
    have hperm := (List.perm_ext_iff_of_nodup (nodup_allocate t m) (nodup_allocate t n)).2 h
    have hlength := hperm.length_eq
    rwa [allocate, allocate, List.length_reverse, List.length_reverse, length_missingFrom,
      length_missingFrom] at hlength
  · rintro rfl
    exact fun _ => Iff.rfl

theorem allocate_zero (t : Taken) : t.allocate 0 = ([], t) := by
  have hnil : missingFrom 0 0 t.toList = [] := List.eq_nil_of_length_eq_zero (by simp)
  rw [allocate, hnil]
  rfl

theorem allocate_one (t : Taken) : t.allocate 1 = ([t.fresh.1], t.fresh.2) := by
  obtain ⟨k, hk⟩ := List.length_eq_one_iff.1 (length_missingFrom 0 1 t.toList)
  rw [allocate, fresh, hk]
  rfl

/-- Numbers for two requests are those for one request, the later ones being the larger. -/
theorem allocate_add (t : Taken) (m n : Nat) :
    t.allocate (m + n) = (((t.allocate m).2.allocate n).1 ++ (t.allocate m).1,
      ((t.allocate m).2.allocate n).2) := by
  have hfirst : IsLowest t m (t.allocate m).1 := isLowest_allocate t m
  have hsecond : IsLowest (t.allocate m).2 n ((t.allocate m).2.allocate n).1 :=
    isLowest_allocate (t.allocate m).2 n
  have hboth : IsLowest t ↑(m + n) (t.allocate (m + n)).1 := isLowest_allocate t ↑(m + n)
  have hlist := hboth.unique (hfirst.append (fun _ => mem_allocate_snd) hsecond)
  refine Prod.ext hlist (eq_of_mem_iff fun a => ?_)
  simp only [mem_allocate_snd, hlist, List.mem_append, or_and_right, exists_or]
  rw [or_comm (a := ∃ k, k ∈ ((t.allocate m).2.allocate n).1 ∧ a = k), or_assoc]

/-- A request for numbers. -/
inductive Request where
  /-- So many numbers, none if the count is negative. -/
  | several (count : Int)
  /-- One number, whether or not a variable can have it as its index. -/
  | one

namespace Request

/-- How many numbers are asked for. -/
def amount : Request → Nat
  | several count => count.toNat
  | one => 1

/-- The numbers handed out for a request, and those taken afterwards. -/
def serve : Request → Taken → List Nat × Taken
  | several count, t => t.allocate count.toNat
  | one, t => ([t.fresh.1], t.fresh.2)

/-- The numbers handed out for each of several requests, and those taken in the end. -/
def serveAll : List Request → Taken → List (List Nat) × Taken
  | [], t => ([], t)
  | r :: rs, t => ((r.serve t).1 :: (serveAll rs (r.serve t).2).1, (serveAll rs (r.serve t).2).2)

theorem serve_eq_allocate (r : Request) (t : Taken) : r.serve t = t.allocate r.amount := by
  cases r with
  | several count => rfl
  | one => exact (allocate_one t).symm

/-- One request for all of the numbers hands out the same numbers. -/
theorem serveAll_eq_allocate (rs : List Request) (t : Taken) :
    ((serveAll rs t).1.reverse.flatten, (serveAll rs t).2) = t.allocate (rs.map amount).sum := by
  induction rs generalizing t with
  | nil => exact (allocate_zero t).symm
  | cons r rs ih =>
    rw [List.map_cons, List.sum_cons, allocate_add, ← serve_eq_allocate, ← ih, serveAll]
    simp only [List.reverse_cons, List.flatten_append, List.flatten_singleton]

theorem serveAll_flatten_perm (rs : List Request) (t : Taken) :
    (serveAll rs t).1.flatten.Perm (t.allocate (rs.map amount).sum).1 := by
  rw [← serveAll_eq_allocate]
  exact (List.reverse_perm _).symm.flatten

theorem sum_amount_two (m n : Int) :
    ([several m, several n].map amount).sum = (max m 0 + max n 0).toNat := by
  simp only [List.map_cons, List.map_nil, List.sum_cons, List.sum_nil, amount]
  omega

end Request

open Request

/-- **Numbers are handed out greedily.** Test the natural numbers one after the other against a
finite set, taking each that is not in it, until there are enough of them. This ends, and it has
found and taken what a request for so many numbers hands out and takes. These are the lowest numbers
that are not taken, in strictly decreasing order, and afterwards they are taken besides those taken
before; a negative count stands for none.

Whatever requests follow each other, no number is handed out twice, and none that was taken before
the first of them. A request for `m` numbers and one for `n` hand out and take the same as one
request for both counts, each of them cut off at zero. This is a request for `m + n` numbers exactly
if `m` and `n` are not of opposite signs. -/
theorem handed_out_greedily (t : Taken) :
    (∀ count : Int, ∃ s, StateTransition.eval (Scan.step count) ⟨0, [], t⟩ = Part.some s ∧
        (s.found.reverse, s.taken) = (several count).serve t) ∧
      (∀ count, IsLowest t count ((several count).serve t).1) ∧
      (∀ count a, a ∈ ((several count).serve t).2 ↔
        a ∈ t ∨ ∃ k ∈ ((several count).serve t).1, a = k) ∧
      one.serve t = (several 1).serve t ∧
      (∀ rs, (serveAll rs t).1.flatten.Nodup ∧ ∀ k ∈ (serveAll rs t).1.flatten, (k : Int) ∉ t) ∧
      (∀ m n, (serveAll [several m, several n] t).1.flatten.Perm
          ((several (max m 0 + max n 0)).serve t).1 ∧
        (serveAll [several m, several n] t).2 = ((several (max m 0 + max n 0)).serve t).2) ∧
      ∀ m n, (∀ k, k ∈ (serveAll [several m, several n] t).1.flatten ↔
          k ∈ ((several (m + n)).serve t).1) ↔
        (0 ≤ m ∧ 0 ≤ n) ∨ (m ≤ 0 ∧ n ≤ 0) := by
  refine ⟨scan_eq_allocate t, isLowest_allocate t, fun _ _ => mem_allocate_snd,
    serve_eq_allocate one t, fun rs => ?_, fun m n => ?_, fun m n => ?_⟩
  · have hperm := serveAll_flatten_perm rs t
    exact ⟨hperm.nodup_iff.2 (nodup_allocate t _), fun k hk =>
      notMem_of_mem_allocate (hperm.mem_iff.1 hk)⟩
  · rw [serve, ← sum_amount_two]
    exact ⟨serveAll_flatten_perm _ t,
      congrArg Prod.snd (serveAll_eq_allocate [several m, several n] t)⟩
  · simp only [(serveAll_flatten_perm _ t).mem_iff, sum_amount_two, serve]
    rw [forall_mem_allocate_iff]
    omega

example : (several 2).serve (ofList [0, 1, 3]) = ([4, 2], ofList [0, 1, 2, 3, 4]) := by decide

/-- Asking for `-1` numbers and then for two is not asking for one: it hands out `1` as well. -/
theorem opposite_counts_not_added :
    ¬ ∀ k, k ∈ (serveAll [several (-1), several 2] empty).1.flatten ↔
      k ∈ ((several (-1 + 2)).serve empty).1 := by
  intro h
  exact absurd ((h 1).1 (by decide)) (by decide)

end SetFormula.Taken
