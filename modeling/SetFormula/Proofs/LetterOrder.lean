import SetFormula.Proofs.DrawnNumbers
import SetFormula.Proofs.Printed
import SetFormula.Proofs.VariableNames

/-!
# Letters are renamed in order to the lowest numbers

The letters among the taken numbers are listed by their indices, which fall as letters rise, and the
numbers for them are handed out largest first. So both lists run backwards, and the letters in the
order of their code points, all capitals before all small letters, get the lowest numbers that are
not in use in increasing order.

`RenamesLetters e letters f` says what the renaming of the pass is, without reference to how it is
found. The pass has such a renaming (`renamesLetters_freshNames`), and it follows from this alone
that no two variables are merged (`RenamesLetters.injOn`) and that the renaming can be undone
(`RenamesLetters.substitute_inverse`).
-/

namespace SetFormula

namespace Expr

/-! ## Undoing a renaming -/

/-- The image of an index is fixed if all replacements for it agree and there is one. -/
theorem image_eq {replacements : List (Int × Int)} {i : Nat} {a : Int}
    (hall : ∀ p ∈ replacements, p.1 = i → p.2 = a)
    (hsome : (∃ p ∈ replacements, p.1 = i) ∨ a = i) : image replacements i = a := by
  unfold image
  cases hfind : replacements.reverse.find? fun p => p.1 == (i : Int) with
  | some p =>
    have hkey : p.1 = i := by simpa using List.find?_some hfind
    exact hall p (List.mem_reverse.1 (List.mem_of_find?_eq_some hfind)) hkey
  | none =>
    rcases hsome with ⟨p, hp, hkey⟩ | rfl
    · have hnot := List.find?_eq_none.1 hfind p (List.mem_reverse.2 hp)
      exact absurd (beq_iff_eq.2 hkey) hnot
    · rfl

/-- If all images are indices, the replacements are made. -/
theorem substitute_eq_ok {replacements : List (Int × Int)} {e : Expr}
    (h : ∀ i ∈ e.occurrences, 0 ≤ image replacements i ∧ image replacements i ≤ maxIndex) :
    e.substitute replacements = .ok (e.rename fun i => (image replacements i).toNat) := by
  have hchecks : ∀ l : List Nat,
      (∀ i ∈ l, 0 ≤ image replacements i ∧ image replacements i ≤ maxIndex) →
      forIn l PUnit.unit (fun i _ => do
        let _ ← checkIndex (image replacements i)
        pure (ForInStep.yield PUnit.unit)) = (.ok PUnit.unit : Except BuildFault PUnit) := by
    intro l hl
    induction l with
    | nil => rfl
    | cons i l ih =>
      rw [List.forall_mem_cons] at hl
      rw [List.forIn_cons, checkIndex, if_pos hl.1]
      exact ih hl.2
  unfold substitute
  rw [hchecks e.occurrences h]
  rfl

theorem rename_congr {f g : Nat → Nat} {e : Expr} (h : ∀ i ∈ e.occurrences, f i = g i) :
    e.rename f = e.rename g := by
  have hmatched : Matched Eq (e.rename f) (e.rename g) := .of_rename h
  have heq := hmatched.eq_rename (f := id) fun i _ j hij => hij.symm
  rw [heq, rename_id]

end Expr

open SetFormula.Expr

namespace Elimination

/-! ## What the renaming is -/

/-- The renaming takes the letters of the tree, in the order of their code points, to the lowest
numbers that do not occur in it, in increasing order, and leaves all other indices as they are. -/
structure RenamesLetters (e : Expr) (letters : List Char) (f : Nat → Nat) : Prop where
  /-- The letters are listed by their code points, all capitals before all small letters. -/
  sorted : letters.Pairwise (·.toNat < ·.toNat)
  /-- The letters are those of the tree. -/
  mem_iff : ∀ c, c ∈ letters ↔ c.isAlpha ∧ indexOfLetter c ∈ e.occurrences
  /-- The first letter gets the lowest number that does not occur, the second one the next, and so
  on. -/
  images : letters.map (fun c => f (indexOfLetter c)) =
    (List.range letters.length).map (Nat.nth fun n => n ∉ e.occurrences)
  others : ∀ i : Nat, isLetter i = false → f i = i

/-- An index of a letter is the index of some letter. -/
theorem exists_letter_of_isLetter {i : Nat} (h : isLetter i) :
    ∃ c : Char, letterOf? i = some c ∧ c.isAlpha ∧ i = indexOfLetter c := by
  obtain ⟨c, hc⟩ := Option.isSome_iff_exists.1 h
  refine ⟨c, hc, isAlpha_of_letterOf? hc, ?_⟩
  simp only [letterOf?] at hc
  split at hc
  · rename_i hcode
    obtain rfl := Option.some.inj hc
    have hvalid : ((maxIndex : Int) - i).toNat.isValidChar := .inl (by omega)
    rw [indexOfLetter, Char.toNat_ofNat, if_pos hvalid]
    omega
  · cases hc

section

variable {e : Expr} {letters : List Char} {f : Nat → Nat}

namespace RenamesLetters

/-- A letter of the tree is one of those listed. -/
theorem exists_mem (h : RenamesLetters e letters f) {i : Nat} (hi : i ∈ e.occurrences)
    (hletter : isLetter i) : ∃ c ∈ letters, i = indexOfLetter c := by
  obtain ⟨c, -, hc, rfl⟩ := exists_letter_of_isLetter hletter
  exact ⟨c, (h.mem_iff c).2 ⟨hc, hi⟩, rfl⟩

theorem infinite_notMem (e : Expr) : {n | n ∉ e.occurrences}.Infinite :=
  (List.finite_toSet e.occurrences).infinite_compl

/-- The number of a letter does not occur in the tree. -/
theorem image_notMem (h : RenamesLetters e letters f) {c : Char} (hc : c ∈ letters) :
    f (indexOfLetter c) ∉ e.occurrences := by
  have hmem : f (indexOfLetter c) ∈ letters.map fun c => f (indexOfLetter c) :=
    List.mem_map_of_mem hc
  rw [h.images, List.mem_map] at hmem
  obtain ⟨j, -, hj⟩ := hmem
  rw [← hj]
  exact Nat.nth_mem_of_infinite (infinite_notMem e) j

/-- Two letters get two numbers. -/
theorem image_inj (h : RenamesLetters e letters f) {c d : Char} (hc : c ∈ letters)
    (hd : d ∈ letters) (heq : f (indexOfLetter c) = f (indexOfLetter d)) : c = d := by
  have hnodup : (letters.map fun c => f (indexOfLetter c)).Nodup := by
    rw [h.images]
    exact List.nodup_range.map (Nat.nth_injective (infinite_notMem e))
  exact List.inj_on_of_nodup_map hnodup hc hd heq

/-- No two variables are merged. -/
theorem injOn (h : RenamesLetters e letters f) {i j : Nat} (hi : i ∈ e.occurrences)
    (hj : j ∈ e.occurrences) (heq : f i = f j) : i = j := by
  by_cases hli : isLetter i
  · obtain ⟨c, hc, rfl⟩ := h.exists_mem hi hli
    by_cases hlj : isLetter j
    · obtain ⟨d, hd, rfl⟩ := h.exists_mem hj hlj
      rw [h.image_inj hc hd heq]
    · -- the number of the letter does not occur, but `j` does
      rw [h.others j (by simpa using hlj)] at heq
      exact absurd (heq ▸ hj) (h.image_notMem hc)
  · rw [h.others i (by simpa using hli)] at heq
    by_cases hlj : isLetter j
    · obtain ⟨d, hd, rfl⟩ := h.exists_mem hj hlj
      exact absurd (heq ▸ hi) (h.image_notMem hd)
    · rw [heq, h.others j (by simpa using hlj)]

/-- If the numbers of the letters stay below the letters, no letter is left. -/
theorem isLetter_eq_false (h : RenamesLetters e letters f)
    (hlow : ∀ c ∈ letters, f (indexOfLetter c) < letterStart) :
    ∀ i ∈ (e.rename f).occurrences, isLetter i = false := by
  intro i hi
  rw [occurrences_rename] at hi
  obtain ⟨j, hj, rfl⟩ := List.mem_map.1 hi
  by_cases hletter : isLetter j
  · obtain ⟨c, hc, rfl⟩ := h.exists_mem hj hletter
    exact isLetter_of_lt (hlow c hc)
  · have hletter : isLetter j = false := by simpa using hletter
    rw [h.others j hletter]
    exact hletter

/-- The number of a letter goes back to the letter, and other indices stay. -/
theorem image_inverse (h : RenamesLetters e letters f) {i : Nat} (hi : i ∈ e.occurrences) :
    image (letters.map fun c => (↑(f (indexOfLetter c)), ↑(indexOfLetter c))) (f i) = i := by
  apply image_eq
  · intro p hp hkey
    obtain ⟨c, hc, rfl⟩ := List.mem_map.1 hp
    have hocc := ((h.mem_iff c).1 hc).2
    rw [h.injOn hocc hi (Int.ofNat.inj hkey)]
  · by_cases hletter : isLetter i
    · obtain ⟨c, hc, rfl⟩ := h.exists_mem hi hletter
      exact .inl ⟨_, List.mem_map_of_mem hc, rfl⟩
    · exact .inr (by rw [h.others i (by simpa using hletter)])

/-- Replacing the numbers of the letters by the letters gives the tree back. -/
theorem substitute_inverse (h : RenamesLetters e letters f)
    (hindices : ∀ i ∈ e.occurrences, i ≤ maxIndex) :
    (e.rename f).substitute (letters.map fun c => (↑(f (indexOfLetter c)), ↑(indexOfLetter c))) =
      .ok e := by
  rw [substitute_eq_ok, rename_rename]
  · congr 1
    have hback : ∀ i ∈ e.occurrences, (image (letters.map fun c =>
        (↑(f (indexOfLetter c)), ↑(indexOfLetter c))) (f i)).toNat = id i := by
      intro i hi
      rw [h.image_inverse hi]
      rfl
    rw [rename_congr hback, rename_id]
  · intro i hi
    rw [occurrences_rename] at hi
    obtain ⟨j, hj, rfl⟩ := List.mem_map.1 hi
    have hle := hindices j hj
    rw [h.image_inverse hj]
    omega

end RenamesLetters

end

/-! ## The renaming of the pass -/

/-- In a list of pairs whose first parts are different, each first part is paired with its second
part. -/
theorem map_lookup_zip {as : List Int} {ns : List Nat} (hnodup : as.Nodup)
    (hlen : as.length = ns.length) :
    as.map (fun a => (as.zip ns).lookup a) = ns.map some := by
  induction as generalizing ns with
  | nil =>
    rw [List.length_nil, eq_comm, List.length_eq_zero_iff] at hlen
    rw [hlen]
    rfl
  | cons a as ih =>
    obtain ⟨ha, has⟩ := List.nodup_cons.1 hnodup
    cases ns with
    | nil => cases hlen
    | cons n ns =>
      have hrest : ∀ b ∈ as, ((a, n) :: as.zip ns).lookup b = (as.zip ns).lookup b := by
        intro b hb
        have hne : (b == a) = false := beq_false_of_ne fun heq => ha (heq ▸ hb)
        rw [List.lookup_cons, hne]
      rw [List.zip_cons_cons, List.map_cons, List.map_cons, List.lookup_cons_self,
        List.map_congr_left hrest, ih has (Nat.succ.inj hlen)]

/-- The letters among the taken numbers get the allocated numbers in their order. -/
theorem map_freshNames_lettersOf {t : Taken} (ht : ∀ a ∈ t, 0 ≤ a) :
    (lettersOf t).map (fun a => freshNames t a.toNat) = (t.allocate (lettersOf t).length).1 := by
  have hlen : (lettersOf t).length = (t.allocate (lettersOf t).length).1.length := by
    rw [Taken.allocate, List.length_reverse, Taken.length_missingFrom]
  have hnodup : (lettersOf t).Nodup :=
    (t.sorted.imp Int.ne_of_lt).sublist List.filter_sublist
  have hlookup := congrArg (List.map (·.getD 0)) (map_lookup_zip hnodup hlen)
  simp only [List.map_map, Function.comp_def, Option.getD_some, List.map_id'] at hlookup
  rw [← hlookup]
  refine List.map_congr_left fun a ha => ?_
  have hcast : (a.toNat : Int) = a := Int.toNat_of_nonneg (ht a (mem_lettersOf.1 ha).1)
  obtain ⟨n, hn⟩ := Option.isSome_iff_exists.1 (isSome_lookup_zip hlen.le ha)
  rw [freshNames, letterImage, hcast, hn]
  rfl

/-- The letter of an index. -/
def letterAt (a : Int) : Char := (letterOf? a).getD ' '

/-- The letters of a tree, in the order of their code points. -/
def lettersIn (e : Expr) : List Char := ((lettersOf (Taken.ofExpr e)).map letterAt).reverse

theorem letterAt_spec {e : Expr} {a : Int} (ha : a ∈ lettersOf (Taken.ofExpr e)) :
    (letterAt a).isAlpha ∧ indexOfLetter (letterAt a) = a.toNat ∧
      indexOfLetter (letterAt a) ∈ e.occurrences ∧ a + (letterAt a).toNat = maxIndex := by
  obtain ⟨hmem, hletter⟩ := mem_lettersOf.1 ha
  obtain ⟨i, hi, rfl⟩ := Taken.mem_ofExpr.1 hmem
  obtain ⟨c, hc, halpha, rfl⟩ := exists_letter_of_isLetter hletter
  have hat : letterAt (indexOfLetter c) = c := by rw [letterAt, hc]; rfl
  have hlt := toNat_lt_of_isAlpha halpha
  rw [hat]
  refine ⟨halpha, rfl, hi, ?_⟩
  simp only [indexOfLetter, maxIndex]
  omega

theorem mem_lettersIn {e : Expr} {c : Char} :
    c ∈ lettersIn e ↔ c.isAlpha ∧ indexOfLetter c ∈ e.occurrences := by
  rw [lettersIn, List.mem_reverse, List.mem_map]
  constructor
  · rintro ⟨a, ha, rfl⟩
    obtain ⟨halpha, -, hocc, -⟩ := letterAt_spec ha
    exact ⟨halpha, hocc⟩
  · rintro ⟨halpha, hocc⟩
    have hc := letterOf?_indexOfLetter halpha
    refine ⟨indexOfLetter c, mem_lettersOf.2 ⟨Taken.natCast_mem_ofExpr.2 hocc, ?_⟩, ?_⟩
    · rw [isLetter, hc]
      rfl
    · rw [letterAt, hc]
      rfl

/-- Indices fall as letters rise. -/
theorem pairwise_lettersIn (e : Expr) : (lettersIn e).Pairwise (·.toNat < ·.toNat) := by
  rw [lettersIn, List.pairwise_reverse, List.pairwise_map]
  have hsorted : (lettersOf (Taken.ofExpr e)).Pairwise (· < ·) :=
    (Taken.ofExpr e).sorted.sublist List.filter_sublist
  refine hsorted.imp_of_mem fun {a b} ha hb hab => ?_
  obtain ⟨-, -, -, hcode⟩ := letterAt_spec ha
  obtain ⟨-, -, -, hcode'⟩ := letterAt_spec hb
  omega

/-- Both lists that the pass pairs run backwards, so the first letter gets the lowest number. -/
theorem map_freshNames_lettersIn (e : Expr) :
    (lettersIn e).map (fun c => freshNames (Taken.ofExpr e) (indexOfLetter c)) =
      (List.range (lettersIn e).length).map (Nat.nth fun n => n ∉ e.occurrences) := by
  have hnonneg : ∀ a ∈ Taken.ofExpr e, 0 ≤ a := by
    intro a ha
    obtain ⟨i, -, rfl⟩ := Taken.mem_ofExpr.1 ha
    exact Int.natCast_nonneg i
  have hindices : (lettersOf (Taken.ofExpr e)).map
      (fun a => freshNames (Taken.ofExpr e) (indexOfLetter (letterAt a))) =
        (lettersOf (Taken.ofExpr e)).map fun a => freshNames (Taken.ofExpr e) a.toNat := by
    refine List.map_congr_left fun a ha => ?_
    rw [(letterAt_spec ha).2.1]
  have hunused : (fun n : Nat => (n : Int) ∉ Taken.ofExpr e) = fun n => n ∉ e.occurrences := by
    funext n
    rw [Taken.natCast_mem_ofExpr]
  calc (lettersIn e).map (fun c => freshNames (Taken.ofExpr e) (indexOfLetter c))
      = ((lettersOf (Taken.ofExpr e)).map fun a =>
          freshNames (Taken.ofExpr e) a.toNat).reverse := by
        rw [lettersIn, List.map_reverse, List.map_map, ← hindices]
        rfl
    _ = Taken.missingFrom 0 (lettersOf (Taken.ofExpr e)).length (Taken.ofExpr e).toList := by
        rw [map_freshNames_lettersOf hnonneg, Taken.allocate, List.reverse_reverse]
    _ = (List.range (lettersIn e).length).map (Nat.nth fun n => n ∉ e.occurrences) := by
        rw [Taken.missingFrom_eq_nth, hunused, lettersIn, List.length_reverse, List.length_map]

theorem renamesLetters_freshNames (e : Expr) :
    RenamesLetters e (lettersIn e) (freshNames (Taken.ofExpr e)) where
  sorted := pairwise_lettersIn e
  mem_iff _ := mem_lettersIn
  images := map_freshNames_lettersIn e
  others _ := freshNames_of_not_isLetter _

/-- The numbers taken after the pass are the indices of its result. -/
theorem run_letters_taken {s : Switches} (on : s .letters) {depth : Nat} {e e' : Expr} {t' : Taken}
    (h : Pass.run s depth .letters e (Taken.ofExpr e) = some (e', t')) : t' = Taken.ofExpr e' := by
  rw [Pass.run, if_pos on, letters_apply] at h
  split at h
  · obtain ⟨rfl, rfl⟩ := Prod.mk.inj (Option.some.inj h)
    rfl
  · split at h
    · obtain ⟨rfl, rfl⟩ := Prod.mk.inj (Option.some.inj h)
      rfl
    · cases h

theorem isSome_run_letters (s : Switches) {depth : Nat} {e : Expr} (h : e.height ≤ depth) :
    (Pass.run s depth .letters e (Taken.ofExpr e)).isSome := by
  rw [Pass.run]
  split
  · rw [letters_apply, if_pos h]
    split <;> rfl
  · rfl

/-- **Letters are renamed in order.** If the switch is on, the pass renames the letters of a tree,
in the order of their code points, to the lowest numbers that do not occur in it, in increasing
order, and changes nothing else: no other index and not the shape of the tree. It has a result at
every depth that the height of the tree does not exceed, and the result is the same at every depth.

No two variables are merged. As long as the numbers of the letters stay below the letters, no letter
is left. Replacing the numbers of the letters by the letters gives the tree back, provided that its
variables have indices at all. Afterwards the numbers taken are the indices of the result. -/
theorem letters_renamed_in_order (s : Switches) (on : s .letters) (e : Expr) :
    ∃ letters f, RenamesLetters e letters f ∧
      (∀ depth, e.height ≤ depth →
        (Pass.run s depth .letters e (Taken.ofExpr e)).isSome) ∧
      (∀ depth e' t', Pass.run s depth .letters e (Taken.ofExpr e) = some (e', t') →
        e' = e.rename f ∧ ∀ a, a ∈ t' ↔ ∃ i ∈ e'.occurrences, a = (i : Int)) ∧
      (∀ i ∈ e.occurrences, ∀ j ∈ e.occurrences, f i = f j → i = j) ∧
      ((∀ c ∈ letters, f (indexOfLetter c) < letterStart) →
        ∀ i ∈ (e.rename f).occurrences, isLetter i = false) ∧
      ((∀ i ∈ e.occurrences, i ≤ maxIndex) →
        (e.rename f).substitute
          (letters.map fun c => (↑(f (indexOfLetter c)), ↑(indexOfLetter c))) = .ok e) := by
  have hrenames := renamesLetters_freshNames e
  refine ⟨lettersIn e, freshNames (Taken.ofExpr e), hrenames,
    fun depth hdepth => isSome_run_letters s hdepth, ?_,
    fun i hi j hj heq => hrenames.injOn hi hj heq, hrenames.isLetter_eq_false,
    hrenames.substitute_inverse⟩
  intro depth e' t' hrun
  obtain ⟨heq, -⟩ := run_letters_eq_some hrun
  rw [letterRenaming, if_pos on] at heq
  refine ⟨heq, fun a => ?_⟩
  rw [run_letters_taken on hrun, Taken.mem_ofExpr]

/-- The formula `∀x (x ∈ A ∧ v₁ = Z)`: the number between those of the letters is taken. -/
def lettersAroundOne : Expr :=
  .quantified .universal (indexOfLetter 'x')
    (.conj (.mem (.var (indexOfLetter 'x')) (.var (indexOfLetter 'A')))
      (.eq (.var 1) (.var (indexOfLetter 'Z'))))

theorem letters_renamed_around_one :
    Switches.allOn .letters ∧ ∃ letters f, RenamesLetters lettersAroundOne letters f ∧
      lettersAroundOne.rename f =
        .quantified .universal 3 (.conj (.mem (.var 3) (.var 0)) (.eq (.var 1) (.var 2))) ∧
      (lettersAroundOne.rename f).substitute
        (letters.map fun c => (↑(f (indexOfLetter c)), ↑(indexOfLetter c))) =
          .ok lettersAroundOne := by
  have on : Switches.allOn .letters := rfl
  obtain ⟨letters, f, hrenames, -, hrun, -, -, hback⟩ :=
    letters_renamed_in_order .allOn on lettersAroundOne
  obtain ⟨hresult, -⟩ := hrun 10
    (.quantified .universal 3 (.conj (.mem (.var 3) (.var 0)) (.eq (.var 1) (.var 2))))
    (Taken.ofList [0, 1, 2, 3]) (by decide +kernel)
  exact ⟨on, letters, f, hrenames, hresult.symm, hback (by decide +kernel)⟩

end Elimination

end SetFormula
