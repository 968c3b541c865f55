import SetFormula.Proofs.DrawnNumbers
import SetFormula.Proofs.RoundTrip

/-!
# Desugared texts are texts of the language

A text is desugared if it can be read, the switches can be read, elimination returns a tree, and
messages can be given about all trees on the way (`desugarTree_eq_ok`). If messages are put into
words, the result can be printed then (`desugar_of_desugarTree`).

* Elimination keeps well-sorted trees (`eliminate_keepsSort`).
* The indices of its result are old ones or drawn numbers, so the result of a readable formula is
  readable as long as no number that is drawn reaches the letters
  (`isReadableFormula_of_eliminate`).

A readable formula is read back from its text. So what comes out, whatever the switches, can be put
in again: `desugared_text_readable`.
-/

namespace SetFormula

open Elimination

/-- Elimination keeps well-sorted trees, and their sort. -/
theorem eliminate_keepsSort {s : Switches} {depth : Nat} {e e' : Expr}
    (h : eliminate s depth e = some e') : KeepsSort e e' := by
  obtain ⟨e₁, t₁, t', hletters, hunfolds⟩ := eliminate_unfolds h
  obtain ⟨rfl, -⟩ := run_letters_eq_some hletters
  have hkeeps := hunfolds.keepsSort
  constructor
  · intro he
    exact hkeeps.term (by rwa [(Expr.isWellSorted_rename _ e).1])
  · intro he
    exact hkeeps.formula (by rwa [(Expr.isWellSorted_rename _ e).2])

/-- The result of eliminating from a readable formula is readable, if no number that is drawn
reaches the letters. -/
theorem isReadableFormula_of_eliminate {s : Switches} {depth : Nat} {e e' : Expr}
    (he : e.IsReadableFormula) (h : eliminate s depth e = some e')
    (hdrawn : ∀ i ∈ drawnNumbers s depth e, i < letterStart) : e'.IsReadableFormula := by
  refine ⟨(eliminate_keepsSort h).formula he.sorted, ?_⟩
  intro i hi
  rcases occurrences_of_eliminate h hi with ⟨hold, -⟩ | hnew
  · exact he.readable i hold
  · exact .inl (hdrawn i hnew)

/-! ## Messages -/

/-- Messages can be given about a formula and about the results of all passes. -/
def Runtime.TellsAll (r : Runtime) (s : Switches) (e : Expr) : Prop :=
  ∀ u, (u = e ∨ ∃ p, (p, u) ∈ (eliminationSteps s r.limit e).1) → r.tells u

theorem Runtime.tells_iff {r : Runtime} {e : Expr} :
    r.tells e ↔ (r.narrated → e.printLevels ≤ r.printLimit) := by
  rw [Runtime.tells]
  cases r.narrated <;> simp

/-- The last result is the formula itself or the result of a pass. -/
theorem Pass.mem_of_runAll {s : Switches} {depth : Nat} {ps : List Pass} {e e' : Expr} {t : Taken}
    (h : (runAll s depth ps e t).2 = some e') :
    e' = e ∨ ∃ p, (p, e') ∈ (runAll s depth ps e t).1 := by
  induction ps generalizing e t with
  | nil => exact .inl (Option.some.inj h).symm
  | cons p ps ih =>
    rw [runAll] at h ⊢
    split at h
    · cases h
    · rename_i e₁ t₁ hrun
      rcases ih h with rfl | ⟨q, hq⟩
      · exact .inr ⟨p, List.mem_cons_self⟩
      · exact .inr ⟨q, List.mem_cons_of_mem _ hq⟩

theorem eliminateTelling_eq_some {r : Runtime} {s : Switches} {e e' : Expr} :
    eliminateTelling r s e = some e' ↔
      eliminate s r.limit e = some e' ∧
        ∀ step ∈ (eliminationSteps s r.limit e).1, r.tells step.2 := by
  change (if (eliminationSteps s r.limit e).1.all (fun step => r.tells step.2)
    then eliminate s r.limit e else none) = some e' ↔ _
  rw [← List.all_eq_true]
  split
  · exact (and_iff_left ‹_›).symm
  · simp_all

theorem eliminateFrom_eq_ok {setup : Setup} {tokens : List Token} {e e' : Expr} :
    eliminateFrom setup tokens e = .ok e' ↔
      ∃ s, setup.switches = .ok s ∧ eliminate s setup.limit e = some e' ∧ setup.TellsAll s e := by
  have hall (s : Switches) : setup.TellsAll s e ↔ setup.tells e ∧
      ∀ step ∈ (eliminationSteps s setup.limit e).1, setup.tells step.2 := by
    constructor
    · exact fun h => ⟨h e (.inl rfl), fun step hstep => h step.2 (.inr ⟨step.1, hstep⟩)⟩
    · rintro ⟨hfirst, hsteps⟩ u (rfl | ⟨p, hp⟩)
      · exact hfirst
      · exact hsteps _ hp
  simp only [hall]
  unfold eliminateFrom
  split
  · cases setup.switches with
    | error fault => simp
    | ok s =>
      have htelling : eliminateTelling setup.toRuntime s e = some e' ↔ _ := eliminateTelling_eq_some
      cases heliminate : eliminateTelling setup.toRuntime s e <;> simp_all
  · simp_all

/-! ## Texts -/

section

variable (setup : Setup) {src : Source} {tokens : List Token}

theorem desugarTree_of_lex_error {stray : StrayCharacter} (hlex : lex src = .error stray) :
    desugarTree setup src = .error (.refused ⟨.stray stray.char, some stray.place⟩) := by
  rw [desugarTree, readTokens, hlex]
  rfl

theorem desugarTree_of_lex (hlex : lex src = .ok tokens) :
    desugarTree setup src =
      (readTree setup.limit tokens).bind (eliminateFrom setup tokens) := by
  rw [desugarTree, readTokens, hlex]
  rfl

theorem desugarTree_of_parse_error {failure : ParseFailure} (hlex : lex src = .ok tokens)
    (hparse : parse setup.limit tokens = .error failure) :
    desugarTree setup src = .error (failure.locate tokens) := by
  rw [desugarTree_of_lex setup hlex, readTree, hparse]
  rfl

theorem desugarTree_of_parse {e : Expr} (hlex : lex src = .ok tokens)
    (hparse : parse setup.limit tokens = .ok e) :
    desugarTree setup src = eliminateFrom setup tokens e := by
  rw [desugarTree_of_lex setup hlex, readTree, hparse]
  rfl

end

theorem desugar_of_desugarTree_error {setup : Setup} {src : Source} {failure : Failure}
    (h : desugarTree setup src = .error failure) : desugar setup src = .error failure := by
  rw [desugar, h]
  rfl

/-- A text is desugared if it can be read, the switches can be read, elimination returns, and
messages can be given. -/
theorem desugarTree_eq_ok {setup : Setup} {src : Source} {e' : Expr} :
    desugarTree setup src = .ok e' ↔
      ∃ s e, setup.switches = .ok s ∧ readFormula setup.limit src = .ok e ∧
        eliminate s setup.limit e = some e' ∧ setup.TellsAll s e := by
  unfold desugarTree readFormula
  cases readTokens src with
  | error f => simp [bind, Except.bind]
  | ok tokens =>
    simp only [bind, Except.bind]
    cases readTree setup.limit tokens with
    | error f => simp
    | ok e => simp [eliminateFrom_eq_ok]

/-- A result is printed, unless it takes too many levels, which only shows now if no message has
been put into words. -/
theorem desugar_of_desugarTree {setup : Setup} {src : Source} {e' : Expr}
    (h : desugarTree setup src = .ok e') :
    (e'.printLevels ≤ setup.printLimit ∧ desugar setup src = .ok e'.render) ∨
      (setup.narrated = false ∧ setup.printLimit < e'.printLevels ∧
        desugar setup src = .error (.refused (unprintable src))) := by
  by_cases hlevels : e'.printLevels ≤ setup.printLimit
  · have hprinted : e'.renderWithin setup.printLimit = some e'.render := if_pos hlevels
    refine .inl ⟨hlevels, ?_⟩
    rw [desugar, h]
    simp only [bind, Except.bind, hprinted]
    rfl
  · have hprinted : e'.renderWithin setup.printLimit = none := if_neg hlevels
    obtain ⟨s, e, -, -, heliminate, htells⟩ := desugarTree_eq_ok.1 h
    have htold := Runtime.tells_iff.1 (htells e' (Pass.mem_of_runAll heliminate))
    refine .inr ⟨Bool.eq_false_iff.2 fun hnarrated => hlevels (htold hnarrated),
      Nat.lt_of_not_le hlevels, ?_⟩
    rw [desugar, h]
    simp only [bind, Except.bind, hprinted]

/-- The numbers that are drawn while a text is desugared. -/
def drawnInText (s : Switches) (limit : Nat) (src : Source) : List Nat :=
  match readFormula limit src with
  | .ok e => drawnNumbers s limit e
  | .error _ => []

theorem drawnInText_of_ok {s : Switches} {limit : Nat} {src : Source} {e : Expr}
    (h : readFormula limit src = .ok e) : drawnInText s limit src = drawnNumbers s limit e := by
  rw [drawnInText, h]

/-- **Desugared texts are texts of the language.** If a text is desugared, whatever the switches,
and no number that is drawn reaches the letters, then the result is a well-sorted formula. It is
printed, unless its text takes too many levels and this was not found before, no message having been
put into words. Every source with the printed text is read as that formula: it may be refused for
its nesting, which it is not once the limit is twice the size of the tree, and for nothing else. So
the text can be fed back, under any switches, and elimination goes on with the tree. -/
theorem desugared_text_readable (r : Runtime) (s : Switches) (src : Source) (e' : Expr)
    (h : desugarTree ⟨r, .ok s⟩ src = .ok e')
    (hdrawn : ∀ i ∈ drawnInText s r.limit src, i < letterStart) :
    e'.isWellSortedFormula ∧
      (desugar ⟨r, .ok s⟩ src = .ok e'.render ∨
        r.narrated = false ∧ r.printLimit < e'.printLevels ∧
          desugar ⟨r, .ok s⟩ src = .error (.refused (unprintable src))) ∧
      ∀ back : Source, back.text = e'.render →
        (∀ limit', 2 * e'.size ≤ limit' → readFormula limit' back = .ok e') ∧
        (∀ limit', readFormula limit' back = .ok e' ∨
          ∃ place, readFormula limit' back = .error (.refused ⟨.tooDeep, place⟩)) ∧
        ∀ (r' : Runtime) s' e'', 2 * e'.size ≤ r'.limit → eliminate s' r'.limit e' = some e'' →
          r'.TellsAll s' e' → desugarTree ⟨r', .ok s'⟩ back = .ok e'' := by
  obtain ⟨s₁, e, hs, hread, heliminate, -⟩ := desugarTree_eq_ok.1 h
  cases hs
  rw [drawnInText_of_ok hread] at hdrawn
  have hreadable : e'.IsReadableFormula :=
    isReadableFormula_of_eliminate (isReadableFormula_of_readFormula hread) heliminate hdrawn
  refine ⟨hreadable.sorted, (desugar_of_desugarTree h).imp_left And.right, ?_⟩
  intro back htext
  have hback : ∀ limit', 2 * e'.size ≤ limit' → readFormula limit' back = .ok e' :=
    fun limit' hlimit => readFormula_render hreadable htext hlimit
  refine ⟨hback, readFormula_render_or hreadable htext, ?_⟩
  intro r' s' e'' hlimit hnext htells
  exact desugarTree_eq_ok.2 ⟨s', e', rfl, hback r'.limit hlimit, hnext, htells⟩

open SetFormula.Expr

/-- All switches on but those for letters and comprehensions. -/
def keepLetters : Switches := Switches.allOn.turnOff [.letters, .comprehension]

/-- A text with letters, a numbered variable and a comprehension. -/
def subsetText : Source := ⟨"x ⊆ \x7by ∈ A | y ≠ \x7bv1, x\x7d\x7d", 1, none⟩

/-- The formula `∀v₀ (v₀ ∈ x → v₀ ∈ {y ∈ A | ¬∀v₂ (v₂ ∈ y ↔ (v₂ = v₁ ∨ v₂ = x))})`. -/
def membersOfSeparation : Expr :=
  all 0 (imp (mem (var 0) (var (indexOfLetter 'x')))
    (mem (var 0) (comprehension (indexOfLetter 'y') (var (indexOfLetter 'A'))
      (negation (all 2 (iff (mem (var 2) (var (indexOfLetter 'y')))
        (disj (eq (var 2) (var 1)) (eq (var 2) (var (indexOfLetter 'x'))))))))))

/-- Letters, the comprehension and an index of the text are kept, and the numbers that are drawn
stand next to them. -/
theorem desugared_text_readable_subset :
    desugarTree ⟨⟨40, 40, true⟩, .ok keepLetters⟩ subsetText = .ok membersOfSeparation ∧
    (∀ i ∈ drawnInText keepLetters 40 subsetText, i < letterStart) ∧
    membersOfSeparation.isWellSortedFormula ∧
    desugar ⟨⟨40, 40, true⟩, .ok keepLetters⟩ subsetText = .ok membersOfSeparation.render ∧
    readFormula 60 ⟨membersOfSeparation.render, 7, some "again"⟩ = .ok membersOfSeparation := by
  have htree : desugarTree ⟨⟨40, 40, true⟩, .ok keepLetters⟩ subsetText =
      .ok membersOfSeparation := by decide +kernel
  have hdrawn : ∀ i ∈ drawnInText keepLetters 40 subsetText, i < letterStart := by decide +kernel
  obtain ⟨hsorted, hprinted, hback⟩ := desugared_text_readable _ _ _ _ htree hdrawn
  exact ⟨htree, hdrawn, hsorted, hprinted.resolve_right (by simp), (hback _ rfl).1 60 (by decide)⟩

end SetFormula
