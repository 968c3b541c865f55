import SetFormula.Proofs.Assembly
import SetFormula.Proofs.Cursor
import SetFormula.Proofs.DesugaredTexts
import SetFormula.Proofs.Rendering
import SetFormula.Proofs.VariableTokens

/-!
# Every text gets an answer

The answer to a text is the printed result, or the complaint if there is none, and the two can be
told apart: no printed tree looks like a complaint (`not_errorMark_prefix_render`). There is no
answer at all if a token is at fault in itself, which only a variable with too many digits can be
(`answer_cases`, `parse_eq_badToken_iff`).

After a formula has been read, only the levels of nesting can be used up (`Runtime.Exhausts`): in
the elimination, where a message prints a tree on the way, or where the result is printed. Each of
these is complained about (`desugar_of_exhausts`).

Nothing fails while trees are built. Parts always fit (`Pass.assemble_eq`), and as long as no number
that is drawn exceeds the largest index, no index of a tree on the way does
(`le_maxIndex_of_mem_eliminationSteps`). Nor does the parser ever take a misstep, such as to move
past the end of the list (`parse_ne_misstep`, `EntryPoint.reader_ne_misstep`).
-/

namespace SetFormula

open SetFormula.Expr

/-! ## Printed trees do not look like complaints -/

/-- The first letters of the error mark. -/
def errorStart : List Char := ['E', 'r']

theorem not_errorStart_prefix_cons {c : Char} (hc : c ≠ 'E') (cs : List Char) :
    ¬errorStart <+: c :: cs := by
  simp [errorStart, List.cons_prefix_cons, hc.symm]

theorem not_errorStart_prefix_append_space {cs : List Char} (h : ¬errorStart <+: cs)
    (rest : List Char) : ¬errorStart <+: cs ++ ' ' :: rest := by
  rcases cs with _ | ⟨c, _ | ⟨d, cs⟩⟩
  · exact not_errorStart_prefix_cons (by decide) rest
  · simp [errorStart, List.cons_prefix_cons]
  · simpa [errorStart, List.cons_prefix_cons] using h

/-- A printed tree may start with the variable `E`, but what follows a variable is no letter. -/
theorem not_errorStart_prefix_renderPlain (e : Expr) : ¬errorStart <+: e.renderPlain.toList := by
  induction e with
  | var i =>
    rw [renderPlain, indexText, String.toList_ofList, indexChars]
    split
    · simp [errorStart, List.cons_prefix_cons]
    · exact not_errorStart_prefix_cons (by decide) _
  | constant c => cases c <;> decide
  | relation r a b iha _ =>
    simp only [renderPlain, String.toList_append, List.append_assoc]
    exact not_errorStart_prefix_append_space iha _
  | negation a _ =>
    simp only [renderPlain, String.toList_append]
    exact not_errorStart_prefix_cons (by decide) _
  | connective c a b _ _ =>
    simp only [renderPlain, parenthesize, String.toList_append]
    exact not_errorStart_prefix_cons (by decide) _
  | quantified q x a _ =>
    simp only [renderPlain, String.toList_append]
    cases q <;> exact not_errorStart_prefix_cons (by decide) _
  | unary k a _ =>
    cases k <;> simp only [renderPlain, brace, String.toList_append] <;>
      exact not_errorStart_prefix_cons (by decide) _
  | binary k a b iha _ =>
    have hfirst : ¬errorStart <+: (parenthesizeIf a.isChainLink a.renderPlain).toList := by
      rw [parenthesizeIf]
      split
      · rw [parenthesize, String.toList_append, String.toList_append]
        exact not_errorStart_prefix_cons (by decide) _
      · exact iha
    cases k with
    | pairSet =>
      simp only [renderPlain, brace, String.toList_append]
      exact not_errorStart_prefix_cons (by decide) _
    | _ =>
      simp only [renderPlain, String.toList_append, List.append_assoc]
      exact not_errorStart_prefix_append_space hfirst _
  | comprehension x d p _ _ =>
    simp only [renderPlain, brace, String.toList_append]
    exact not_errorStart_prefix_cons (by decide) _

theorem not_errorMark_prefix_render (e : Expr) : ¬errorMark.toList <+: e.render.toList := by
  intro h
  rw [render_eq_renderPlain] at h
  have hstart : errorStart <+: errorMark.toList := by decide
  exact not_errorStart_prefix_renderPlain e (hstart.trans h)

theorem errorMark_prefix_answer (c : Complaint) : errorMark.toList <+: c.answer.toList := by
  rw [Complaint.answer, String.toList_append]
  exact List.prefix_append _ _

/-! ## What is answered -/

/-- The levels of nesting do not suffice after a formula has been read: for the elimination, for a
message about the formula or the result of a pass, or for the text of the result. -/
def Runtime.Exhausts (r : Runtime) (s : Switches) (e : Expr) : Prop :=
  eliminate s r.limit e = none ∨
    (r.narrated ∧ ∃ u, (u = e ∨ ∃ p, (p, u) ∈ (eliminationSteps s r.limit e).1) ∧
      r.printLimit < u.printLevels) ∨
    ∃ u, eliminate s r.limit e = some u ∧ r.printLimit < u.printLevels

/-- There is no result: the text is not cut into tokens, or the tokens are not parsed, or the levels
of nesting do not suffice for the rest. -/
def HasNoResult (r : Runtime) (s : Switches) (src : Source) : Prop :=
  (∃ stray, lex src = .error stray) ∨
    ∃ tokens, lex src = .ok tokens ∧
      ((∃ failure, parse r.limit tokens = .error failure) ∨
        ∃ e, parse r.limit tokens = .ok e ∧ r.Exhausts s e)

section

variable {r : Runtime} {s : Switches} {src : Source} {tokens : List Token} {e : Expr}

theorem hasNoResult_iff (hlex : lex src = .ok tokens) (hparse : parse r.limit tokens = .ok e) :
    HasNoResult r s src ↔ r.Exhausts s e := by
  constructor
  · rintro (⟨stray, hstray⟩ | ⟨tokens', hlex', ⟨failure, hfails⟩ | ⟨e', he', hexhausts⟩⟩)
    · cases hlex.symm.trans hstray
    · cases hlex.symm.trans hlex'
      cases hparse.symm.trans hfails
    · cases hlex.symm.trans hlex'
      cases hparse.symm.trans he'
      exact hexhausts
  · exact fun hexhausts => .inr ⟨tokens, hlex, .inr ⟨e, hparse, hexhausts⟩⟩

theorem Runtime.not_exhausts_iff :
    ¬r.Exhausts s e ↔
      ∃ u, eliminate s r.limit e = some u ∧ r.TellsAll s e ∧ u.printLevels ≤ r.printLimit := by
  unfold Runtime.Exhausts Runtime.TellsAll
  simp only [Runtime.tells_iff]
  cases heliminate : eliminate s r.limit e <;> grind

/-- What is not eliminated is nested too deeply. -/
theorem eliminateFrom_cases (r : Runtime) (s : Switches) (tokens : List Token) (e : Expr) :
    (∃ u, eliminateFrom ⟨r, .ok s⟩ tokens e = .ok u) ∨
      eliminateFrom ⟨r, .ok s⟩ tokens e = .error (tooDeepAt tokens) := by
  unfold eliminateFrom
  split
  · dsimp only
    cases eliminateTelling r s e with
    | some u => exact .inl ⟨u, rfl⟩
    | none => exact .inr rfl
  · exact .inr rfl

/-- If the levels suffice, then the result is printed. -/
theorem desugar_of_not_exhausts (hlex : lex src = .ok tokens)
    (hparse : parse r.limit tokens = .ok e) (h : ¬r.Exhausts s e) :
    ∃ u, desugarTree ⟨r, .ok s⟩ src = .ok u ∧ desugar ⟨r, .ok s⟩ src = .ok u.render := by
  obtain ⟨u, heliminate, htells, hlevels⟩ := Runtime.not_exhausts_iff.1 h
  have htree : desugarTree ⟨r, .ok s⟩ src = .ok u := by
    rw [desugarTree_of_parse ⟨r, .ok s⟩ hlex hparse]
    exact eliminateFrom_eq_ok.2 ⟨s, rfl, heliminate, htells⟩
  rcases desugar_of_desugarTree htree with ⟨-, hok⟩ | ⟨-, hlevels', -⟩
  · exact ⟨u, htree, hok⟩
  · exact absurd hlevels (Nat.not_le_of_lt hlevels')

/-- If they do not, then there is a complaint. -/
theorem desugar_of_exhausts (hlex : lex src = .ok tokens) (hparse : parse r.limit tokens = .ok e)
    (h : r.Exhausts s e) : ∃ c, desugar ⟨r, .ok s⟩ src = .error (.refused c) := by
  have htree := desugarTree_of_parse ⟨r, .ok s⟩ hlex hparse
  rcases eliminateFrom_cases r s tokens e with ⟨u, hu⟩ | hdeep
  · obtain ⟨s', hs', heliminate, htells⟩ := eliminateFrom_eq_ok.1 hu
    cases hs'
    rcases desugar_of_desugarTree (htree.trans hu) with ⟨hlevels, -⟩ | ⟨-, -, hfails⟩
    · exact absurd h (Runtime.not_exhausts_iff.2 ⟨u, heliminate, htells, hlevels⟩)
    · exact ⟨_, hfails⟩
  · exact ⟨_, desugar_of_desugarTree_error (htree.trans hdeep)⟩

end

theorem answer_of_desugar_ok {setup : Setup} {text out : String}
    (h : desugar setup ⟨text, 1, none⟩ = .ok out) : answer setup text = .ok out := by
  rw [answer, h]

theorem answer_of_refused {setup : Setup} {text : String} {c : Complaint}
    (h : desugar setup ⟨text, 1, none⟩ = .error (.refused c)) :
    answer setup text = .ok c.answer := by
  rw [answer, h]

/-- The answer is a complaint, a printed result, or missing because a token is at fault. -/
theorem answer_cases (r : Runtime) (s : Switches) (text : String) :
    (∃ c : Complaint, answer ⟨r, .ok s⟩ text = .ok c.answer ∧ HasNoResult r s ⟨text, 1, none⟩) ∨
    (∃ u : Expr, answer ⟨r, .ok s⟩ text = .ok u.render ∧
      desugarTree ⟨r, .ok s⟩ ⟨text, 1, none⟩ = .ok u ∧ ¬HasNoResult r s ⟨text, 1, none⟩) ∨
    ∃ tokens fault, answer ⟨r, .ok s⟩ text = .error (.badToken fault) ∧
      lex ⟨text, 1, none⟩ = .ok tokens ∧ parse r.limit tokens = .error (.badToken fault) := by
  cases hlex : lex ⟨text, 1, none⟩ with
  | error stray =>
    have hrefused := desugar_of_desugarTree_error (desugarTree_of_lex_error ⟨r, .ok s⟩ hlex)
    exact .inl ⟨_, answer_of_refused hrefused, .inl ⟨stray, hlex⟩⟩
  | ok tokens =>
    cases hparse : parse r.limit tokens with
    | error failure =>
      have hno : HasNoResult r s ⟨text, 1, none⟩ := .inr ⟨tokens, hlex, .inl ⟨failure, hparse⟩⟩
      have hfails := desugar_of_desugarTree_error
        (desugarTree_of_parse_error ⟨r, .ok s⟩ hlex hparse)
      cases failure with
      | refused p left => exact .inl ⟨_, answer_of_refused hfails, hno⟩
      | tooDeep => exact .inl ⟨_, answer_of_refused hfails, hno⟩
      | badToken fault =>
        refine .inr (.inr ⟨tokens, fault, ?_, rfl, hparse⟩)
        rw [answer, hfails]
        rfl
      | misstep m => exact absurd hparse (parse_ne_misstep r.limit tokens m)
    | ok e =>
      by_cases hexhausts : r.Exhausts s e
      · obtain ⟨c, hc⟩ := desugar_of_exhausts hlex hparse hexhausts
        exact .inl ⟨c, answer_of_refused hc, (hasNoResult_iff hlex hparse).2 hexhausts⟩
      · obtain ⟨u, htree, hok⟩ := desugar_of_not_exhausts hlex hparse hexhausts
        exact .inr (.inl ⟨u, answer_of_desugar_ok hok, htree,
          fun hno => hexhausts ((hasNoResult_iff hlex hparse).1 hno)⟩)

/-- There is no answer if and only if the first variable that cannot be looked up has too many
digits. -/
theorem answer_eq_error_iff (r : Runtime) (s : Switches) (text : String) (failure : Failure) :
    answer ⟨r, .ok s⟩ text = .error failure ↔
      ∃ tokens t, lex ⟨text, 1, none⟩ = .ok tokens ∧
        tokens.find? Token.isUnreadable = some t ∧ t.isOverlong ∧
        failure = .badToken (.tooManyDigits t.indexDigits.length) := by
  constructor
  · intro hfailure
    rcases answer_cases r s text with ⟨c, hc, -⟩ | ⟨u, hu, -, -⟩ |
      ⟨tokens, fault, hfault, hlex, hparse⟩
    · cases hc.symm.trans hfailure
    · cases hu.symm.trans hfailure
    · cases hfault.symm.trans hfailure
      obtain ⟨t, hfind, hlong, rfl⟩ := (parse_eq_badToken_iff hlex r.limit fault).1 hparse
      exact ⟨tokens, t, hlex, hfind, hlong, rfl⟩
  · rintro ⟨tokens, t, hlex, hfind, hlong, rfl⟩
    have hparse := (parse_eq_badToken_iff hlex r.limit _).2 ⟨t, hfind, hlong, rfl⟩
    have hfails := desugar_of_desugarTree_error
      (desugarTree_of_parse_error ⟨r, .ok s⟩ hlex hparse)
    rw [answer, hfails]
    rfl

/-- The error mark tells complaints from printed results. -/
theorem errorMark_prefix_iff_of_answer {r : Runtime} {s : Switches} {text out : String}
    (h : answer ⟨r, .ok s⟩ text = .ok out) :
    (errorMark.toList <+: out.toList ↔ HasNoResult r s ⟨text, 1, none⟩) ∧
      (¬HasNoResult r s ⟨text, 1, none⟩ →
        ∃ u, desugarTree ⟨r, .ok s⟩ ⟨text, 1, none⟩ = .ok u ∧ out = u.render) := by
  rcases answer_cases r s text with ⟨c, hc, hno⟩ | ⟨u, hu, htree, hresult⟩ |
    ⟨tokens, fault, hfault, -, -⟩
  · cases hc.symm.trans h
    exact ⟨iff_of_true (errorMark_prefix_answer c) hno, fun hresult => absurd hno hresult⟩
  · cases hu.symm.trans h
    exact ⟨iff_of_false (not_errorMark_prefix_render u) hresult, fun _ => ⟨u, htree, rfl⟩⟩
  · cases hfault.symm.trans h

/-! ## Indices on the way -/

theorem ofIndex_of_le {i : Nat} (h : i ≤ maxIndex) : ofIndex i = .ok (var i) := by
  rw [ofIndex, checkIndex, if_pos ⟨Int.natCast_nonneg i, by omega⟩]
  rfl

/-- If the indices of a formula and the numbers that are drawn are not too large, then neither are
the indices of any tree on the way. -/
theorem le_maxIndex_of_mem_eliminationSteps {s : Switches} {limit : Nat} {e u : Expr}
    (he : ∀ i ∈ e.occurrences, i ≤ maxIndex)
    (hdrawn : ∀ i ∈ drawnNumbers s limit e, i ≤ maxIndex)
    (hu : u = e ∨ ∃ p, (p, u) ∈ (eliminationSteps s limit e).1) :
    ∀ i ∈ u.occurrences, i ≤ maxIndex := by
  intro i hi
  rcases hu with rfl | ⟨p, hp⟩
  · exact he i hi
  · rcases Pass.mem_runAll_occurrences Pass.all (Taken.covers_ofExpr e) hp hi with hold | hnew
    · exact he i hold
    · exact hdrawn i hnew

/-- **Every text gets an answer.** There is none if and only if the text is cut into tokens and the
first variable among them that has too many digits or a number that reaches the letters has too many
digits; nothing else is ever at fault. An answer starts with the error mark if and only if there is
no result, and is the printed result otherwise; no printed tree starts with the mark. No pass ever
puts parts into a node that do not fit, no entry point of the parser takes a misstep from any
position in a list, and as long as the numbers that are drawn are indices, all variables of the tree
that was read and of the result of every pass have indices. -/
theorem every_text_answered (r : Runtime) (s : Switches) (text : String) :
    (∀ failure, answer ⟨r, .ok s⟩ text = .error failure ↔
      ∃ tokens t, lex ⟨text, 1, none⟩ = .ok tokens ∧
        tokens.find? Token.isUnreadable = some t ∧ t.isOverlong ∧
        failure = .badToken (.tooManyDigits t.indexDigits.length)) ∧
    (∀ out, answer ⟨r, .ok s⟩ text = .ok out →
      (errorMark.toList <+: out.toList ↔ HasNoResult r s ⟨text, 1, none⟩) ∧
      (¬HasNoResult r s ⟨text, 1, none⟩ →
        ∃ u, desugarTree ⟨r, .ok s⟩ ⟨text, 1, none⟩ = .ok u ∧ out = u.render)) ∧
    (∀ e : Expr, ¬errorMark.toList <+: e.render.toList) ∧
    (∀ (p : Pass) (e : Expr), p.assemble s r.limit e = liftM (p.run s r.limit e)) ∧
    (∀ (entry : EntryPoint) (items : List Item) (start : Nat), start ≤ items.length →
      ∀ m, entry.reader r.limit items start ≠ .error (.misstep m)) ∧
    ((∀ i ∈ drawnInText s r.limit ⟨text, 1, none⟩, i ≤ maxIndex) →
      ∀ e, readFormula r.limit ⟨text, 1, none⟩ = .ok e →
        ∀ u, (u = e ∨ ∃ p, (p, u) ∈ (eliminationSteps s r.limit e).1) →
          ∀ i ∈ u.occurrences, ofIndex i = .ok (var i)) := by
  refine ⟨answer_eq_error_iff r s text, fun out hout => errorMark_prefix_iff_of_answer hout,
    not_errorMark_prefix_render, fun p e => p.assemble_eq e,
    fun entry items start hstart m => entry.reader_ne_misstep r.limit hstart m, ?_⟩
  intro hdrawn e hread u hu i hi
  rw [drawnInText_of_ok hread] at hdrawn
  have he : ∀ j ∈ e.occurrences, j ≤ maxIndex := fun j hj =>
    ((isReadableFormula_of_readFormula hread).readable j hj).le_maxIndex
  exact ofIndex_of_le (le_maxIndex_of_mem_eliminationSteps he hdrawn hu i hi)

/-- The formula `E ∈ {v₀ ∈ Pot(r) | v₀ = r}`. -/
def letterInSeparation : Expr :=
  mem (var (indexOfLetter 'E'))
    (comprehension 0 (unary .powerSet (var (indexOfLetter 'r')))
      (eq (var 0) (var (indexOfLetter 'r'))))

/-- The answer starts with the letter that the error mark starts with. -/
theorem every_text_answered_letter :
    answer ⟨⟨40, 40, true⟩, .ok keepLetters⟩ "E ∈ \x7br\x7d" = .ok letterInSeparation.render ∧
      ¬errorMark.toList <+: letterInSeparation.render.toList ∧
      ¬HasNoResult ⟨40, 40, true⟩ keepLetters ⟨"E ∈ \x7br\x7d", 1, none⟩ ∧
      (∀ i ∈ drawnInText keepLetters 40 ⟨"E ∈ \x7br\x7d", 1, none⟩, i ≤ maxIndex) ∧
      ∀ i ∈ letterInSeparation.occurrences, ofIndex i = .ok (var i) := by
  have hdesugar : desugar ⟨⟨40, 40, true⟩, .ok keepLetters⟩ ⟨"E ∈ \x7br\x7d", 1, none⟩ =
      .ok letterInSeparation.render := by decide +kernel
  have hread : readFormula 40 ⟨"E ∈ \x7br\x7d", 1, none⟩ =
      .ok (mem (var (indexOfLetter 'E')) (unary .singleton (var (indexOfLetter 'r')))) := by
    decide +kernel
  have hdrawn : ∀ i ∈ drawnInText keepLetters 40 ⟨"E ∈ \x7br\x7d", 1, none⟩, i ≤ maxIndex := by
    decide +kernel
  have hanswer := answer_of_desugar_ok hdesugar
  obtain ⟨-, htext, hmark, -, -, hindices⟩ :=
    every_text_answered ⟨40, 40, true⟩ keepLetters "E ∈ \x7br\x7d"
  have hnot := hmark letterInSeparation
  refine ⟨hanswer, hnot, fun hno => hnot ((htext _ hanswer).1.2 hno), hdrawn, ?_⟩
  exact hindices hdrawn _ hread _ (.inr ⟨.constants, by decide⟩)

end SetFormula
