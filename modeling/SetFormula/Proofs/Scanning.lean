import SetFormula.Proofs.LongestMatch

/-!
# Lexing is a scan by longest matches

`Scans src tokens read rest` says how a text is read from the left: blanks are passed over, and
where another character stands, the longest form that the characters from there on start with is
cut, white space disregarded. It is a relation between a text and what has been read of it, and it
knows nothing of classes that are tried in order or of columns that are looked up.

* A scan never gets lost: the tokens of the whole text are those read so far and those of the rest
  (`lex_eq_of_scans`), and a scan that has not come to the end goes on unless no form matches
  (`Scans.exists_end`). So the lexer gives the tokens of the scan of the whole text, or the
  character at which the scan stops.
* What has been cut is what has been read, without its white space (`Scans.flatMap_text`), and every
  token stands where it was cut (`Scans.exists_cut`), so columns increase (`Scans.pairwise_column`).
-/

namespace SetFormula

/-- A text is read from the left: the tokens have been cut from what has been read, and the rest
follows. -/
inductive Scans (src : Source) : List Token → List Char → List Char → Prop
  | start : Scans src [] [] src.text.toList
  /-- White space is passed over. -/
  | blank {tokens : List Token} {read rest : List Char} {c : Char}
      (h : Scans src tokens read (c :: rest)) (hc : Text.isBlank c) :
    Scans src tokens (read ++ [c]) rest
  /-- The longest form is cut, at the column of its first character. -/
  | token {tokens : List Token} {read used rest : List Char} {c : Char} {l : Lexeme}
      (h : Scans src tokens read (c :: used ++ rest)) (hc : Text.isBlank c = false)
      (hl : IsLongest l (inkOf (c :: used ++ rest))) (hused : inkOf (c :: used) = l.chars) :
    Scans src (tokens ++ [⟨l.kind, String.ofList l.chars, src.placeAt (read.length + 1)⟩])
      (read ++ c :: used) rest

/-! ## Characters that are not white space -/

theorem inkOf_cons_of_not_blank {c : Char} (hc : Text.isBlank c = false) (cs : List Char) :
    inkOf (c :: cs) = c :: inkOf cs := by
  simp [inkOf, hc]

theorem length_inkOf_le (cs : List Char) : (inkOf cs).length ≤ cs.length := List.length_filter_le ..

theorem inkedAfter_append (n : Nat) (cs cs' : List Char) :
    inkedAfter n (cs ++ cs') = inkedAfter n cs ++ inkedAfter (n + cs.length) cs' := by
  rw [inkedAfter, List.zipIdx_append, List.filter_append, inkedAfter, inkedAfter,
    Nat.add_right_comm]

theorem inkedAfter_cons_of_not_blank (n : Nat) {c : Char} (hc : Text.isBlank c = false)
    (cs : List Char) : inkedAfter n (c :: cs) = (c, n + 1) :: inkedAfter (n + 1) cs := by
  simp [inkedAfter, List.zipIdx_cons, hc]

theorem inkedAfter_cons_of_blank (n : Nat) {c : Char} (hc : Text.isBlank c) (cs : List Char) :
    inkedAfter n (c :: cs) = inkedAfter (n + 1) cs := by
  simp [inkedAfter, List.zipIdx_cons, hc]

/-! ## Lexing what follows -/

/-- The first token, and then the tokens of what follows it. -/
theorem lexInked_token (src : Source) {first after : List (Char × Nat)} {c : Char} {column : Nat}
    {l : Lexeme} (hlead : leadingLexeme? (((c, column) :: first ++ after).map (·.1)) = some l)
    (hchars : ((c, column) :: first).map (·.1) = l.chars) :
    lexInked src ((c, column) :: first ++ after) =
      (lexInked src after).map (⟨l.kind, String.ofList l.chars, src.placeAt column⟩ :: ·) := by
  have hlength : l.chars.length = first.length + 1 := by
    rw [← hchars]
    simp
  have hcut : cut 0 (((c, column) :: first ++ after).map (·.1)) =
      (cut 0 (after.map (·.1))).map (l :: ·) := by
    rw [List.cons_append, List.map_cons, List.map_append] at hlead ⊢
    rw [cut, hlead]
    have hskip := cut_append (first.map (·.1)) (after.map (·.1))
    rw [List.length_map] at hskip
    simp only [hlength, Nat.add_sub_cancel, hskip]
  unfold lexInked
  rw [hcut]
  cases hafter : cut 0 (after.map (·.1)) with
  | ok ls =>
    have hdrop : (((c, column) :: first ++ after).map (·.2)).drop l.chars.length =
        after.map (·.2) := by
      rw [List.map_append, hlength]
      apply List.drop_left'
      simp
    simp only [Except.map, placeLexemes, hdrop]
    rfl
  | error e =>
    have hlt : e.after < (after.map (·.2)).length := by
      simpa using after_lt_of_cut hafter
    have hcolumn : ((((c, column) :: first ++ after).map (·.2)).reverse.drop e.after).headD 0 =
        ((after.map (·.2)).reverse.drop e.after).headD 0 := by
      rw [List.map_append, List.reverse_append, List.drop_append_of_le_length
        (by rw [List.length_reverse]; omega)]
      cases hrest : (after.map (·.2)).reverse.drop e.after with
      | nil =>
        rw [List.drop_eq_nil_iff, List.length_reverse] at hrest
        omega
      | cons a rest => rfl
    simp only [Except.map, hcolumn]

/-- If no token stands at the head, the first character is at fault. -/
theorem lexInked_stray (src : Source) {after : List (Char × Nat)} {c : Char} {column : Nat}
    (hlead : leadingLexeme? (((c, column) :: after).map (·.1)) = none) :
    lexInked src ((c, column) :: after) = .error ⟨c, src.placeAt column⟩ := by
  have hcut : cut 0 (((c, column) :: after).map (·.1)) = .error ⟨c, after.length⟩ := by
    rw [List.map_cons] at hlead ⊢
    rw [cut, hlead, List.length_map]
  have hcolumn : (((((c, column) :: after).map (·.2)).reverse).drop after.length).headD 0 =
      column := by
    rw [List.map_cons, List.reverse_cons, List.drop_left' (by simp)]
    rfl
  unfold lexInked
  rw [hcut]
  simp only [hcolumn]

/-! ## What a scan says of the lexer -/

section

variable {src : Source} {tokens : List Token} {read rest : List Char}

/-- The tokens of a text are those that a scan has cut and those of what follows. -/
theorem lex_eq_of_scans (h : Scans src tokens read rest) :
    lex src = (lexInked src (inkedAfter read.length rest)).map (tokens ++ ·) := by
  induction h with
  | start =>
    rw [lex, Source.inked, List.length_nil]
    cases lexInked src (inkedAfter 0 src.text.toList) <;> rfl
  | blank _ hc ih =>
    rw [ih, inkedAfter_cons_of_blank _ hc, List.length_append, List.length_singleton]
  | @token tokens read used rest c l _ hc hl hused ih =>
    have hinked : inkedAfter read.length (c :: used ++ rest) =
        (c, read.length + 1) :: inkedAfter (read.length + 1) used ++
          inkedAfter (read ++ c :: used).length rest := by
      rw [inkedAfter_append, inkedAfter_cons_of_not_blank _ hc, List.length_append]
    have hlead : leadingLexeme? (((c, read.length + 1) :: inkedAfter (read.length + 1) used ++
        inkedAfter (read ++ c :: used).length rest).map (·.1)) = some l := by
      rw [← hinked, map_fst_inkedAfter]
      exact leadingLexeme?_eq_some_iff.2 hl
    have hchars : ((c, read.length + 1) :: inkedAfter (read.length + 1) used).map (·.1) =
        l.chars := by
      rw [List.map_cons, map_fst_inkedAfter, ← hused, inkOf_cons_of_not_blank hc]
    rw [ih, hinked, lexInked_token src hlead hchars]
    cases lexInked src (inkedAfter (read ++ c :: used).length rest) with
    | ok ts => simp [Except.map]
    | error e => rfl

theorem Scans.lex_eq_ok (h : Scans src tokens read []) : lex src = .ok tokens := by
  rw [lex_eq_of_scans h]
  change Except.ok (tokens ++ []) = _
  rw [List.append_nil]

/-! ## Progress -/

/-- Characters at the head of what is not white space are those of a part of the text. -/
theorem exists_append_of_prefix_inkOf {w cs : List Char} (h : w <+: inkOf cs) :
    ∃ used rest, cs = used ++ rest ∧ inkOf used = w := by
  obtain ⟨after, hafter⟩ := h
  obtain ⟨used, rest, hcs, hused, -⟩ := List.filter_eq_append_iff.1 hafter.symm
  exact ⟨used, rest, hcs, hused⟩

/-- A scan comes to a character where no form matches. -/
def StopsAt (src : Source) (stray : StrayCharacter) : Prop :=
  ∃ tokens read c rest, Scans src tokens read (c :: rest) ∧ Text.isBlank c = false ∧
    (∀ l, IsForm l → ¬l.chars <+: inkOf (c :: rest)) ∧
    stray = ⟨c, src.placeAt (read.length + 1)⟩

theorem StopsAt.lex_eq_error {stray : StrayCharacter} (h : StopsAt src stray) :
    lex src = .error stray := by
  obtain ⟨tokens, read, c, rest, hscans, hc, hstray, rfl⟩ := h
  have hinked := inkedAfter_cons_of_not_blank read.length hc rest
  have hlead : leadingLexeme?
      (((c, read.length + 1) :: inkedAfter (read.length + 1) rest).map (·.1)) = none := by
    rw [← hinked, map_fst_inkedAfter]
    exact leadingLexeme?_eq_none_iff.2 hstray
  rw [lex_eq_of_scans hscans, hinked, lexInked_stray src hlead]
  rfl

/-- A scan that has not come to the end passes over a blank, cuts a token or stops. -/
theorem Scans.step {c : Char} (h : Scans src tokens read (c :: rest)) :
    (∃ tokens' read' rest', Scans src tokens' read' rest' ∧ rest'.length < (c :: rest).length) ∨
      ∃ stray, StopsAt src stray := by
  by_cases hblank : Text.isBlank c
  · exact .inl ⟨_, _, rest, .blank h hblank, by simp⟩
  · have hc : Text.isBlank c = false := by simpa using hblank
    cases hlead : leadingLexeme? (inkOf (c :: rest)) with
    | none =>
      exact .inr ⟨_, tokens, read, c, rest, h, hc, leadingLexeme?_eq_none_iff.1 hlead, rfl⟩
    | some l =>
      have hl := leadingLexeme?_eq_some_iff.1 hlead
      obtain ⟨used, rest', hsplit, hused⟩ := exists_append_of_prefix_inkOf hl.starts
      cases used with
      | nil => exact absurd hused.symm hl.isForm.ne_nil
      | cons a used =>
        rw [List.cons_append] at hsplit
        obtain ⟨rfl, rfl⟩ := List.cons.inj hsplit
        refine .inl ⟨_, _, rest', .token h hc hl hused, ?_⟩
        rw [List.length_cons, List.length_append]
        omega

/-- A scan comes to the end or stops. -/
theorem Scans.exists_end (h : Scans src tokens read rest) :
    (∃ tokens' read', Scans src tokens' read' []) ∨ ∃ stray, StopsAt src stray := by
  induction hn : rest.length using Nat.strong_induction_on generalizing tokens read rest with
  | _ n ih =>
    cases rest with
    | nil => exact .inl ⟨tokens, read, h⟩
    | cons c rest =>
      rcases h.step with ⟨tokens', read', rest', h', hlt⟩ | hstops
      · exact ih _ (hn ▸ hlt) h' rfl
      · exact .inr hstops

/-! ## What has been cut -/

theorem Scans.eq_append (h : Scans src tokens read rest) : src.text.toList = read ++ rest := by
  induction h with
  | start => rfl
  | blank _ _ ih => rw [ih, List.append_assoc, List.singleton_append]
  | token _ _ _ _ ih => rw [ih, List.append_assoc]

/-- The tokens are what has been read, without its white space. -/
theorem Scans.flatMap_text (h : Scans src tokens read rest) :
    tokens.flatMap (·.text.toList) = inkOf read := by
  induction h with
  | start => rfl
  | blank _ hc ih => rw [ih, inkOf_append]; simp [inkOf, hc]
  | token _ _ _ hused ih =>
    rw [List.flatMap_append, ih, inkOf_append, hused]
    simp

/-- Every token was cut at the column where it stands, as the longest form there, after the tokens
before it. -/
theorem Scans.exists_cut (h : Scans src tokens read rest) {before after : List Token} {t : Token}
    (htokens : tokens = before ++ t :: after) :
    ∃ read c rest, src.text.toList = read ++ c :: rest ∧ Text.isBlank c = false ∧
      t.place = src.placeAt (read.length + 1) ∧ inkOf read = before.flatMap (·.text.toList) ∧
      IsLongest ⟨t.kind, t.text.toList⟩ (inkOf (c :: rest)) := by
  induction h generalizing after with
  | start => simp at htokens
  | blank _ _ ih => exact ih htokens
  | @token tokens read used rest c l h hc hl hused ih =>
    rcases List.eq_nil_or_concat after with rfl | ⟨after, last, rfl⟩
    · -- the token is the last one
      obtain ⟨rfl, ht⟩ := List.append_inj' htokens rfl
      obtain rfl := (List.cons.inj ht).1
      refine ⟨read, c, used ++ rest, h.eq_append, hc, rfl, h.flatMap_text.symm, ?_⟩
      rw [String.toList_ofList]
      exact hl
    · rw [List.concat_eq_append, ← List.cons_append, ← List.append_assoc] at htokens
      exact ih (List.append_inj' htokens rfl).1

theorem Scans.pairwise_column (h : Scans src tokens read rest) :
    tokens.Pairwise (fun t u => t.place.column < u.place.column) ∧
      ∀ t ∈ tokens, t.place.column ≤ read.length := by
  induction h with
  | start => exact ⟨.nil, by simp⟩
  | blank _ _ ih =>
    refine ⟨ih.1, fun t ht => ?_⟩
    have hle := ih.2 t ht
    rw [List.length_append, List.length_singleton]
    omega
  | token _ _ _ _ ih =>
    refine ⟨List.pairwise_append.2 ⟨ih.1, List.pairwise_singleton .., ?_⟩, ?_⟩
    · intro t ht u hu
      obtain rfl := List.mem_singleton.1 hu
      have hle := ih.2 t ht
      simp only [Source.placeAt]
      omega
    · intro t ht
      rw [List.length_append, List.length_cons]
      rcases List.mem_append.1 ht with ht | ht
      · have hle := ih.2 t ht
        omega
      · obtain rfl := List.mem_singleton.1 ht
        simp only [Source.placeAt]
        omega

end

/-! ## The lexer -/

theorem lex_eq_ok_iff {src : Source} {tokens : List Token} :
    lex src = .ok tokens ↔ ∃ read, Scans src tokens read [] := by
  refine ⟨fun hlex => ?_, fun ⟨read, h⟩ => h.lex_eq_ok⟩
  rcases (Scans.start : Scans src _ _ _).exists_end with ⟨tokens', read, h⟩ | ⟨stray, hstops⟩
  · obtain rfl := Except.ok.inj (hlex.symm.trans h.lex_eq_ok)
    exact ⟨read, h⟩
  · cases hlex.symm.trans hstops.lex_eq_error

theorem lex_eq_error_iff {src : Source} {stray : StrayCharacter} :
    lex src = .error stray ↔ StopsAt src stray := by
  refine ⟨fun hlex => ?_, fun h => h.lex_eq_error⟩
  rcases (Scans.start : Scans src _ _ _).exists_end with ⟨tokens', read, h⟩ | ⟨stray', hstops⟩
  · cases hlex.symm.trans h.lex_eq_ok
  · obtain rfl := Except.error.inj (hlex.symm.trans hstops.lex_eq_error)
    exact hstops

/-- A token of a text stands where it was cut, as the longest form there, after the tokens before
it. -/
theorem exists_cut_of_lex {src : Source} {before after : List Token} {t : Token}
    (h : lex src = .ok (before ++ t :: after)) :
    ∃ read c rest, src.text.toList = read ++ c :: rest ∧ Text.isBlank c = false ∧
      t.place = src.placeAt (read.length + 1) ∧ inkOf read = before.flatMap (·.text.toList) ∧
      IsLongest ⟨t.kind, t.text.toList⟩ (inkOf (c :: rest)) := by
  obtain ⟨read, hscans⟩ := lex_eq_ok_iff.1 h
  exact hscans.exists_cut rfl

/-- **Lexing is a scan by longest matches.** The tokens of a text are those that a scan of the whole
text cuts, and there are none if and only if the scan stops, at a character where no form matches.

The tokens make up the text without its white space, and their columns increase. Each of them stands
at the column of its first character, which follows what the tokens before it make up, and is the
longest of all forms that the text starts with from there on, its white space disregarded. A
character that starts no token is named with its column in the text. -/
theorem lex_cuts_longest_forms (src : Source) :
    (∀ tokens, lex src = .ok tokens ↔ ∃ read, Scans src tokens read []) ∧
    (∀ stray, lex src = .error stray ↔ StopsAt src stray) ∧
    (∀ tokens, lex src = .ok tokens →
      tokens.flatMap (·.text.toList) = ink src.text ∧
      tokens.Pairwise (fun t u => t.place.column < u.place.column) ∧
      ∀ before t after, tokens = before ++ t :: after →
        ∃ read c rest, src.text.toList = read ++ c :: rest ∧ Text.isBlank c = false ∧
          t.place = src.placeAt (read.length + 1) ∧
          inkOf read = before.flatMap (·.text.toList) ∧
          IsLongest ⟨t.kind, t.text.toList⟩ (inkOf (c :: rest))) ∧
    ∀ stray, lex src = .error stray →
      ∃ read rest, src.text.toList = read ++ stray.char :: rest ∧
        stray.place = src.placeAt (read.length + 1) ∧ Text.isBlank stray.char = false ∧
        ∀ l, IsForm l → ¬l.chars <+: inkOf (stray.char :: rest) := by
  refine ⟨fun tokens => lex_eq_ok_iff, fun stray => lex_eq_error_iff, fun tokens hlex => ?_,
    fun stray hlex => ?_⟩
  · obtain ⟨read, hscans⟩ := lex_eq_ok_iff.1 hlex
    refine ⟨?_, hscans.pairwise_column.1, ?_⟩
    · have hread := hscans.eq_append
      rw [List.append_nil] at hread
      rw [hscans.flatMap_text, ← hread]
      rfl
    · rintro before t after rfl
      exact exists_cut_of_lex hlex
  · obtain ⟨tokens, read, c, rest, hscans, hc, hstray, rfl⟩ := lex_eq_error_iff.1 hlex
    exact ⟨read, rest, hscans.eq_append, rfl, hc, hstray⟩

/-- A numbered variable, a relation and the name of an operator, all split by white space, and a
text with a character that starts no token. -/
theorem lex_cuts_longest_forms_split :
    (∃ read, Scans ⟨"v1 ₂! =Po t", 3, some "lines"⟩
      [⟨.variableName, "v1₂", ⟨3, 1, some "lines"⟩⟩, ⟨.relation, "!=", ⟨3, 5, some "lines"⟩⟩,
        ⟨.unaryOperator, "Pot", ⟨3, 8, some "lines"⟩⟩] read []) ∧
    lex ⟨"x ∪ #", 1, none⟩ = .error ⟨'#', ⟨1, 5, none⟩⟩ ∧
    ∃ read rest, "x ∪ #".toList = read ++ '#' :: rest ∧ read.length = 4 := by
  have hlex : lex ⟨"v1 ₂! =Po t", 3, some "lines"⟩ =
      .ok [⟨.variableName, "v1₂", ⟨3, 1, some "lines"⟩⟩,
        ⟨.relation, "!=", ⟨3, 5, some "lines"⟩⟩,
        ⟨.unaryOperator, "Pot", ⟨3, 8, some "lines"⟩⟩] := by
    decide +kernel
  have hstray : lex ⟨"x ∪ #", 1, none⟩ = .error ⟨'#', ⟨1, 5, none⟩⟩ := by decide +kernel
  refine ⟨((lex_cuts_longest_forms _).1 _).1 hlex, hstray, ?_⟩
  obtain ⟨read, rest, htext, hplace, -⟩ := (lex_cuts_longest_forms _).2.2.2 _ hstray
  refine ⟨read, rest, htext, ?_⟩
  simp only [Source.placeAt, Place.mk.injEq] at hplace
  omega

end SetFormula
