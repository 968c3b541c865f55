import SetFormula.Proofs.DesugaredTexts
import SetFormula.Proofs.ErrorPlaces
import SetFormula.Proofs.Layout
import SetFormula.Shell

/-!
# The front ends agree

A formula is desugared on its own, as a line of a file, or as a line typed in the shell. The line of
a file is read with its blanks but has a number and a file, and the shell reads a line without the
blanks at its ends. So the three have the same outcome, but for the places of complaints.

* `Place.moved` is the change of places. A text whose characters stand `k` columns further left has
  the same tokens at moved places (`readTokens_moved`), and failures to read or to rewrite a formula
  are located by tokens, so they are the same with moved places (`desugarTree_moved`).
* A result that cannot be printed is complained about at the first column, which does not move
  (`desugar_moved`).
* Without the blanks at its ends, a text has its characters further left by the number of blanks
  that it starts with (`Source.inked_trim`).
* `Shows` says that a front end shows the outcome of a line on its own, in so many words.
-/

namespace SetFormula

/-! ## Moving places -/

/-- The place `k` columns further left, on the given line of the given file. -/
def Place.moved (line : Int) (file : Option String) (k : Nat) (p : Place) : Place :=
  ⟨line, p.column - k, file⟩

/-- The token at another place. -/
def Token.mapPlace (f : Place → Place) (t : Token) : Token := { t with place := f t.place }

/-- The complaint about another place. -/
def Complaint.mapPlace (f : Place → Place) (c : Complaint) : Complaint :=
  { c with place := c.place.map f }

/-- The failure with its complaint about another place. -/
def Failure.mapPlace (f : Place → Place) : Failure → Failure
  | refused c => refused (c.mapPlace f)
  | badToken fault => badToken fault
  | misstep m => misstep m
  | badSettings fault => badSettings fault

section

variable {line : Int} {file : Option String} {k : Nat}

theorem finish_mapPlace (t : Token) :
    (t.mapPlace (Place.moved line file k)).finish = t.finish.moved line file k := by
  have hcolumn : t.place.column - k + t.text.length = t.place.column + t.text.length - k := by
    omega
  simp [Token.finish, Token.mapPlace, Place.moved, hcolumn]

theorem placeOf_mapPlace (tokens : List Token) (left : Nat) :
    placeOf (tokens.map (Token.mapPlace (Place.moved line file k))) left =
      (placeOf tokens left).map (Place.moved line file k) := by
  rw [placeOf, placeOf, List.length_map, ← List.map_drop]
  cases tokens.drop (tokens.length - left) with
  | cons t rest => rfl
  | nil =>
    rw [List.map_nil, List.getLast?_map]
    cases tokens.getLast? with
    | none => rfl
    | some t => exact congrArg some (finish_mapPlace t)

theorem tooDeepAt_mapPlace (f : Place → Place) (tokens : List Token) :
    tooDeepAt (tokens.map (Token.mapPlace f)) = (tooDeepAt tokens).mapPlace f := by
  cases tokens <;> rfl

theorem locate_mapPlace (tokens : List Token) (failure : ParseFailure) :
    failure.locate (tokens.map (Token.mapPlace (Place.moved line file k))) =
      (failure.locate tokens).mapPlace (Place.moved line file k) := by
  cases failure with
  | refused p left =>
    rw [ParseFailure.locate, placeOf_mapPlace]
    rfl
  | badToken fault => rfl
  | misstep m => rfl
  | tooDeep => exact tooDeepAt_mapPlace _ tokens

theorem map_bare_mapPlace (f : Place → Place) (tokens : List Token) :
    (tokens.map (Token.mapPlace f)).map Token.bare = tokens.map Token.bare := by
  rw [List.map_map]
  rfl

theorem readTree_mapPlace (limit : Nat) (tokens : List Token) :
    readTree limit (tokens.map (Token.mapPlace (Place.moved line file k))) =
      (readTree limit tokens).mapError (Failure.mapPlace (Place.moved line file k)) := by
  rw [readTree, readTree, parse_congr (map_bare_mapPlace _ tokens)]
  cases parse limit tokens with
  | ok e => rfl
  | error failure => exact congrArg Except.error (locate_mapPlace tokens failure)

theorem eliminateFrom_mapPlace (setup : Setup) (f : Place → Place) (tokens : List Token)
    (e : Expr) :
    eliminateFrom setup (tokens.map (Token.mapPlace f)) e =
      (eliminateFrom setup tokens e).mapError (Failure.mapPlace f) := by
  unfold eliminateFrom
  split
  · cases setup.switches with
    | error fault => rfl
    | ok s =>
      dsimp only
      cases eliminateTelling setup.toRuntime s e with
      | some e' => rfl
      | none => exact congrArg Except.error (tooDeepAt_mapPlace f tokens)
  · exact congrArg Except.error (tooDeepAt_mapPlace f tokens)

end

/-! ## Texts with moved characters -/

theorem placeAt_moved (src src' : Source) (k column : Nat) :
    (src.placeAt (column + k)).moved src'.line src'.file k = src'.placeAt column := by
  simp [Source.placeAt, Place.moved]

/-- There is a column for every lexeme, so the default of `placeLexemes` is never used. -/
theorem placeLexemes_moved (src src' : Source) (k : Nat) {covered : Nat} {cs : List Char}
    {ls : List Lexeme} (h : cut covered cs = .ok ls) {columns : List Nat}
    (hcolumns : cs.length ≤ covered + columns.length) :
    placeLexemes src' columns ls =
      (placeLexemes src (columns.map (· + k)) ls).map
        (Token.mapPlace (Place.moved src'.line src'.file k)) := by
  induction cs generalizing covered ls columns with
  | nil =>
    cases h
    rfl
  | cons c cs ih =>
    rw [List.length_cons] at hcolumns
    cases covered with
    | succ n => exact ih h (by omega)
    | zero =>
      obtain ⟨l, ls, -, hrest, rfl⟩ := cut_cons_eq_ok h
      cases columns with
      | nil => simp at hcolumns
      | cons column columns =>
        have hleft : cs.length ≤
            l.chars.length - 1 + ((column :: columns).drop l.chars.length).length := by
          rw [List.length_drop]
          omega
        rw [placeLexemes, placeLexemes, List.map_cons, ← List.map_drop, ih hrest hleft,
          Token.mapPlace, List.map_cons, List.headD_cons, List.headD_cons,
          placeAt_moved src src']

theorem strayPlace_moved (src src' : Source) (k : Nat) {columns : List Nat} {after : Nat}
    (h : after < columns.length) :
    src'.placeAt ((columns.reverse.drop after).headD 0) =
      (src.placeAt (((columns.map (· + k)).reverse.drop after).headD 0)).moved
        src'.line src'.file k := by
  rw [← List.map_reverse, ← List.map_drop]
  cases hrest : columns.reverse.drop after with
  | nil =>
    rw [List.drop_eq_nil_iff, List.length_reverse] at hrest
    omega
  | cons column rest =>
    rw [List.map_cons, List.headD_cons, List.headD_cons, placeAt_moved]

/-- The tokens of a text with its characters `k` columns further left. -/
theorem readTokens_moved {src src' : Source} {k : Nat}
    (h : src.inked = src'.inked.map fun c => (c.1, c.2 + k)) :
    readTokens src' =
      ((readTokens src).map
        (List.map (Token.mapPlace (Place.moved src'.line src'.file k)))).mapError
        (Failure.mapPlace (Place.moved src'.line src'.file k)) := by
  have hchars : src.inked.map (·.1) = src'.inked.map (·.1) := by rw [h, List.map_map]; rfl
  have hcolumns : src.inked.map (·.2) = (src'.inked.map (·.2)).map (· + k) := by
    rw [h, List.map_map, List.map_map]
    rfl
  unfold readTokens lex lexInked
  rw [hchars, hcolumns]
  cases hcut : cut 0 (src'.inked.map (·.1)) with
  | ok ls => exact congrArg Except.ok (placeLexemes_moved src src' k hcut (by simp))
  | error stray =>
    have hafter : stray.after < (src'.inked.map (·.2)).length := by
      simpa using after_lt_of_cut hcut
    exact congrArg (fun place => Except.error (Failure.refused ⟨.stray stray.char, some place⟩))
      (strayPlace_moved src src' k hafter)

/-- The tree for a text with its characters `k` columns further left, on any line of any file, is
that for the text, and a failure is the same with its place moved. -/
theorem desugarTree_moved (setup : Setup) {src src' : Source} {k : Nat}
    (h : src.inked = src'.inked.map fun c => (c.1, c.2 + k)) :
    desugarTree setup src' =
      (desugarTree setup src).mapError
        (Failure.mapPlace (Place.moved src'.line src'.file k)) := by
  unfold desugarTree
  rw [readTokens_moved h]
  cases readTokens src with
  | error failure => rfl
  | ok tokens =>
    change (readTree setup.limit (tokens.map _) >>= fun e =>
      eliminateFrom setup (tokens.map _) e) = (readTree setup.limit tokens >>= fun e =>
        eliminateFrom setup tokens e).mapError _
    rw [readTree_mapPlace]
    cases readTree setup.limit tokens with
    | error failure => rfl
    | ok e => exact eliminateFrom_mapPlace setup _ tokens e

/-- There is a result, but it takes too many levels to be printed, which only shows at the end. -/
def OnlyPrintingFails (setup : Setup) (src : Source) : Prop :=
  setup.narrated = false ∧
    ∃ u, desugarTree setup src = .ok u ∧ setup.printLimit < u.printLevels

/-- **Moved texts.** The outcome for a text with its characters `k` columns further left, on any
line of any file, is the outcome for the text, with its place moved, unless only printing fails, for
both then. -/
theorem desugar_moved (setup : Setup) {src src' : Source} {k : Nat}
    (h : src.inked = src'.inked.map fun c => (c.1, c.2 + k)) :
    desugar setup src' =
        (desugar setup src).mapError (Failure.mapPlace (Place.moved src'.line src'.file k)) ∨
      (OnlyPrintingFails setup src ∧ desugar setup src = .error (.refused (unprintable src)) ∧
        desugar setup src' = .error (.refused (unprintable src'))) := by
  have htree := desugarTree_moved setup h
  cases hsrc : desugarTree setup src with
  | error failure =>
    rw [hsrc] at htree
    left
    rw [desugar_of_desugarTree_error htree, desugar_of_desugarTree_error hsrc]
    rfl
  | ok u =>
    rw [hsrc] at htree
    rcases desugar_of_desugarTree hsrc with ⟨hlevels, hok⟩ | ⟨hsilent, hlevels, hfails⟩
    · rcases desugar_of_desugarTree htree with ⟨-, hok'⟩ | ⟨-, hlevels', -⟩
      · left
        rw [hok, hok']
        rfl
      · exact absurd hlevels (Nat.not_le_of_lt hlevels')
    · rcases desugar_of_desugarTree htree with ⟨hlevels', -⟩ | ⟨-, -, hfails'⟩
      · exact absurd hlevels' (Nat.not_le_of_lt hlevels)
      · exact .inr ⟨⟨hsilent, u, hsrc, hlevels⟩, hfails, hfails'⟩

/-- On another line of another file the outcome is the same there, whatever it is. -/
theorem desugar_relocated (setup : Setup) (text : String) (line line' : Int)
    (file file' : Option String) :
    desugar setup ⟨text, line', file'⟩ =
      (desugar setup ⟨text, line, file⟩).mapError
        (Failure.mapPlace (Place.moved line' file' 0)) := by
  have hinked : (⟨text, line, file⟩ : Source).inked =
      (⟨text, line', file'⟩ : Source).inked.map fun c => (c.1, c.2 + 0) := (List.map_id' _).symm
  rcases desugar_moved setup hinked with hmoved | ⟨-, hfails, hfails'⟩
  · exact hmoved
  · rw [hfails, hfails']
    rfl

/-! ## Blanks at the ends of a text -/

/-- The number of blanks that a text starts with. -/
def Text.indent (s : String) : Nat := (s.toList.takeWhile Text.isBlank).length

theorem Text.exists_eq_trimChars (cs : List Char) :
    ∃ rest, (∀ c ∈ rest, isBlank c) ∧ cs = cs.takeWhile isBlank ++ (trimChars cs ++ rest) := by
  refine ⟨((cs.dropWhile isBlank).reverse.takeWhile isBlank).reverse, ?_, ?_⟩
  · intro c hc
    exact List.mem_takeWhile_imp (List.mem_reverse.1 hc)
  · rw [trimChars, ← List.reverse_append, List.takeWhile_append_dropWhile, List.reverse_reverse,
      List.takeWhile_append_dropWhile]

theorem inkedAfter_of_blank {cs : List Char} (h : ∀ c ∈ cs, Text.isBlank c) (n : Nat) :
    inkedAfter n cs = [] := by
  rw [inkedAfter, List.filter_eq_nil_iff]
  intro c hc
  simp [h c.1 (List.fst_mem_of_mem_zipIdx hc)]

theorem inkedAfter_eq_map (n : Nat) (cs : List Char) :
    inkedAfter n cs = (inkedAfter 0 cs).map fun c => (c.1, c.2 + n) := by
  have hshift : cs.zipIdx (n + 1) = (cs.zipIdx 1).map fun c => (c.1, c.2 + n) :=
    List.map_snd_add_zipIdx_eq_zipIdx.symm
  rw [inkedAfter, hshift, List.filter_map]
  rfl

/-- Without the blanks at its ends, a text has its characters further left by the number of blanks
that it starts with. -/
theorem Source.inked_trim (text : String) (line line' : Int) (file file' : Option String) :
    (⟨text, line, file⟩ : Source).inked =
      (⟨Text.trim text, line', file'⟩ : Source).inked.map
        fun c => (c.1, c.2 + Text.indent text) := by
  obtain ⟨rest, hrest, htext⟩ := Text.exists_eq_trimChars text.toList
  have hindent : ∀ c ∈ text.toList.takeWhile Text.isBlank, Text.isBlank c :=
    fun c hc => List.mem_takeWhile_imp hc
  calc inkedAfter 0 text.toList
      = inkedAfter (0 + Text.indent text) (Text.trimChars text.toList) := by
        nth_rewrite 1 [htext]
        rw [inkedAfter_append, inkedAfter_append, inkedAfter_of_blank hindent,
          inkedAfter_of_blank hrest, List.nil_append, List.append_nil]
        rfl
    _ = (inkedAfter 0 (Text.trim text).toList).map fun c => (c.1, c.2 + Text.indent text) := by
        rw [Nat.zero_add, inkedAfter_eq_map, Text.trim, String.toList_ofList]

/-! ## Lines of a file -/

/-- A place in words: the file, the line and the column, or the line and the column if there is no
file or its name is empty. -/
def placeInWords (file : Option String) (line column : Int) : String :=
  if file.getD "" = "" then "line " ++ toString line ++ ", column " ++ toString column
  else file.getD "" ++ ":" ++ toString line ++ ":" ++ toString column

theorem Place.text_eq (p : Place) : p.text = placeInWords p.file p.line p.column := by
  obtain ⟨line, column, file⟩ := p
  cases file with
  | none => rfl
  | some file => by_cases hfile : file = "" <;> simp [Place.text, placeInWords, hfile]

theorem Complaint.answer_eq (refusal : Refusal) (p : Place) :
    Complaint.answer ⟨refusal, some p⟩ =
      "Error: " ++ placeInWords p.file p.line p.column ++ ": " ++ refusal.message := by
  have hmessage : Complaint.message ⟨refusal, some p⟩ = p.text ++ ": " ++ refusal.message := rfl
  rw [Complaint.answer, hmessage, Place.text_eq, errorMark]
  simp only [String.append_assoc]

/-- Complaints about tokens have a place. -/
theorem exists_place_of_locate {tokens : List Token} (hne : tokens ≠ []) {f : ParseFailure}
    {c : Complaint} (h : f.locate tokens = .refused c) : ∃ p, c.place = some p := by
  rw [← Option.ne_none_iff_exists']
  cases f with
  | refused p left =>
    cases h
    exact fun hnone => hne (placeOf_eq_none_iff.1 hnone)
  | tooDeep =>
    cases h
    simpa using hne
  | badToken fault => cases h
  | misstep m => cases h

theorem exists_place_of_eliminateFrom {setup : Setup} {tokens : List Token} (hne : tokens ≠ [])
    {e : Expr} {c : Complaint} (h : eliminateFrom setup tokens e = .error (.refused c)) :
    ∃ p, c.place = some p := by
  have htooDeep (hc : tooDeepAt tokens = .refused c) : ∃ p, c.place = some p :=
    exists_place_of_locate (f := .tooDeep) hne hc
  unfold eliminateFrom at h
  split at h
  · split at h
    · cases h
    · split at h
      · cases h
      · exact htooDeep (Except.error.inj h)
  · exact htooDeep (Except.error.inj h)

theorem trim_eq_empty {text : String} (h : ∀ c ∈ text.toList, Text.isBlank c) :
    Text.trim text = "" := by
  have hdrop : text.toList.dropWhile Text.isBlank = [] := List.dropWhile_eq_nil_iff.2 h
  rw [Text.trim, Text.trimChars, hdrop]
  rfl

/-- A complaint about a line that is not blank has a place on it. -/
theorem exists_place_of_refused {setup : Setup} {text : String} {line : Int} {file : Option String}
    (hline : Text.trim text ≠ "") {c : Complaint}
    (h : desugar setup ⟨text, line, file⟩ = .error (.refused c)) :
    ∃ column, c.place = some ⟨line, column, file⟩ := by
  have hsome : ∃ p, c.place = some p := by
    cases hlex : lex ⟨text, line, file⟩ with
    | error stray =>
      have hfails := desugar_of_desugarTree_error (desugarTree_of_lex_error setup hlex)
      cases hfails.symm.trans h
      exact ⟨_, rfl⟩
    | ok tokens =>
      have hne : tokens ≠ [] := fun hnil =>
        hline (trim_eq_empty ((tokens_eq_nil_iff hlex).1 hnil))
      cases htree : desugarTree setup ⟨text, line, file⟩ with
      | ok u =>
        rcases desugar_of_desugarTree htree with ⟨-, hok⟩ | ⟨-, -, hfails⟩
        · cases hok.symm.trans h
        · cases hfails.symm.trans h
          exact ⟨_, rfl⟩
      | error failure =>
        cases (desugar_of_desugarTree_error htree).symm.trans h
        cases hparse : parse setup.limit tokens with
        | ok e =>
          rw [desugarTree_of_parse setup hlex hparse] at htree
          exact exists_place_of_eliminateFrom hne htree
        | error f =>
          rw [desugarTree_of_parse_error setup hlex hparse] at htree
          exact exists_place_of_locate hne (Except.error.inj htree)
  obtain ⟨p, hp⟩ := hsome
  -- moved to where it is, the complaint stays the same
  have hsame := desugar_relocated setup text line line file file
  rw [h] at hsame
  have hplace : c.place = c.place.map (Place.moved line file 0) :=
    congrArg Complaint.place (Failure.refused.inj (Except.error.inj hsame))
  rw [hp] at hplace
  refine ⟨p.column, hp.trans (hplace.trans ?_)⟩
  simp [Place.moved]

/-! ## Agreement -/

/-- A front end shows the outcome of a line on its own. If there is a text, it is the same, and else
the message is the same, about a column `k` further left on the given line of the given file. -/
def Shows (setup : Setup) (raw : String) (file : Option String) (line : Int) (k : Nat)
    (text : String) (accepted : Bool) : Prop :=
  (accepted = true ∧ desugar setup ⟨raw, 1, none⟩ = .ok text ∧ answer setup raw = .ok text) ∨
    accepted = false ∧ ∃ refusal column,
      desugar setup ⟨raw, 1, none⟩ = .error (.refused ⟨refusal, some ⟨1, column, none⟩⟩) ∧
      answer setup raw =
        .ok ("Error: " ++ placeInWords none 1 column ++ ": " ++ refusal.message) ∧
      text = "Error: " ++ placeInWords file line (column - k) ++ ": " ++ refusal.message

/-- A line that has an answer gives a text, or it is refused at a column. -/
theorem desugar_of_answer_isOk {setup : Setup} {raw : String} (hline : Text.trim raw ≠ "")
    (h : (answer setup raw).isOk) :
    (∃ text, desugar setup ⟨raw, 1, none⟩ = .ok text ∧ answer setup raw = .ok text) ∨
      ∃ refusal column,
        desugar setup ⟨raw, 1, none⟩ = .error (.refused ⟨refusal, some ⟨1, column, none⟩⟩) ∧
        answer setup raw =
          .ok ("Error: " ++ placeInWords none 1 column ++ ": " ++ refusal.message) := by
  unfold answer at h ⊢
  cases hraw : desugar setup ⟨raw, 1, none⟩ with
  | ok text => exact .inl ⟨text, rfl, rfl⟩
  | error failure =>
    rw [hraw] at h
    cases failure with
    | refused c =>
      obtain ⟨refusal, place⟩ := c
      obtain ⟨column, hplace⟩ := exists_place_of_refused hline hraw
      cases hplace
      exact .inr ⟨refusal, column, rfl, congrArg Except.ok (Complaint.answer_eq _ _)⟩
    | _ => cases h

theorem Shell.reply_of_formula (r : Runtime) (s : Switches) {raw : String}
    (hline : Text.trim raw ≠ "") (hcommand : (Text.trim raw).startsWith ":" = false) :
    Shell.reply r s raw = (Shell.formulaReply r s (Text.trim raw)).map (·, s) := by
  have hempty : (Text.trim raw).isEmpty = false := by
    rw [← Bool.not_eq_true, String.isEmpty_iff]
    exact hline
  simp [Shell.reply, hempty, hcommand]

theorem exists_reply {r : Runtime} {s : Switches} {raw : String} (hline : Text.trim raw ≠ "")
    (hcommand : (Text.trim raw).startsWith ":" = false) (h : (answer ⟨r, .ok s⟩ raw).isOk) :
    ∃ reply, Shell.reply r s raw = .ok (reply, s) ∧ reply.exit = false ∧
      (Shows ⟨r, .ok s⟩ raw none 1 (Text.indent raw) reply.text (!reply.error) ∨
        OnlyPrintingFails ⟨r, .ok s⟩ ⟨raw, 1, none⟩ ∧ reply.error = true ∧
          answer ⟨r, .ok s⟩ raw = .ok "Error: line 1, column 1: Formula nested too deeply" ∧
          reply.text = "Error: line 1, column 1: Formula nested too deeply") := by
  rw [Shell.reply_of_formula r s hline hcommand, Shell.formulaReply]
  rcases desugar_moved ⟨r, .ok s⟩ (Source.inked_trim raw 1 1 none none) with
    hmoved | ⟨honly, hfails, hfails'⟩
  · rw [hmoved]
    rcases desugar_of_answer_isOk hline h with
      ⟨text, htext, hanswer⟩ | ⟨refusal, column, hrefused, hanswer⟩
    · rw [htext]
      exact ⟨_, rfl, rfl, .inl (.inl ⟨rfl, htext, hanswer⟩)⟩
    · rw [hrefused]
      exact ⟨_, rfl, rfl,
        .inl (.inr ⟨rfl, refusal, column, hrefused, hanswer, Complaint.answer_eq _ _⟩)⟩
  · rw [hfails']
    refine ⟨_, rfl, rfl, .inr ⟨honly, rfl, ?_, ?_⟩⟩
    · rw [answer, hfails]
      rfl
    · rfl

end SetFormula
