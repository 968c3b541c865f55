import SetFormula.Desugar
import SetFormula.Proofs.GrammarSoundness
import SetFormula.Proofs.Scanning

/-!
# Refusals point into the text

The parser notes how many items were left where it refused a formula. There are never more of them
than tokens (`left_le_of_parse`), so the noted number picks a token of the text, or its end
(`refusedAt_of_placeOf`). Tokens stand inside the text (`column_bounds_of_lex`), and a text has none
if and only if it is blank (`tokens_eq_nil_iff`). So every refusal of a text that is not blank has a
place in it (`refusals_point_into_text`).
-/

namespace SetFormula

/-! ## The noted number of items -/

theorem left_le_of_itemsOf {tokens : List Token} {p : Problem} {left : Nat}
    (h : itemsOf tokens = .error (.refused p left)) : left ≤ tokens.length := by
  induction tokens with
  | nil => cases h
  | cons t tokens ih =>
    rw [itemsOf] at h
    split at h
    · cases h
    · cases h
      exact le_rfl
    · cases hrest : itemsOf tokens with
      | error f =>
        rw [hrest] at h
        cases h
        exact Nat.le_succ_of_le (ih hrest)
      | ok items =>
        rw [hrest] at h
        cases h

theorem left_le_of_parse {limit : Nat} {tokens : List Token} {p : Problem} {left : Nat}
    (h : parse limit tokens = .error (.refused p left)) : left ≤ tokens.length := by
  rw [parse] at h
  cases hitems : itemsOf tokens with
  | error f =>
    rw [hitems] at h
    cases h
    exact left_le_of_itemsOf hitems
  | ok items =>
    rw [hitems] at h
    rw [← length_of_itemsOf hitems]
    exact left_le_of_parseItems h

/-! ## Places in a list of tokens -/

/-- The place in a list of tokens where the given number of them is left: that of the token after
which one fewer follow, or, if none are left, the column after the last one. -/
inductive RefusedAt (tokens : List Token) : Nat → Place → Prop
  | token {before after : List Token} {t : Token} (h : tokens = before ++ t :: after) :
    RefusedAt tokens (after.length + 1) t.place
  | finish {before : List Token} {t : Token} (h : tokens = before ++ [t]) :
    RefusedAt tokens 0 ⟨t.place.line, t.place.column + t.text.length, t.place.file⟩

theorem refusedAt_of_placeOf {tokens : List Token} {left : Nat} (h : left ≤ tokens.length)
    {q : Place} (hplace : placeOf tokens left = some q) : RefusedAt tokens left q := by
  unfold placeOf at hplace
  split at hplace
  · rename_i t after hdrop
    cases hplace
    have hsplit := List.take_append_drop (tokens.length - left) tokens
    have hlength := congrArg List.length hdrop
    rw [List.length_drop, List.length_cons] at hlength
    obtain rfl : left = after.length + 1 := by omega
    rw [hdrop] at hsplit
    exact .token hsplit.symm
  · rename_i hdrop
    obtain ⟨t, hlast, rfl⟩ := Option.map_eq_some_iff.1 hplace
    obtain ⟨before, rfl⟩ := List.getLast?_eq_some_iff.1 hlast
    rw [List.drop_eq_nil_iff] at hdrop
    obtain rfl : left = 0 := by
      rw [List.length_append, List.length_singleton] at h hdrop
      omega
    exact .finish rfl

theorem placeOf_eq_none_iff {tokens : List Token} {left : Nat} :
    placeOf tokens left = none ↔ tokens = [] := by
  unfold placeOf
  split
  · rename_i hdrop
    refine iff_of_false (by simp) ?_
    rintro rfl
    simp at hdrop
  · rw [Option.map_eq_none_iff, List.getLast?_eq_none_iff]

/-! ## Tokens in the text -/

theorem column_bounds_of_lex {src : Source} {before after : List Token} {t : Token}
    (h : lex src = .ok (before ++ t :: after)) :
    t.place.line = src.line ∧ t.place.file = src.file ∧ 1 ≤ t.place.column ∧
      t.place.column + t.text.length ≤ src.text.length + 1 := by
  obtain ⟨read, c, rest, htext, -, hplace, -, hlongest⟩ := exists_cut_of_lex h
  have hprefix := hlongest.starts.length_le
  have hink := length_inkOf_le (c :: rest)
  have hlength := congrArg List.length htext
  rw [List.length_append, String.length_toList] at hlength
  rw [hplace]
  refine ⟨rfl, rfl, ?_, ?_⟩
  · simp only [Source.placeAt]
    omega
  · rw [← String.length_toList (s := t.text)]
    simp only [Source.placeAt]
    dsimp only at hprefix
    omega

/-- A text has no tokens if and only if it is blank. -/
theorem tokens_eq_nil_iff {src : Source} {tokens : List Token} (h : lex src = .ok tokens) :
    tokens = [] ↔ ∀ c ∈ src.text.toList, Text.isBlank c := by
  obtain ⟨read, hscans⟩ := lex_eq_ok_iff.1 h
  have hink : tokens.flatMap (·.text.toList) = inkOf src.text.toList := by
    rw [hscans.flatMap_text, hscans.eq_append, List.append_nil]
  have hblank : inkOf src.text.toList = [] ↔ ∀ c ∈ src.text.toList, Text.isBlank c := by
    simp [inkOf, List.filter_eq_nil_iff]
  rw [← hblank, ← hink]
  constructor
  · rintro rfl
    rfl
  · intro hnil
    cases tokens with
    | nil => rfl
    | cons t tokens =>
      -- a token is a form, and no form is empty
      have hfirst : lex src = .ok ([] ++ t :: tokens) := h
      obtain ⟨_, _, _, -, -, -, -, hlongest⟩ := exists_cut_of_lex hfirst
      exact absurd (List.flatMap_eq_nil_iff.1 hnil t List.mem_cons_self) hlongest.isForm.ne_nil

/-! ## Refused texts -/

theorem readFormula_eq_problem {limit : Nat} {src : Source} {p : Problem} {place : Option Place}
    (h : readFormula limit src = .error (.refused ⟨.problem p, place⟩)) :
    ∃ tokens left, lex src = .ok tokens ∧ parse limit tokens = .error (.refused p left) ∧
      place = placeOf tokens left := by
  unfold readFormula readTokens at h
  cases hlex : lex src with
  | error stray =>
    rw [hlex] at h
    cases h
  | ok tokens =>
    rw [hlex] at h
    change readTree limit tokens = _ at h
    unfold readTree at h
    cases hparse : parse limit tokens with
    | ok e =>
      rw [hparse] at h
      cases h
    | error f =>
      rw [hparse] at h
      cases f with
      | refused p left =>
        cases h
        exact ⟨tokens, left, rfl, hparse, rfl⟩
      | _ => cases h

theorem RefusedAt.bounds {src : Source} {tokens : List Token} (hlex : lex src = .ok tokens)
    {left : Nat} {q : Place} (h : RefusedAt tokens left q) :
    q.line = src.line ∧ q.file = src.file ∧ 1 ≤ q.column ∧ q.column ≤ src.text.length + 1 := by
  cases h with
  | token htokens =>
    rw [htokens] at hlex
    obtain ⟨hline, hfile, hlow, hhigh⟩ := column_bounds_of_lex hlex
    exact ⟨hline, hfile, hlow, by omega⟩
  | finish htokens =>
    rw [htokens] at hlex
    obtain ⟨hline, hfile, hlow, hhigh⟩ := column_bounds_of_lex hlex
    exact ⟨hline, hfile, by dsimp only; omega, hhigh⟩

/-- **Refusals point into the text.** If a text is cut into tokens that are refused as a formula,
the refusal has no place if and only if the text is blank. Otherwise its place is that of the token
where the parser stopped, or just after the last token if none was left. So it carries the line and
the file of the text, and its column is that of a character of the text or the one after them. -/
theorem refusals_point_into_text (limit : Nat) (src : Source) (p : Problem) (place : Option Place)
    (h : readFormula limit src = .error (.refused ⟨.problem p, place⟩)) :
    (place = none ↔ ∀ c ∈ src.text.toList, Text.isBlank c) ∧
      ∃ tokens left, lex src = .ok tokens ∧ parse limit tokens = .error (.refused p left) ∧
        ∀ q, place = some q → RefusedAt tokens left q ∧ q.line = src.line ∧ q.file = src.file ∧
          1 ≤ q.column ∧ q.column ≤ src.text.length + 1 := by
  obtain ⟨tokens, left, hlex, hparse, rfl⟩ := readFormula_eq_problem h
  refine ⟨?_, tokens, left, hlex, hparse, fun q hq => ?_⟩
  · rw [placeOf_eq_none_iff, tokens_eq_nil_iff hlex]
  · have hat : RefusedAt tokens left q := refusedAt_of_placeOf (left_le_of_parse hparse) hq
    exact ⟨hat, hat.bounds hlex⟩

/-- A parenthesis that is not closed: the place is the column after the last token. -/
theorem refusals_point_into_text_unclosed :
    readFormula 40 ⟨" x ∈ (y ", 7, some "notes"⟩ = .error (.refused
      ⟨.problem (.missingBracket .closeParenthesis), some ⟨7, 8, some "notes"⟩⟩) ∧
    ∃ tokens, lex ⟨" x ∈ (y ", 7, some "notes"⟩ = .ok tokens ∧
      ∃ left, RefusedAt tokens left ⟨7, 8, some "notes"⟩ := by
  have hread : readFormula 40 ⟨" x ∈ (y ", 7, some "notes"⟩ = .error (.refused
      ⟨.problem (.missingBracket .closeParenthesis), some ⟨7, 8, some "notes"⟩⟩) := by
    decide +kernel
  obtain ⟨-, tokens, left, hlex, -, hplace⟩ := refusals_point_into_text _ _ _ _ hread
  exact ⟨hread, tokens, hlex, left, (hplace _ rfl).1⟩

end SetFormula
