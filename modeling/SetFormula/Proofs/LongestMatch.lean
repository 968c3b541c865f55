import SetFormula.Proofs.LexedFormulas
import SetFormula.Proofs.Lexing

/-!
# The token at the head of a text is the longest one

The classes of symbols are tried in a fixed order, and only within a class is the longest spelling
taken. This finds the longest of all tokens that the text may start with, since the tables are such
that

* a spelling is never continued by one of a later class (`not_prefix_later`),
* a spelling that starts with a letter goes on with another, and none starts with the letter of the
  numbered variables (`length_variable_lt`).

`IsForm` says what a token may be, whatever stands around it, and `IsLongest l cs` that `l` is the
longest form at the head of `cs`. The lexer finds it if there is one (`leadingLexeme?_eq_some_iff`),
and there is none only if no form stands there (`leadingLexeme?_eq_none_iff`).
-/

namespace SetFormula

/-- The forms of a variable: a letter, or the letter of the numbered variables and a run of
digits. -/
inductive IsVariableForm : List Char → Prop
  | letter {c : Char} (hc : c.isAlpha) : IsVariableForm [c]
  | numbered {ds : List Char} (hds : ∀ d ∈ ds, Text.isIndexDigit d) :
    IsVariableForm (numberedLetter :: ds)

/-- What a token may be: a spelling of a class of symbols, or a variable. -/
inductive IsForm : Lexeme → Prop
  | symbol {kind : TokenClass} {spellings : List String} (hclass : (kind, spellings) ∈ symbolClasses)
      {text : String} (htext : text ∈ spellings) : IsForm ⟨kind, text.toList⟩
  | variableName {chars : List Char} (hchars : IsVariableForm chars) : IsForm ⟨.variableName, chars⟩

/-- The characters start with the form, and every other form that they start with is shorter. -/
structure IsLongest (l : Lexeme) (cs : List Char) : Prop where
  isForm : IsForm l
  starts : l.chars <+: cs
  longest : ∀ l', IsForm l' → l'.chars <+: cs → l' ≠ l → l'.chars.length < l.chars.length

theorem IsLongest.unique {l l' : Lexeme} {cs : List Char} (h : IsLongest l cs)
    (h' : IsLongest l' cs) : l = l' := by
  by_contra hne
  have hlt := h'.longest l h.isForm h.starts hne
  have hgt := h.longest l' h'.isForm h'.starts (Ne.symm hne)
  omega

/-! ## Spellings of one class -/

theorem eq_of_prefix_of_length_le {u v cs : List Char} (hu : u <+: cs) (hv : v <+: cs)
    (hvu : v.length ≤ u.length) (huv : u.length ≤ v.length) : u = v :=
  (List.prefix_of_prefix_length_le hu hv huv).eq_of_length (by omega)

/-- The spelling that is taken is one that the characters start with, and no such spelling is
longer. -/
theorem longestSpelling?_spec (spellings : List (List Char)) (cs : List Char) :
    (∀ s, longestSpelling? spellings cs = some s → s <+: cs) ∧
      ∀ s ∈ spellings, s <+: cs →
        s.length ≤ ((longestSpelling? spellings cs).map List.length).getD 0 := by
  unfold longestSpelling?
  -- what is found so far stays a start of the characters and does not get shorter
  have hloop : ∀ best : Option (List Char), (∀ s, best = some s → s <+: cs) →
      ∀ found, found = spellings.foldl (fun best s =>
        if s.isPrefixOf cs && (best.map List.length).getD 0 < s.length then some s else best) best →
      (∀ s, found = some s → s <+: cs) ∧
        (best.map List.length).getD 0 ≤ (found.map List.length).getD 0 ∧
        ∀ s ∈ spellings, s <+: cs → s.length ≤ (found.map List.length).getD 0 := by
    induction spellings with
    | nil =>
      rintro best hbest found rfl
      exact ⟨hbest, le_rfl, fun s hs => absurd hs List.not_mem_nil⟩
    | cons s spellings ih =>
      intro best hbest found hfound
      rw [List.foldl_cons] at hfound
      split at hfound
      · rename_i htaken
        simp only [Bool.and_eq_true, List.isPrefixOf_iff_prefix, decide_eq_true_eq] at htaken
        obtain ⟨hstarts, hmore, hrest⟩ := ih (some s) (by rintro _ ⟨⟩; exact htaken.1) _ hfound
        simp only [Option.map_some, Option.getD_some] at hmore
        refine ⟨hstarts, by omega, List.forall_mem_cons.2 ⟨fun _ => hmore, hrest⟩⟩
      · rename_i hleft
        obtain ⟨hstarts, hmore, hrest⟩ := ih best hbest _ hfound
        refine ⟨hstarts, hmore, List.forall_mem_cons.2 ⟨fun hs => ?_, hrest⟩⟩
        simp only [Bool.and_eq_true, List.isPrefixOf_iff_prefix.2 hs, decide_eq_true_eq,
          true_and] at hleft
        omega
  obtain ⟨hstarts, -, hlongest⟩ := hloop none (by simp) _ rfl
  exact ⟨hstarts, hlongest⟩

/-! ## Spellings of all classes -/

/-- A spelling is never continued by one of a later class. -/
theorem not_prefix_later :
    symbolClassChars.Pairwise fun c d => ∀ s ∈ c.2, ∀ s' ∈ d.2, ¬s <+: s' := by
  decide +kernel

theorem mem_allSpellings {c : TokenClass × List (List Char)} (hc : c ∈ symbolClassChars)
    {s : List Char} (hs : s ∈ c.2) : s ∈ allSpellings := List.mem_flatMap.2 ⟨c, hc, hs⟩

theorem ne_nil_of_mem_allSpellings {s : List Char} (hs : s ∈ allSpellings) : s ≠ [] := by
  rintro rfl
  exact absurd (isWordlike_of_mem_allSpellings [] hs) (by decide)

/-- If there is no longest spelling, the characters start with none. -/
theorem not_prefix_of_longestSpelling?_eq_none {c : TokenClass × List (List Char)}
    (hc : c ∈ symbolClassChars) {cs : List Char} (h : longestSpelling? c.2 cs = none)
    {s : List Char} (hs : s ∈ c.2) : ¬s <+: cs := by
  intro hstarts
  have hlength := (longestSpelling?_spec c.2 cs).2 s hs hstarts
  rw [h, Option.map_none, Option.getD_none, Nat.le_zero, List.length_eq_zero_iff] at hlength
  exact ne_nil_of_mem_allSpellings (mem_allSpellings hc hs) hlength

theorem exists_mem_symbolClassChars {kind : TokenClass} {spellings : List String}
    (hclass : (kind, spellings) ∈ symbolClasses) {text : String} (htext : text ∈ spellings) :
    ∃ c ∈ symbolClassChars, c.1 = kind ∧ text.toList ∈ c.2 :=
  ⟨_, List.mem_map_of_mem hclass, rfl, List.mem_map_of_mem htext⟩

theorem isForm_of_mem_symbolClassChars {c : TokenClass × List (List Char)}
    (hc : c ∈ symbolClassChars) {s : List Char} (hs : s ∈ c.2) : IsForm ⟨c.1, s⟩ := by
  obtain ⟨⟨kind, spellings⟩, hclass, rfl⟩ := List.mem_map.1 hc
  obtain ⟨text, htext, rfl⟩ := List.mem_map.1 hs
  exact .symbol hclass htext

/-- If no symbol is found, the characters start with no spelling of any class. -/
theorem not_prefix_of_leadingSymbol?_eq_none {cs : List Char} (h : leadingSymbol? cs = none)
    {c : TokenClass × List (List Char)} (hc : c ∈ symbolClassChars) {s : List Char} (hs : s ∈ c.2) :
    ¬s <+: cs := by
  apply not_prefix_of_longestSpelling?_eq_none hc _ hs
  have hnone := List.findSome?_eq_none_iff.1 h c hc
  exact Option.map_eq_none_iff.1 hnone

/-- The symbol that is found is longer than every other spelling of any class that the characters
start with. -/
theorem length_symbol_lt {cs : List Char} {l : Lexeme} (h : leadingSymbol? cs = some l)
    {c : TokenClass × List (List Char)} (hc : c ∈ symbolClassChars) {s : List Char} (hs : s ∈ c.2)
    (hstarts : s <+: cs) (hne : (⟨c.1, s⟩ : Lexeme) ≠ l) : s.length < l.chars.length := by
  obtain ⟨before, found, after, hclasses, hfound, hbefore⟩ := List.findSome?_eq_some_iff.1 h
  obtain ⟨best, hbest, rfl⟩ := Option.map_eq_some_iff.1 hfound
  obtain ⟨hbestStarts, hbestLongest⟩ := longestSpelling?_spec found.2 cs
  have hlater := not_prefix_later
  rw [hclasses] at hc hlater
  rcases List.mem_append.1 hc with hearlier | hc
  · -- an earlier class has been tried in vain
    have hnone := Option.map_eq_none_iff.1 (hbefore c hearlier)
    refine absurd hstarts (not_prefix_of_longestSpelling?_eq_none ?_ hnone hs)
    rw [hclasses]
    exact List.mem_append_left _ hearlier
  · by_contra hlt
    have hle : best.length ≤ s.length := Nat.not_lt.1 hlt
    rcases List.mem_cons.1 hc with rfl | hafter
    · -- the same class: the spelling is not longer, so it is the one that was found
      have hs' := hbestLongest s hs hstarts
      rw [hbest, Option.map_some, Option.getD_some] at hs'
      exact hne (congrArg _ (eq_of_prefix_of_length_le hstarts (hbestStarts best hbest) hle hs'))
    · -- a later class: the spelling would continue the one that was found
      have hpair := (List.pairwise_append.1 hlater).2.1
      exact (List.pairwise_cons.1 hpair).1 c hafter best (mem_of_longestSpelling? hbest) s hs
        (List.prefix_of_prefix_length_le (hbestStarts best hbest) hstarts hle)

/-! ## Variables and symbols -/

theorem head_ne_numberedLetter : ∀ s ∈ allSpellings, s.head? ≠ some numberedLetter := by
  decide

/-- A spelling is longer than every variable that the characters start with as well. -/
theorem length_variable_lt {cs s : List Char} (hs : s ∈ allSpellings) (hstarts : s <+: cs)
    {chars : List Char} (hform : IsVariableForm chars) (hchars : chars <+: cs) :
    chars.length < s.length := by
  obtain ⟨a, s, rfl⟩ := List.exists_cons_of_ne_nil (ne_nil_of_mem_allSpellings hs)
  obtain ⟨rest, rfl⟩ := hstarts
  cases hform with
  | letter hc =>
    obtain rfl := (List.cons_prefix_cons.1 hchars).1
    have hword := isWordlike_of_mem_allSpellings _ hs
    cases s with
    | nil => simp [isWordlike, hc] at hword
    | cons b s => simp
  | numbered hds =>
    obtain rfl := (List.cons_prefix_cons.1 hchars).1
    exact absurd rfl (head_ne_numberedLetter _ hs)

/-- A run of digits at the head of a text is no longer than all digits there. -/
theorem prefix_takeWhile {ds cs : List Char} (hds : ∀ d ∈ ds, Text.isIndexDigit d)
    (hstarts : ds <+: cs) : ds <+: cs.takeWhile Text.isIndexDigit := by
  obtain ⟨rest, rfl⟩ := hstarts
  rw [List.takeWhile_append_of_pos hds]
  exact List.prefix_append _ _

/-- The variable that is found is the longest of those that the characters start with. -/
theorem leadingVariable?_eq_some {cs best : List Char} (h : leadingVariable? cs = some best) :
    IsVariableForm best ∧ best <+: cs ∧ ∀ chars, IsVariableForm chars → chars <+: cs →
      chars <+: best := by
  cases cs with
  | nil => simp [leadingVariable?] at h
  | cons c cs =>
    rw [leadingVariable?] at h
    split at h
    · rename_i hc
      obtain rfl := Option.some.inj h
      subst hc
      refine ⟨.numbered fun d hd => List.mem_takeWhile_imp hd,
        (List.prefix_cons_inj _).2 (List.takeWhile_prefix _), fun chars hform hchars => ?_⟩
      cases hform with
      | letter halpha =>
        obtain rfl := (List.cons_prefix_cons.1 hchars).1
        exact List.cons_prefix_cons.2 ⟨rfl, List.nil_prefix⟩
      | numbered hds =>
        have hds' := prefix_takeWhile hds (List.cons_prefix_cons.1 hchars).2
        exact List.cons_prefix_cons.2 ⟨rfl, hds'⟩
    · rename_i hc
      split at h
      · rename_i halpha
        obtain rfl := Option.some.inj h
        refine ⟨.letter halpha, List.cons_prefix_cons.2 ⟨rfl, List.nil_prefix⟩,
          fun chars hform hchars => ?_⟩
        cases hform with
        | letter halpha =>
          obtain rfl := (List.cons_prefix_cons.1 hchars).1
          exact List.prefix_rfl
        | numbered hds => exact absurd (List.cons_prefix_cons.1 hchars).1.symm hc
      · cases h

theorem not_prefix_of_leadingVariable?_eq_none {cs : List Char} (h : leadingVariable? cs = none)
    {chars : List Char} (hform : IsVariableForm chars) : ¬chars <+: cs := by
  intro hchars
  have hfound : ∀ c rest, c.isAlpha → leadingVariable? (c :: rest) ≠ none := by
    intro c rest halpha
    rw [leadingVariable?, if_pos halpha]
    split <;> simp
  obtain ⟨rest, rfl⟩ := hchars
  cases hform with
  | letter halpha => exact hfound _ _ halpha h
  | numbered hds => exact hfound numberedLetter _ (by decide) h

/-! ## The leading token -/

/-- The token that is found is the longest of all forms. -/
theorem isLongest_of_leadingLexeme? {cs : List Char} {l : Lexeme} (h : leadingLexeme? cs = some l) :
    IsLongest l cs := by
  unfold leadingLexeme? at h
  split at h
  · rename_i hsymbol
    obtain rfl := Option.some.inj h
    obtain ⟨found, hfound, hlongest⟩ := List.exists_of_findSome?_eq_some hsymbol
    obtain ⟨best, hbest, rfl⟩ := Option.map_eq_some_iff.1 hlongest
    have hmem := mem_of_longestSpelling? hbest
    have hstarts := (longestSpelling?_spec found.2 cs).1 best hbest
    refine ⟨isForm_of_mem_symbolClassChars hfound hmem, hstarts, fun l' hform hl' hne => ?_⟩
    cases hform with
    | symbol hclass htext =>
      obtain ⟨c, hc, rfl, hs⟩ := exists_mem_symbolClassChars hclass htext
      exact length_symbol_lt hsymbol hc hs hl' hne
    | variableName hchars =>
      exact length_variable_lt (mem_allSpellings hfound hmem) hstarts hchars hl'
  · rename_i hsymbol
    obtain ⟨best, hbest, rfl⟩ := Option.map_eq_some_iff.1 h
    obtain ⟨hform, hstarts, hlongest⟩ := leadingVariable?_eq_some hbest
    refine ⟨.variableName hform, hstarts, fun l' hform' hl' hne => ?_⟩
    cases hform' with
    | symbol hclass htext =>
      obtain ⟨c, hc, -, hs⟩ := exists_mem_symbolClassChars hclass htext
      exact absurd hl' (not_prefix_of_leadingSymbol?_eq_none hsymbol hc hs)
    | variableName hchars =>
      have hshorter := hlongest _ hchars hl'
      refine Nat.lt_of_le_of_ne hshorter.length_le fun hlength => hne ?_
      rw [hshorter.eq_of_length hlength]

theorem leadingLexeme?_eq_none_iff {cs : List Char} :
    leadingLexeme? cs = none ↔ ∀ l, IsForm l → ¬l.chars <+: cs := by
  constructor
  · intro h l hform
    unfold leadingLexeme? at h
    split at h
    · cases h
    · rename_i hsymbol
      cases hform with
      | symbol hclass htext =>
        obtain ⟨c, hc, -, hs⟩ := exists_mem_symbolClassChars hclass htext
        exact not_prefix_of_leadingSymbol?_eq_none hsymbol hc hs
      | variableName hchars =>
        exact not_prefix_of_leadingVariable?_eq_none (Option.map_eq_none_iff.1 h) hchars
  · intro h
    rw [Option.eq_none_iff_forall_not_mem]
    intro l hl
    have hlongest := isLongest_of_leadingLexeme? hl
    exact h l hlongest.isForm hlongest.starts

theorem leadingLexeme?_eq_some_iff {cs : List Char} {l : Lexeme} :
    leadingLexeme? cs = some l ↔ IsLongest l cs := by
  refine ⟨isLongest_of_leadingLexeme?, fun h => ?_⟩
  cases hfound : leadingLexeme? cs with
  | none => exact absurd h.starts (leadingLexeme?_eq_none_iff.1 hfound l h.isForm)
  | some l' => rw [h.unique (isLongest_of_leadingLexeme? hfound)]

theorem IsForm.ne_nil {l : Lexeme} (h : IsForm l) : l.chars ≠ [] := by
  cases h with
  | symbol hclass htext =>
    obtain ⟨c, hc, -, hs⟩ := exists_mem_symbolClassChars hclass htext
    exact ne_nil_of_mem_allSpellings (mem_allSpellings hc hs)
  | variableName hchars => cases hchars <;> simp

end SetFormula
