import SetFormula.Proofs.LexedFormulas

/-!
# Variables that cannot be looked up

A variable that is cut from a text is a letter, or the letter of the numbered variables with digits
after it (`exists_variable_of_lex`). It cannot be looked up for one of two reasons: it has too many
digits, or its number reaches the letters (`Token.LookUp`). All other tokens of a text can be looked
up.

Tokens are looked up from left to right, so the first such variable decides (`itemsOf_of_find?`).
Tokens that are looked up are parsed or refused. So a token of a text is at fault in itself if and
only if the first variable that cannot be looked up has too many digits
(`parse_eq_badToken_iff`).
-/

namespace SetFormula

open SetFormula.Item

namespace Text

theorem isDigit_ofSubscript {c : Char} (h : isIndexDigit c) : (ofSubscript c).isDigit := by
  have hsubscript : ∀ n < 10, (Char.ofNat (0x30 + n)).isDigit := by decide
  rw [ofSubscript]
  split
  · rename_i hc
    simp only [Bool.and_eq_true, decide_eq_true_eq] at hc
    exact hsubscript _ (by omega)
  · rename_i hc
    simp only [isIndexDigit, Bool.or_eq_true] at h
    exact h.resolve_right hc

end Text

namespace Token

/-- The digits after the letter of a variable. -/
def indexDigits (t : Token) : List Char :=
  if t.kind = .variableName then t.text.toList.tail else []

/-- The number of a variable. -/
def indexNumber (t : Token) : Nat := Nat.ofDigitChars 10 (t.indexDigits.map Text.ofSubscript) 0

/-- Whether a variable has too many digits, leading zeros counted. -/
def isOverlong (t : Token) : Bool := Text.maxDigits < t.indexDigits.length

/-- Whether a variable has too many digits or a number that reaches the letters. -/
def isUnreadable (t : Token) : Bool := t.isOverlong || letterStart ≤ t.indexNumber

end Token

/-! ## One token -/

theorem Item.ofVariable_letter {c : Char} (hc : c.isAlpha) :
    ofVariable (String.ofList [c]) = .ok (indexOfLetter c) := by
  simp [ofVariable, indexOfName, hc]

theorem Item.ofVariable_numbered {ds : List Char} (hne : ds ≠ [])
    (hds : ∀ d ∈ ds, Text.isIndexDigit d) :
    ofVariable (String.ofList (numberedLetter :: ds)) =
      if Text.maxDigits < ds.length then .error (.token (.tooManyDigits ds.length))
      else if Nat.ofDigitChars 10 (ds.map Text.ofSubscript) 0 < letterStart then
        .ok (Nat.ofDigitChars 10 (ds.map Text.ofSubscript) 0)
      else .error (.problem (.indexTooLarge (String.ofList (numberedLetter :: ds)))) := by
  have hplain : ∀ c ∈ ds.map Text.ofSubscript, c.isDigit := by
    simpa using fun d hd => Text.isDigit_ofSubscript (hds d hd)
  have hread := Text.readInteger_of_isDigit (by simpa using hne) hplain
  rw [List.length_map] at hread
  obtain ⟨d, ds, rfl⟩ := List.exists_cons_of_ne_nil hne
  rw [ofVariable, String.toList_ofList]
  simp only [↓reduceIte, hread]
  by_cases hlong : Text.maxDigits < (d :: ds).length
  · rw [if_pos hlong, if_pos hlong]
  · rw [if_neg hlong, if_neg hlong]

/-- A variable of a text is a letter, after which digits may follow if it is that of the numbered
variables. -/
theorem exists_variable_of_lex {src : Source} {tokens : List Token} (h : lex src = .ok tokens)
    {t : Token} (ht : t ∈ tokens) (hkind : t.kind = .variableName) :
    ∃ c ds, t.text = String.ofList (c :: ds) ∧ c.isAlpha ∧ (∀ d ∈ ds, Text.isIndexDigit d) ∧
      (c = numberedLetter ∨ ds = []) := by
  obtain ⟨cs, l, hlead, hl, htext⟩ := exists_leadingLexeme?_of_lex h ht
  unfold leadingLexeme? at hlead
  split at hlead
  · -- a symbol is no variable
    rename_i hsymbol
    cases hlead
    obtain ⟨c, hc, hclass, hspelling⟩ := mem_symbolClasses_of_leadingSymbol? hsymbol
    rw [← hl, hkind] at hclass
    exact absurd hclass (isSpelled_of_mem_symbolClasses c hc _ hspelling).1
  · obtain ⟨chars, hvariable, rfl⟩ := Option.map_eq_some_iff.1 hlead
    cases cs with
    | nil => cases hvariable
    | cons c cs =>
      rw [leadingVariable?] at hvariable
      split at hvariable
      · rename_i hc
        cases hvariable
        refine ⟨c, _, htext, ?_, fun d hd => List.mem_takeWhile_imp hd, .inl hc⟩
        rw [hc]
        decide
      · split at hvariable
        · rename_i hc
          cases hvariable
          exact ⟨c, [], htext, hc, by simp, .inr rfl⟩
        · cases hvariable

theorem Token.indexDigits_of_text {t : Token} (hkind : t.kind = .variableName) {c : Char}
    {ds : List Char} (htext : t.text = String.ofList (c :: ds)) : t.indexDigits = ds := by
  rw [indexDigits, if_pos hkind, htext, String.toList_ofList, List.tail_cons]

theorem Item.ofToken_of_variable {t : Token} (hkind : t.kind = .variableName) :
    Item.ofToken t = (Item.ofVariable t.text).map .var := by
  rw [Item.ofToken, hkind]

/-- What looking up a token of a text gives. -/
inductive Token.LookUp (t : Token) : Prop
  /-- The token stands for an item. -/
  | found (hreadable : t.isUnreadable = false) (item : Item) (h : Item.ofToken t = .ok item)
      (hspelled : item.isSpelled)
  /-- The token is at fault for its digits. -/
  | overlong (hlong : t.isOverlong)
      (h : Item.ofToken t = .error (.token (.tooManyDigits t.indexDigits.length)))
  /-- The formula is refused for the number of the variable. -/
  | tooLarge (hshort : t.isOverlong = false) (hunreadable : t.isUnreadable)
      (h : Item.ofToken t = .error (.problem (.indexTooLarge t.text)))

theorem Token.lookUp_of_lex {src : Source} {tokens : List Token} (h : lex src = .ok tokens)
    {t : Token} (ht : t ∈ tokens) : t.LookUp := by
  by_cases hkind : t.kind = .variableName
  · obtain ⟨c, ds, htext, hc, hds, hnumbered⟩ := exists_variable_of_lex h ht hkind
    have hdigits := indexDigits_of_text hkind htext
    have hlook := Item.ofToken_of_variable hkind
    by_cases hne : ds = []
    · subst hne
      have hletter : Item.ofVariable t.text = .ok (indexOfLetter c) := by
        rw [htext, Item.ofVariable_letter hc]
      rw [hletter] at hlook
      refine .found ?_ _ hlook rfl
      rw [isUnreadable, isOverlong, indexNumber, hdigits]
      decide
    · obtain rfl : c = numberedLetter := hnumbered.resolve_right hne
      have hvariable := Item.ofVariable_numbered hne hds
      rw [← htext, ← hdigits, ← indexNumber] at hvariable
      rw [hvariable] at hlook
      by_cases hlong : Text.maxDigits < t.indexDigits.length
      · rw [if_pos hlong] at hlook
        exact .overlong (decide_eq_true hlong) hlook
      · have hshort : t.isOverlong = false := decide_eq_false hlong
        rw [if_neg hlong] at hlook
        by_cases hlarge : t.indexNumber < letterStart
        · rw [if_pos hlarge] at hlook
          refine .found ?_ _ hlook rfl
          rw [isUnreadable, hshort, decide_eq_false (Nat.not_le.2 hlarge)]
          rfl
        · rw [if_neg hlarge] at hlook
          refine .tooLarge hshort ?_ hlook
          rw [isUnreadable, decide_eq_true (Nat.not_lt.1 hlarge), Bool.or_true]
  · obtain ⟨item, hitem, hspelled⟩ :=
      Item.ofToken_of_lex h ht fun hvariable => absurd hvariable hkind
    refine .found ?_ item hitem hspelled
    rw [isUnreadable, isOverlong, indexNumber, indexDigits, if_neg hkind]
    decide

/-! ## All tokens -/

theorem itemsOf_of_find?_eq_none {tokens : List Token} (h : ∀ t ∈ tokens, t.LookUp)
    (hfind : tokens.find? Token.isUnreadable = none) :
    ∃ items, itemsOf tokens = .ok items ∧ items.length = tokens.length ∧
      ∀ item ∈ items, item.isSpelled := by
  apply itemsOf_eq_ok
  intro t ht
  have hreadable := List.find?_eq_none.1 hfind t ht
  cases h t ht with
  | found _ item hitem hspelled => exact ⟨item, hitem, hspelled⟩
  | overlong hlong _ =>
    rw [Token.isUnreadable, hlong] at hreadable
    exact absurd rfl hreadable
  | tooLarge _ hunreadable _ => exact absurd hunreadable hreadable

/-- The first variable that cannot be looked up decides. -/
theorem itemsOf_of_find? {tokens : List Token} (h : ∀ t ∈ tokens, t.LookUp) {t : Token}
    (hfind : tokens.find? Token.isUnreadable = some t) :
    (t.isOverlong ∧ itemsOf tokens = .error (.badToken (.tooManyDigits t.indexDigits.length))) ∨
      (t.isOverlong = false ∧
        ∃ left, itemsOf tokens = .error (.refused (.indexTooLarge t.text) left)) := by
  induction tokens with
  | nil => cases hfind
  | cons t' tokens ih =>
    rw [List.forall_mem_cons] at h
    cases h.1 with
    | found hreadable item hitem _ =>
      rw [List.find?_cons, hreadable] at hfind
      rw [itemsOf, hitem]
      rcases ih h.2 hfind with ⟨hlong, hitems⟩ | ⟨hshort, left, hitems⟩
      · exact .inl ⟨hlong, by rw [hitems]; rfl⟩
      · exact .inr ⟨hshort, left, by rw [hitems]; rfl⟩
    | overlong hlong hfault =>
      rw [List.find?_cons, Token.isUnreadable, hlong] at hfind
      cases hfind
      exact .inl ⟨hlong, by rw [itemsOf, hfault]⟩
    | tooLarge hshort hunreadable hfault =>
      rw [List.find?_cons, hunreadable] at hfind
      cases hfind
      exact .inr ⟨hshort, _, by rw [itemsOf, hfault]⟩

/-- On items that are all spelled, the parser finds no token at fault, whatever the levels. -/
theorem parseItems_ne_badToken {items : List Item} (hspelled : ∀ item ∈ items, item.isSpelled)
    (limit : Nat) (fault : TokenFault) : parseItems limit items ≠ .error (.badToken fault) := by
  intro h
  have hverdict := parseItems_verdict_self limit items
  rw [h] at hverdict
  cases hverdict with
  | badToken _ hmem hitem =>
    rw [hspelled _ hmem] at hitem
    cases hitem

/-- A token of a text is at fault if and only if the first variable that cannot be looked up has too
many digits, and for nothing else. -/
theorem parse_eq_badToken_iff {src : Source} {tokens : List Token} (h : lex src = .ok tokens)
    (limit : Nat) (fault : TokenFault) :
    parse limit tokens = .error (.badToken fault) ↔
      ∃ t, tokens.find? Token.isUnreadable = some t ∧ t.isOverlong ∧
        fault = .tooManyDigits t.indexDigits.length := by
  have hlook : ∀ t ∈ tokens, t.LookUp := fun t ht => Token.lookUp_of_lex h ht
  cases hfind : tokens.find? Token.isUnreadable with
  | none =>
    obtain ⟨items, hitems, -, hspelled⟩ := itemsOf_of_find?_eq_none hlook hfind
    rw [parse_eq_parseItems hitems]
    exact iff_of_false (parseItems_ne_badToken hspelled limit fault) (by rintro ⟨t, ⟨⟩, -⟩)
  | some t =>
    rcases itemsOf_of_find? hlook hfind with ⟨hlong, hitems⟩ | ⟨hshort, left, hitems⟩
    · rw [parse, hitems]
      constructor
      · intro hfault
        cases hfault
        exact ⟨t, rfl, hlong, rfl⟩
      · rintro ⟨_, ⟨⟩, -, rfl⟩
        rfl
    · rw [parse, hitems]
      refine iff_of_false (by rintro ⟨⟩) ?_
      rintro ⟨_, ⟨⟩, hlong, -⟩
      rw [hshort] at hlong
      cases hlong

end SetFormula
