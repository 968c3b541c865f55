import SetFormula.Expr.Parser
import SetFormula.Proofs.Printed

/-!
# A printed text is cut into its items

White space is dropped before a text is cut into tokens, so the pieces of a printed text touch each
other. They are told apart all the same (`cut_items`).

* A spelling is found at the head of a text if none of its extensions is (`leadingSymbol?_append`).
  Among the printed symbols, only the bar and the backslash have extensions.
* A letter is a variable if no letter follows, since every spelling that starts with a letter has at
  least two of them (`leadingSymbol?_word`).
* What the tokens of a printed text stand for are its items (`itemsOf_placeLexemes`).
-/

namespace SetFormula

/-! ## Spellings at the head of a text -/

/-- All spellings, as lists of characters. -/
def allSpellings : List (List Char) := symbolClassChars.flatMap (·.2)

/-- What the spellings that continue a text add to it. -/
def extensions (cs : List Char) : List (List Char) :=
  allSpellings.filterMap fun s =>
    if cs.isPrefixOf s && cs.length < s.length then some (s.drop cs.length) else none

theorem longestSpelling?_congr {spellings : List (List Char)} {cs cs' : List Char}
    (h : ∀ s ∈ spellings, s.isPrefixOf cs = s.isPrefixOf cs') :
    longestSpelling? spellings cs = longestSpelling? spellings cs' := by
  unfold longestSpelling?
  exact List.foldl_ext _ _ _ fun best s hs => by rw [h s hs]

/-- The symbol at the head of a text depends on the spellings that the text starts with only. -/
theorem leadingSymbol?_congr {cs cs' : List Char}
    (h : ∀ s ∈ allSpellings, s.isPrefixOf cs = s.isPrefixOf cs') :
    leadingSymbol? cs = leadingSymbol? cs' := by
  unfold leadingSymbol?
  unfold allSpellings at h
  generalize symbolClassChars = classes at h ⊢
  induction classes with
  | nil => rfl
  | cons c classes ih =>
    simp only [List.flatMap_cons, List.forall_mem_append] at h
    rw [List.findSome?_cons, List.findSome?_cons, longestSpelling?_congr h.1, ih h.2]

/-- If no spelling continues a text into what follows, the symbol at its head stays the same. -/
theorem leadingSymbol?_append {cs rest : List Char} (h : ∀ extra ∈ extensions cs, ¬extra <+: rest) :
    leadingSymbol? (cs ++ rest) = leadingSymbol? cs := by
  refine leadingSymbol?_congr fun s hs => Bool.eq_iff_iff.2 ?_
  rw [List.isPrefixOf_iff_prefix, List.isPrefixOf_iff_prefix]
  refine ⟨fun hpre => ?_, fun hpre => hpre.trans (List.prefix_append cs rest)⟩
  rcases Nat.lt_or_ge cs.length s.length with hlt | hle
  · -- the spelling is longer, so it is an extension of the text
    obtain ⟨extra, rfl⟩ := List.prefix_of_prefix_length_le (List.prefix_append cs rest) hpre
      (Nat.le_of_lt hlt)
    refine absurd ((List.prefix_append_right_inj cs).1 hpre) (h extra ?_)
    refine List.mem_filterMap.2 ⟨cs ++ extra, hs, ?_⟩
    rw [if_pos (by simpa using hlt), List.drop_left]
  · exact List.prefix_of_prefix_length_le hpre (List.prefix_append cs rest) hle

/-! ## Words -/

/-- Whether the text starts with no letter or with two. -/
def isWordlike : List Char → Bool
  | [] => false
  | [c] => !c.isAlpha
  | c :: d :: _ => !c.isAlpha || d.isAlpha

theorem isWordlike_of_mem_allSpellings : ∀ s ∈ allSpellings, isWordlike s := by decide

/-- No symbol starts with a letter that stands alone. -/
theorem leadingSymbol?_word {c : Char} {rest : List Char} (hc : c.isAlpha)
    (hrest : ∀ d ∈ rest.head?, d.isAlpha = false) : leadingSymbol? (c :: rest) = none := by
  have hempty : leadingSymbol? [] = none := by decide
  rw [← hempty]
  refine leadingSymbol?_congr fun s hs => ?_
  have hword := isWordlike_of_mem_allSpellings s hs
  match s with
  | [] => cases hword
  | [a] =>
    -- the spelling is no letter
    have hac : (a == c) = false := by
      rw [beq_eq_false_iff_ne]
      rintro rfl
      simp [isWordlike, hc] at hword
    simp [List.isPrefixOf, hac]
  | a :: b :: s =>
    -- the spelling goes on with a letter, but the text does not
    cases rest with
    | nil => simp [List.isPrefixOf]
    | cons d rest =>
      have hne : (a :: b :: s).isPrefixOf (c :: d :: rest) = false := by
        rw [Bool.eq_false_iff]
        intro h
        simp only [List.isPrefixOf, Bool.and_eq_true, beq_iff_eq] at h
        obtain ⟨rfl, rfl, -⟩ := h
        simp [isWordlike, hc, hrest b rfl] at hword
      rw [hne]
      rfl

/-! ## The token of a printed item -/

theorem leadingSymbol?_printed :
    ∀ p ∈ printedSymbols, leadingSymbol? p.2.toList = some ⟨p.1, p.2.toList⟩ := by decide

theorem leadingSymbol?_constant (c : Constant) :
    leadingSymbol? c.symbol.toList = some ⟨.constant, c.symbol.toList⟩ := by
  cases c <;> decide

theorem extensions_constant (c : Constant) : extensions c.symbol.toList = [] := by
  cases c <;> decide

/-- Whether a text starts with two lower-case letters, as the name of a symbol after a backslash
does. -/
def startsName : List Char → Bool
  | c :: d :: _ => c.isLower && d.isLower
  | _ => false

/-- Of the printed symbols, only the bar (by a bar) and the backslash (by a name) can go on. -/
theorem extensions_printed : ∀ p ∈ printedSymbols, ∀ extra ∈ extensions p.2.toList,
    (p.2 = "|" ∧ extra = ['|']) ∨ (p.2 = "\\" ∧ startsName extra) := by decide

namespace Item

theorem chars_ne_nil {item : Item} (h : item.IsPrinted) : item.chars ≠ [] := by
  cases item with
  | var i =>
    rw [chars, indexChars]
    split <;> simp
  | constant c => cases c <;> decide
  | symbol kind text =>
    have hall : ∀ p ∈ printedSymbols, p.2.toList ≠ [] := by decide
    exact hall _ h

/-- What follows a variable goes on with no letter and no digit. -/
theorem Separated.head_of_var {i : Nat} {rest : List Item}
    (hchain : (var i :: rest).IsChain Separated) (hrest : ∀ item ∈ rest, item.IsPrinted) :
    ∀ d ∈ (rest.flatMap chars).head?, d.isAlpha = false ∧ Text.isIndexDigit d = false := by
  cases rest with
  | nil => simp
  | cons y rest =>
    have hword := (List.isChain_cons_cons.1 hchain).1.word i rfl
    obtain ⟨c, cs, hcs⟩ := List.exists_cons_of_ne_nil (chars_ne_nil (hrest y (by simp)))
    simp only [startsWord, hcs, List.head?_cons, Option.any_some, Bool.or_eq_false_iff] at hword
    simpa [List.flatMap_cons, hcs] using hword

/-- A bar is not doubled. -/
theorem Separated.head_of_bar {rest : List Item} (hchain : (Item.bar :: rest).IsChain Separated)
    (hrest : ∀ item ∈ rest, item.IsPrinted) : (rest.flatMap chars).head? ≠ some '|' := by
  cases rest with
  | nil => simp
  | cons y rest =>
    have hne := (List.isChain_cons_cons.1 hchain).1.bar rfl
    have hy := hrest y (by simp)
    obtain ⟨c, cs, hcs⟩ := List.exists_cons_of_ne_nil (chars_ne_nil hy)
    have hc : y.chars.head? ≠ some '|' := by
      cases y with
      | var i =>
        obtain ⟨c, ds, hchars, halpha, -⟩ := exists_indexChars_eq_cons hy
        rw [chars, hchars]
        rintro ⟨⟩
        cases halpha
      | constant k => cases k <;> decide
      | symbol kind text =>
        have hall : ∀ p ∈ printedSymbols, p.2.toList.head? = some '|' → p = (.bracket, "|") := by
          decide
        intro hhead
        have h := hall _ hy hhead
        cases h
        exact hne rfl
    simpa [List.flatMap_cons, hcs] using hc

/-- What printed items start with is no name. -/
theorem startsName_flatMap {rest : List Item} (hchain : rest.IsChain Separated)
    (hrest : ∀ item ∈ rest, item.IsPrinted) : startsName (rest.flatMap chars) = false := by
  have hhead {c : Char} (cs : List Char) (hc : c.isLower = false) :
      startsName (c :: cs) = false := by
    cases cs <;> simp [startsName, hc]
  cases rest with
  | nil => rfl
  | cons y rest =>
    rw [List.forall_mem_cons] at hrest
    rw [List.flatMap_cons]
    cases y with
    | var i =>
      -- one letter, after which comes no other
      obtain ⟨c, ds, hchars, -, hds, -⟩ := exists_indexChars_eq_cons hrest.1
      have hnext := Separated.head_of_var hchain hrest.2
      have hlower {d : Char} (hd : d.isAlpha = false) : d.isLower = false := by
        simp only [Char.isAlpha, Bool.or_eq_false_iff] at hd
        exact hd.2
      rw [chars, hchars]
      cases ds with
      | nil =>
        cases hw : rest.flatMap chars with
        | nil => rfl
        | cons d w =>
          rw [hw] at hnext
          simp [startsName, hlower (hnext d rfl).1]
      | cons d ds => simp [startsName, hlower (hds d (by simp)).2]
    | constant k => cases k <;> exact hhead _ (by decide)
    | symbol kind text =>
      have hall : ∀ p ∈ printedSymbols, p.2.toList.head?.all (!·.isLower) := by decide
      obtain ⟨c, cs, hcs⟩ := List.exists_cons_of_ne_nil (chars_ne_nil hrest.1)
      have hc := hall _ hrest.1
      rw [chars] at hcs
      rw [hcs, List.head?_cons, Option.all_some, Bool.not_eq_true'] at hc
      rw [chars, hcs]
      exact hhead _ hc

/-- The token at the head of printed items is the first of them. -/
theorem leadingLexeme?_item {item : Item} {rest : List Item} (hitem : item.IsPrinted)
    (hrest : ∀ item ∈ rest, item.IsPrinted) (hchain : (item :: rest).IsChain Separated) :
    leadingLexeme? (item.chars ++ rest.flatMap chars) = some item.lexeme := by
  cases item with
  | var i =>
    obtain ⟨c, ds, hchars, halpha, hds, hnumbered⟩ := exists_indexChars_eq_cons hitem
    have hnext := Separated.head_of_var hchain hrest
    generalize rest.flatMap chars = w at hnext
    have hsymbol : leadingSymbol? (c :: (ds ++ w)) = none := by
      refine leadingSymbol?_word halpha fun d hd => ?_
      cases ds with
      | nil => exact (hnext d hd).1
      | cons a ds =>
        cases hd
        exact (hds _ (by simp)).2
    have hdigits : (ds ++ w).takeWhile Text.isIndexDigit = ds := by
      rw [List.takeWhile_append_of_pos fun d hd => (hds d hd).1]
      cases w with
      | nil => simp
      | cons d w => simp [(hnext d rfl).2]
    have hvariable : leadingVariable? (c :: (ds ++ w)) = some (c :: ds) := by
      rw [leadingVariable?, hdigits]
      rcases hnumbered with hc | rfl
      · rw [if_pos hc]
      · simp [halpha]
    simp [leadingLexeme?, chars, hchars, hsymbol, hvariable, lexeme, kind]
  | constant c =>
    have hsymbol : leadingSymbol? (c.symbol.toList ++ rest.flatMap chars) = _ :=
      leadingSymbol?_append (by simp [extensions_constant])
    rw [leadingSymbol?_constant] at hsymbol
    rw [leadingLexeme?, chars, hsymbol]
    rfl
  | symbol kind text =>
    have hsymbol : leadingSymbol? (text.toList ++ rest.flatMap chars) =
        leadingSymbol? text.toList := by
      refine leadingSymbol?_append fun extra hextra hpre => ?_
      rcases extensions_printed (kind, text) hitem extra hextra with ⟨hbar, rfl⟩ | ⟨-, hname⟩
      · -- the only item with this text is the bar
        have hkind : ∀ p ∈ printedSymbols, p.2 = "|" → p.1 = .bracket := by decide
        cases hbar
        cases hkind _ hitem rfl
        obtain ⟨w, hw⟩ := hpre
        exact Separated.head_of_bar hchain hrest (by rw [← hw]; rfl)
      · have hno : startsName (rest.flatMap chars) = false := startsName_flatMap hchain.tail hrest
        obtain ⟨w, hw⟩ := hpre
        rcases extra with _ | ⟨c, _ | ⟨d, extra⟩⟩
        · cases hname
        · cases hname
        · rw [← hw] at hno
          exact absurd hname (by simpa [startsName] using hno)
    rw [leadingSymbol?_printed (kind, text) hitem] at hsymbol
    rw [leadingLexeme?, chars, hsymbol]
    rfl

end Item

/-! ## Cutting -/

theorem cut_append (cs rest : List Char) : cut cs.length (cs ++ rest) = cut 0 rest := by
  induction cs with
  | nil => rfl
  | cons c cs ih => exact ih

/-- Printed items that are separated from each other are told apart. -/
theorem cut_items {items : List Item} (hprinted : ∀ item ∈ items, item.IsPrinted)
    (hchain : items.IsChain Item.Separated) :
    cut 0 (items.flatMap Item.chars) = .ok (items.map Item.lexeme) := by
  induction items with
  | nil => rfl
  | cons item rest ih =>
    rw [List.forall_mem_cons] at hprinted
    have hlexeme := Item.leadingLexeme?_item hprinted.1 hprinted.2 hchain
    obtain ⟨c, cs, hcs⟩ := List.exists_cons_of_ne_nil (Item.chars_ne_nil hprinted.1)
    have hlength : item.lexeme.chars.length - 1 = cs.length := by simp [Item.lexeme, hcs]
    rw [hcs, List.cons_append] at hlexeme
    rw [List.flatMap_cons, hcs, List.cons_append, cut, hlexeme]
    simp only [hlength]
    rw [cut_append, ih hprinted.2 hchain.tail]
    rfl

/-- What the token of a printed item stands for is the item. -/
theorem Item.ofToken_lexeme {item : Item} (h : item.IsPrinted) (place : Place) :
    Item.ofToken ⟨item.kind, String.ofList item.chars, place⟩ = .ok item := by
  cases item with
  | var i => simp [ofToken, kind, chars, ofVariable_indexChars h, Except.map]
  | constant c =>
    have hc : Constant.ofSpelling? c.symbol = some c := by cases c <;> decide
    simp [ofToken, kind, chars, String.ofList_toList, hc]
  | symbol kind text =>
    have hkind : ∀ p ∈ printedSymbols, p.1 ≠ .constant ∧ p.1 ≠ .variableName := by decide
    obtain ⟨hconstant, hvariable⟩ := hkind _ h
    simp only [ofToken, Item.kind, chars, String.ofList_toList]

theorem itemsOf_placeLexemes (s : Source) (columns : List Nat) {items : List Item}
    (h : ∀ item ∈ items, item.IsPrinted) :
    itemsOf (placeLexemes s columns (items.map Item.lexeme)) = .ok items := by
  induction items generalizing columns with
  | nil => rfl
  | cons item rest ih =>
    rw [List.forall_mem_cons] at h
    rw [List.map_cons, placeLexemes, itemsOf]
    simp only [Item.lexeme, Item.ofToken_lexeme h.1]
    rw [ih _ h.2]
    rfl

end SetFormula
