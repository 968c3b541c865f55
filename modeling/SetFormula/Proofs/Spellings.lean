import SetFormula.Proofs.VariableTokens

/-!
# Spellings are interchangeable

What a token stands for is a relation, a connective or negation, a quantifier, an operator or a
constant, whose spellings are listed in tables, a bracket, which has one spelling, or a variable,
whose index is that of its letter or its number in plain or subscript digits
(`Token.denotation?`). A number that reaches the indices of the letters is refused, though it may be
the index of a letter (`same_index_told_apart`). So a letter and a number do not agree
(`Token.Agrees`).

A token of a text is looked up as an item that stands for the same, or refused for its number
(`Token.resolves_of_lex`). So tokens that agree give aliases or are refused together
(`itemsOf_together`), and the parser goes on alike (`parse_spellings_alike`).
-/

namespace SetFormula

/-- What a token stands for. -/
inductive Denotation where
  | relation (r : Relation)
  | junction (j : Junction)
  | quantifier (q : Quantifier)
  | unaryOperator (k : UnaryOperator)
  | binaryOperator (k : BinaryOperator)
  | constant (c : Constant)
  | bracket (text : String)
  | var (i : Nat)
  deriving DecidableEq, Repr

namespace Token

/-- Whether a variable is written with a number. -/
def isNumbered (t : Token) : Bool := !t.indexDigits.isEmpty

/-- The index of a variable: that of its letter, or its number. -/
def index (t : Token) : Nat :=
  match t.text.toList with
  | [c] => indexOfLetter c
  | _ => t.indexNumber

/-- What a token stands for, by the table of its class. -/
def denotation? (t : Token) : Option Denotation :=
  match t.kind with
  | .relation => (Relation.ofSpelling? t.text).map .relation
  | .connective => (Junction.ofSpelling? t.text).map .junction
  | .quantifier => (Quantifier.ofSpelling? t.text).map .quantifier
  | .unaryOperator => (UnaryOperator.ofSpelling? t.text).map .unaryOperator
  | .binaryOperator => (BinaryOperator.ofSpelling? t.text).map .binaryOperator
  | .constant => (Constant.ofSpelling? t.text).map .constant
  | .bracket => some (.bracket t.text)
  | .variableName => some (.var t.index)
  | .other _ => none

/-- Two tokens of one class stand for the same, or both for nothing. -/
def MeansSame (t t' : Token) : Prop := t.kind = t'.kind ∧ t.denotation? = t'.denotation?

/-- Two tokens stand for the same, and variables are both letters or both numbers. -/
structure Agrees (t t' : Token) : Prop where
  same : t.MeansSame t'
  numbered : t.kind = .variableName → t.isNumbered = t'.isNumbered

instance (t t' : Token) : Decidable (t.MeansSame t') := inferInstanceAs (Decidable (_ ∧ _))

instance (t t' : Token) : Decidable (t.Agrees t') :=
  decidable_of_iff (t.MeansSame t' ∧ (t.kind = .variableName → t.isNumbered = t'.isNumbered))
    ⟨fun h => ⟨h.1, h.2⟩, fun h => ⟨h.same, h.numbered⟩⟩

end Token

/-! ## Items -/

/-- What an item stands for. -/
inductive Item.Denotes : Item → Denotation → Prop
  | var (i : Nat) : Denotes (.var i) (.var i)
  | constant (c : Constant) : Denotes (.constant c) (.constant c)
  | bracket (text : String) : Denotes (.symbol .bracket text) (.bracket text)
  | relation {text : String} {r : Relation} (h : Relation.ofSpelling? text = some r) :
    Denotes (.symbol .relation text) (.relation r)
  | connective {text : String} {j : Junction} (h : Junction.ofSpelling? text = some j) :
    Denotes (.symbol .connective text) (.junction j)
  | quantifier {text : String} {q : Quantifier} (h : Quantifier.ofSpelling? text = some q) :
    Denotes (.symbol .quantifier text) (.quantifier q)
  | unaryOperator {text : String} {k : UnaryOperator}
      (h : UnaryOperator.ofSpelling? text = some k) :
    Denotes (.symbol .unaryOperator text) (.unaryOperator k)
  | binaryOperator {text : String} {k : BinaryOperator}
      (h : BinaryOperator.ofSpelling? text = some k) :
    Denotes (.symbol .binaryOperator text) (.binaryOperator k)

theorem Item.Denotes.alias {x y : Item} {d : Denotation} (hx : x.Denotes d) (hy : y.Denotes d) :
    Item.Alias x y := by
  cases hx with
  | var i =>
    cases hy
    exact .var i
  | constant c =>
    cases hy
    exact .constant c
  | bracket text =>
    cases hy
    exact .bracket text
  | relation h =>
    cases hy with
    | relation h' => exact .relation (spelledAlike_of_eq_some h h')
  | connective h =>
    cases hy with
    | connective h' => exact .connective (spelledAlike_of_eq_some h h')
  | quantifier h =>
    cases hy with
    | quantifier h' => exact .quantifier (spelledAlike_of_eq_some h h')
  | unaryOperator h =>
    cases hy with
    | unaryOperator h' => exact .unaryOperator (spelledAlike_of_eq_some h h')
  | binaryOperator h =>
    cases hy with
    | binaryOperator h' => exact .binaryOperator (spelledAlike_of_eq_some h h')

theorem Item.exists_denotes {item : Item} (h : item.isSpelled) : ∃ d, item.Denotes d := by
  cases item with
  | var i => exact ⟨_, .var i⟩
  | constant c => exact ⟨_, .constant c⟩
  | symbol kind text =>
    cases kind with
    | bracket => exact ⟨_, .bracket text⟩
    | relation => exact (Option.isSome_iff_exists.1 h).imp' _ fun _ => .relation
    | connective => exact (Option.isSome_iff_exists.1 h).imp' _ fun _ => .connective
    | quantifier => exact (Option.isSome_iff_exists.1 h).imp' _ fun _ => .quantifier
    | unaryOperator => exact (Option.isSome_iff_exists.1 h).imp' _ fun _ => .unaryOperator
    | binaryOperator => exact (Option.isSome_iff_exists.1 h).imp' _ fun _ => .binaryOperator
    | _ => cases h

/-! ## Looking up tokens -/

namespace Token

/-- A symbol is looked up as an item that stands for the same. -/
theorem denotation?_of_denotes {t : Token} (hkind : t.kind ≠ .variableName) {item : Item}
    (hitem : Item.ofToken t = .ok item) {d : Denotation} (hd : item.Denotes d) :
    t.denotation? = some d := by
  unfold Item.ofToken at hitem
  split at hitem
  · rename_i hconstant
    split at hitem
    · rename_i c hc
      cases hitem
      cases hd
      rw [denotation?, hconstant, hc, Option.map_some]
    · cases hitem
  · exact absurd ‹_› hkind
  · cases hitem
    unfold denotation?
    generalize t.kind = kind at hd
    cases hd with
    | bracket => rfl
    | relation h => simp only [h, Option.map_some]
    | connective h => simp only [h, Option.map_some]
    | quantifier h => simp only [h, Option.map_some]
    | unaryOperator h => simp only [h, Option.map_some]
    | binaryOperator h => simp only [h, Option.map_some]

theorem index_of_isNumbered {t : Token} (h : t.isNumbered) : t.index = t.indexNumber := by
  unfold index
  split
  · rename_i c htext
    rw [isNumbered, indexDigits, htext] at h
    split at h <;> cases h
  · rfl

/-- Only a number reaches the letters. -/
theorem isUnreadable_of_not_isNumbered {t : Token} (h : t.isNumbered = false) :
    t.isUnreadable = false := by
  have hdigits : t.indexDigits = [] := by simpa [isNumbered] using h
  rw [isUnreadable, isOverlong, indexNumber, hdigits]
  decide

/-- A variable of a text that can be looked up is looked up by its index. -/
theorem ofToken_variable {src : Source} {tokens : List Token} (h : lex src = .ok tokens)
    {t : Token} (ht : t ∈ tokens) (hkind : t.kind = .variableName)
    (hreadable : t.isUnreadable = false) : Item.ofToken t = .ok (.var t.index) := by
  obtain ⟨c, ds, htext, hc, hds, hletter⟩ := exists_variable_of_lex h ht hkind
  have hdigits := indexDigits_of_text hkind htext
  have hlook := Item.ofToken_of_variable hkind
  by_cases hne : ds = []
  · subst hne
    rw [hlook, htext, Item.ofVariable_letter hc, index, htext, String.toList_ofList]
    rfl
  · obtain rfl : c = numberedLetter := hletter.resolve_right hne
    have hnumbered : t.isNumbered := by simpa [isNumbered, hdigits] using hne
    have hnumber : t.indexNumber = Nat.ofDigitChars 10 (ds.map Text.ofSubscript) 0 := by
      rw [indexNumber, hdigits]
    rw [isUnreadable, Bool.or_eq_false_iff, isOverlong, hdigits, hnumber] at hreadable
    have hlen := of_decide_eq_false hreadable.1
    have hsmall := Nat.lt_of_not_le (of_decide_eq_false hreadable.2)
    rw [hlook, index_of_isNumbered hnumbered, htext, Item.ofVariable_numbered hne hds, if_neg hlen,
      if_pos hsmall, hnumber]
    rfl

/-- What a token of a text stands for is what it is looked up as. -/
inductive Resolves (t : Token) : Prop
  /-- The token is looked up as an item that stands for the same. -/
  | found {item : Item} {d : Denotation} (h : Item.ofToken t = .ok item) (hitem : item.Denotes d)
      (htoken : t.denotation? = some d) (hreadable : t.isUnreadable = false)
  /-- The formula is refused for the number of the variable. -/
  | refused {p : Problem} (h : Item.ofToken t = .error (.problem p))
      (hshort : t.isOverlong = false) (hunreadable : t.isUnreadable = true)

theorem resolves_of_lex {src : Source} {tokens : List Token} (h : lex src = .ok tokens)
    {t : Token} (ht : t ∈ tokens) (hshort : t.isOverlong = false) : t.Resolves := by
  cases lookUp_of_lex h ht with
  | overlong hlong _ => rw [hshort] at hlong; cases hlong
  | tooLarge hshort hunreadable hlook => exact .refused hlook hshort hunreadable
  | found hreadable item hitem hspelled =>
    by_cases hkind : t.kind = .variableName
    · refine .found (ofToken_variable h ht hkind hreadable) (.var t.index) ?_ hreadable
      rw [denotation?, hkind]
    · obtain ⟨d, hd⟩ := Item.exists_denotes hspelled
      exact .found hitem hd (denotation?_of_denotes hkind hitem hd) hreadable

theorem Resolves.isOverlong {t : Token} (h : t.Resolves) : t.isOverlong = false := by
  obtain ⟨-, -, -, hreadable⟩ | ⟨-, hshort, -⟩ := h
  · rw [isUnreadable, Bool.or_eq_false_iff] at hreadable
    exact hreadable.1
  · exact hshort

/-- Tokens that agree have both a number that is too large, or neither has. -/
theorem Agrees.isUnreadable_eq {t t' : Token} (hagrees : t.Agrees t') (h : t.Resolves)
    (h' : t'.Resolves) : t.isUnreadable = t'.isUnreadable := by
  obtain ⟨⟨hkind, hsame⟩, hnumbered⟩ := hagrees
  by_cases hvariable : t.kind = .variableName
  · have hindex : t.index = t'.index := by
      rw [denotation?, denotation?, ← hkind, hvariable] at hsame
      simpa using hsame
    cases hnumber : t.isNumbered with
    | true =>
      have hnumber' : t'.isNumbered := (hnumbered hvariable).symm.trans hnumber
      rw [index_of_isNumbered hnumber, index_of_isNumbered hnumber'] at hindex
      rw [isUnreadable, isUnreadable, h.isOverlong, h'.isOverlong, hindex]
    | false =>
      have hnumber' : t'.isNumbered = false := (hnumbered hvariable).symm.trans hnumber
      rw [isUnreadable_of_not_isNumbered hnumber, isUnreadable_of_not_isNumbered hnumber']
  · have hdigits {u : Token} (hu : u.kind ≠ .variableName) : u.isNumbered = false := by
      rw [isNumbered, indexDigits, if_neg hu]
      rfl
    rw [isUnreadable_of_not_isNumbered (hdigits hvariable),
      isUnreadable_of_not_isNumbered (hdigits (hkind ▸ hvariable))]

/-- Two tokens that agree are looked up as aliases, or the formula is refused for both. -/
theorem Agrees.lookUp {t t' : Token} (hagrees : t.Agrees t') (h : t.Resolves) (h' : t'.Resolves) :
    (∃ item item', Item.ofToken t = .ok item ∧ Item.ofToken t' = .ok item' ∧
      Item.Alias item item') ∨
    ∃ p p', Item.ofToken t = .error (.problem p) ∧ Item.ofToken t' = .error (.problem p') := by
  have hunreadable := hagrees.isUnreadable_eq h h'
  obtain ⟨hlook, hitem, hsome, hreadable⟩ | ⟨hlook, -, htoken⟩ := h
  · obtain ⟨hlook', hitem', hsome', -⟩ | ⟨-, -, htoken'⟩ := h'
    · obtain rfl := Option.some.inj (hsome.symm.trans (hagrees.same.2.trans hsome'))
      exact .inl ⟨_, _, hlook, hlook', hitem.alias hitem'⟩
    · cases hreadable.symm.trans (hunreadable.trans htoken')
  · obtain ⟨-, -, -, hreadable'⟩ | ⟨hlook', -, -⟩ := h'
    · cases htoken.symm.trans (hunreadable.trans hreadable')
    · exact .inr ⟨_, _, hlook, hlook'⟩

end Token

/-- Lists of tokens that agree are looked up as aliases, or refused at the same point. -/
theorem itemsOf_together {tokens tokens' : List Token}
    (hagree : List.Forall₂ Token.Agrees tokens tokens') (h : ∀ t ∈ tokens, t.Resolves)
    (h' : ∀ t ∈ tokens', t.Resolves) :
    (∃ items items', itemsOf tokens = .ok items ∧ itemsOf tokens' = .ok items' ∧
      List.Forall₂ Item.Alias items items' ∧ items.length = tokens.length) ∨
    ∃ p p' left, itemsOf tokens = .error (.refused p left) ∧
      itemsOf tokens' = .error (.refused p' left) := by
  induction hagree with
  | nil => exact .inl ⟨[], [], rfl, rfl, .nil, rfl⟩
  | cons htoken htokens ih =>
    rw [List.forall_mem_cons] at h h'
    unfold itemsOf
    rcases htoken.lookUp h.1 h'.1 with ⟨item, item', hitem, hitem', halias⟩ | ⟨p, p', hp, hp'⟩
    · rw [hitem, hitem']
      rcases ih h.2 h'.2 with ⟨items, items', hitems, hitems', haliases, hlength⟩ |
        ⟨p, p', left, hp, hp'⟩
      · refine .inl ⟨item :: items, item' :: items', ?_, ?_, .cons halias haliases, ?_⟩
        · rw [hitems]
          rfl
        · rw [hitems']
          rfl
        · rw [List.length_cons, List.length_cons, hlength]
      · refine .inr ⟨p, p', left, ?_, ?_⟩
        · rw [hp]
          rfl
        · rw [hp']
          rfl
    · rw [hp, hp', htokens.length_eq]
      exact .inr ⟨p, p', _, rfl, rfl⟩

/-- Of tokens without too many digits none is at fault. -/
theorem parse_ne_badToken {src : Source} {tokens : List Token} (h : lex src = .ok tokens)
    (hshort : ∀ t ∈ tokens, t.isOverlong = false) (limit : Nat) (fault : TokenFault) :
    parse limit tokens ≠ .error (.badToken fault) := by
  intro hfault
  obtain ⟨t, hfind, hlong, -⟩ := (parse_eq_badToken_iff h limit fault).1 hfault
  rw [hshort t (List.mem_of_find?_eq_some hfind)] at hlong
  cases hlong

/-- **Spellings are interchangeable.** Take the tokens of two texts, without variables of too many
digits, and let them agree one by one in their class and in what they stand for, a letter with a
letter and a number with a number. Then the parser reads the same tree from both, or refuses both
formulas, and does so at the same point. Only if the levels of nesting are not more than the tokens
may they be used up, and then for both. -/
theorem parse_spellings_alike (src src' : Source) (tokens tokens' : List Token)
    (hlex : lex src = .ok tokens) (hlex' : lex src' = .ok tokens')
    (hagree : List.Forall₂ Token.Agrees tokens tokens')
    (hshort : ∀ t ∈ tokens, t.isOverlong = false) (hshort' : ∀ t ∈ tokens', t.isOverlong = false)
    (limit : Nat) :
    (∃ e, parse limit tokens = .ok e ∧ parse limit tokens' = .ok e) ∨
      (∃ p p' left, parse limit tokens = .error (.refused p left) ∧
        parse limit tokens' = .error (.refused p' left)) ∨
      limit ≤ tokens.length ∧ parse limit tokens = .error .tooDeep ∧
        parse limit tokens' = .error .tooDeep := by
  have hresolves : ∀ t ∈ tokens, t.Resolves :=
    fun t ht => Token.resolves_of_lex hlex ht (hshort t ht)
  have hresolves' : ∀ t ∈ tokens', t.Resolves :=
    fun t ht => Token.resolves_of_lex hlex' ht (hshort' t ht)
  rcases itemsOf_together hagree hresolves hresolves' with
    ⟨items, items', hitems, hitems', haliases, hlength⟩ | ⟨p, p', left, hp, hp'⟩
  · have hfault := parse_ne_badToken hlex hshort limit
    rw [parse_eq_parseItems hitems] at hfault ⊢
    rw [parse_eq_parseItems hitems']
    have hverdict := parseItems_verdict haliases limit
    generalize parseItems limit items = r at hverdict hfault
    generalize parseItems limit items' = r' at hverdict
    cases hverdict with
    | tree he => exact .inl ⟨_, rfl, rfl⟩
    | refused p p' _ => exact .inr (.inl ⟨p, p', _, rfl, rfl⟩)
    | badToken fault _ _ => exact absurd rfl (hfault fault)
    | tooDeep h => exact .inr (.inr ⟨hlength ▸ h, rfl, rfl⟩)
  · refine .inr (.inl ⟨p, p', left, ?_, ?_⟩)
    · rw [parse, hp]
      rfl
    · rw [parse, hp']
      rfl

/-- The tokens of `∃v₁ v₁≠∅`. -/
def tokensInSymbols : List Token :=
  [⟨.quantifier, "∃", ⟨1, 1, none⟩⟩, ⟨.variableName, "v₁", ⟨1, 2, none⟩⟩,
    ⟨.variableName, "v₁", ⟨1, 5, none⟩⟩, ⟨.relation, "≠", ⟨1, 7, none⟩⟩,
    ⟨.constant, "∅", ⟨1, 8, none⟩⟩]

/-- The tokens of `\exists v01 v1!=0`. -/
def tokensInWords : List Token :=
  [⟨.quantifier, "\\exists", ⟨1, 1, none⟩⟩, ⟨.variableName, "v01", ⟨1, 9, none⟩⟩,
    ⟨.variableName, "v1", ⟨1, 13, none⟩⟩, ⟨.relation, "!=", ⟨1, 15, none⟩⟩,
    ⟨.constant, "0", ⟨1, 17, none⟩⟩]

theorem parse_spellings_alike_exists :
    lex ⟨"∃v₁ v₁≠∅", 1, none⟩ = .ok tokensInSymbols ∧
      lex ⟨"\\exists v01 v1!=0", 1, none⟩ = .ok tokensInWords ∧
      List.Forall₂ Token.Agrees tokensInSymbols tokensInWords ∧
      ∃ e, parse 40 tokensInSymbols = .ok e ∧ parse 40 tokensInWords = .ok e := by
  have hlex : lex ⟨"∃v₁ v₁≠∅", 1, none⟩ = .ok tokensInSymbols := by decide +kernel
  have hlex' : lex ⟨"\\exists v01 v1!=0", 1, none⟩ = .ok tokensInWords := by decide +kernel
  have hagree : List.Forall₂ Token.Agrees tokensInSymbols tokensInWords := by decide +kernel
  have hread : (parse 40 tokensInSymbols).isOk := by decide +kernel
  refine ⟨hlex, hlex', hagree, ?_⟩
  rcases parse_spellings_alike _ _ _ _ hlex hlex' hagree (by decide +kernel) (by decide +kernel) 40
    with hsame | ⟨p, p', left, hrefused, -⟩ | ⟨hlimit, -⟩
  · exact hsame
  · rw [hrefused] at hread
    cases hread
  · exact absurd hlimit (by decide)

/-- The tokens of `z = x`. -/
def tokensWithLetter : List Token :=
  [⟨.variableName, "z", ⟨1, 1, none⟩⟩, ⟨.relation, "=", ⟨1, 3, none⟩⟩,
    ⟨.variableName, "x", ⟨1, 5, none⟩⟩]

/-- The tokens of `v4294967173 = x`. -/
def tokensWithNumber : List Token :=
  [⟨.variableName, "v4294967173", ⟨1, 1, none⟩⟩, ⟨.relation, "=", ⟨1, 13, none⟩⟩,
    ⟨.variableName, "x", ⟨1, 15, none⟩⟩]

/-- The number is the index of the letter, so the tokens stand for the same one by one. The formula
is read with the letter and refused with the number. -/
theorem same_index_told_apart :
    lex ⟨"z = x", 1, none⟩ = .ok tokensWithLetter ∧
      lex ⟨"v4294967173 = x", 1, none⟩ = .ok tokensWithNumber ∧
      List.Forall₂ Token.MeansSame tokensWithLetter tokensWithNumber ∧
      (∀ t ∈ tokensWithLetter ++ tokensWithNumber, t.isOverlong = false) ∧
      parse 40 tokensWithLetter = .ok (.eq (.var (indexOfLetter 'z')) (.var (indexOfLetter 'x'))) ∧
      parse 40 tokensWithNumber = .error (.refused (.indexTooLarge "v4294967173") 3) := by
  decide +kernel

end SetFormula
