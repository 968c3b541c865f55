import SetFormula.Text.Blank
import SetFormula.Text.Numeral
import SetFormula.Token
import SetFormula.Index

/-!
# From text to tokens

White space carries no meaning and is dropped, also inside a symbol; the columns of tokens and
errors are those of the text as given. At each character the classes of symbols are tried in a fixed
order, and within a class the longest spelling is taken. Failing that, `v` with a run of digits, or
any single ASCII letter, is a variable.

* `cut` cuts the characters that are left into tokens, without regard to where they stood.
* `lex` is the list of tokens of a text, or the first character that starts no token.
-/

namespace SetFormula

/-- A formula text with the line and the file it comes from. -/
structure Source where
  text : String
  line : Int := 1
  file : Option String := none
  deriving DecidableEq, Repr

/-- The characters of `cs` that are not white space, each with its column if `cs` follows `n`
characters. -/
def inkedAfter (n : Nat) (cs : List Char) : List (Char × Nat) :=
  (cs.zipIdx (n + 1)).filter fun c => !Text.isBlank c.1

namespace Source

/-- The place of a column of the text. -/
def placeAt (s : Source) (column : Nat) : Place := ⟨s.line, column, s.file⟩

/-- The characters that are not white space, each with its column. -/
def inked (s : Source) : List (Char × Nat) := inkedAfter 0 s.text.toList

end Source

/-! ## The token at the head of a text -/

/-- The class and the characters of a token. -/
structure Lexeme where
  kind : TokenClass
  chars : List Char
  deriving DecidableEq, Repr

/-- The spellings of each class as lists of characters. -/
def symbolClassChars : List (TokenClass × List (List Char)) :=
  symbolClasses.map fun c => (c.1, c.2.map String.toList)

/-- The longest of the spellings that the characters start with. -/
def longestSpelling? (spellings : List (List Char)) (cs : List Char) : Option (List Char) :=
  spellings.foldl (fun best s =>
    if s.isPrefixOf cs && (best.map List.length).getD 0 < s.length then some s else best) none

/-- The symbol that the characters start with: the longest spelling in the first class that has
one. -/
def leadingSymbol? (cs : List Char) : Option Lexeme :=
  symbolClassChars.findSome? fun c => (longestSpelling? c.2 cs).map (⟨c.1, ·⟩)

/-- The variable that the characters start with. -/
def leadingVariable? : List Char → Option (List Char)
  | [] => none
  | c :: cs =>
    if c = numberedLetter then some (c :: cs.takeWhile Text.isIndexDigit)
    else if c.isAlpha then some [c]
    else none

/-! ## Cutting -/

/-- The token that the characters start with: a symbol, or failing that a variable. -/
def leadingLexeme? (cs : List Char) : Option Lexeme :=
  match leadingSymbol? cs with
  | some l => some l
  | none => (leadingVariable? cs).map (⟨.variableName, ·⟩)

/-- A character that starts no token, and the number of characters after it. -/
structure Stray where
  char : Char
  after : Nat
  deriving DecidableEq, Repr

/-- Cut the characters into tokens. The first `covered` of them belong to a token that has been cut
already. -/
def cut (covered : Nat) : List Char → Except Stray (List Lexeme)
  | [] => .ok []
  | c :: cs =>
    match covered with
    | n + 1 => cut n cs
    | 0 =>
      match leadingLexeme? (c :: cs) with
      | none => .error ⟨c, cs.length⟩
      | some l => (cut (l.chars.length - 1) cs).map (l :: ·)

theorem cut_cons_eq_ok {c : Char} {cs : List Char} {ls : List Lexeme}
    (h : cut 0 (c :: cs) = .ok ls) :
    ∃ l ls', leadingLexeme? (c :: cs) = some l ∧ cut (l.chars.length - 1) cs = .ok ls' ∧
      ls = l :: ls' := by
  rw [cut] at h
  split at h
  · cases h
  · rename_i l hl
    cases hrest : cut (l.chars.length - 1) cs with
    | error stray => simp [hrest, Except.map] at h
    | ok ls' =>
      simp only [hrest, Except.map, Except.ok.injEq] at h
      exact ⟨l, ls', hl, hrest, h.symm⟩

theorem cut_cons_eq_error {c : Char} {cs : List Char} {stray : Stray}
    (h : cut 0 (c :: cs) = .error stray) :
    stray = ⟨c, cs.length⟩ ∨ ∃ covered, cut covered cs = .error stray := by
  rw [cut] at h
  split at h
  · exact .inl (Except.error.inj h).symm
  · rename_i l _
    cases hrest : cut (l.chars.length - 1) cs with
    | ok ls => simp [hrest, Except.map] at h
    | error stray' =>
      simp only [hrest, Except.map, Except.error.injEq] at h
      exact .inr ⟨_, h ▸ hrest⟩

theorem after_lt_of_cut {covered : Nat} {cs : List Char} {stray : Stray}
    (h : cut covered cs = .error stray) : stray.after < cs.length := by
  induction cs generalizing covered with
  | nil => cases h
  | cons c cs ih =>
    rw [List.length_cons]
    cases covered with
    | succ n => exact Nat.lt_succ_of_lt (ih h)
    | zero =>
      rcases cut_cons_eq_error h with rfl | ⟨covered, hrest⟩
      · exact Nat.lt_succ_self _
      · exact Nat.lt_succ_of_lt (ih hrest)

/-! ## Placing -/

/-- The tokens cut from characters that stand in the given columns. -/
def placeLexemes (s : Source) : List Nat → List Lexeme → List Token
  | _, [] => []
  | columns, l :: ls =>
    ⟨l.kind, String.ofList l.chars, s.placeAt (columns.headD 0)⟩ ::
      placeLexemes s (columns.drop l.chars.length) ls

/-- A character that starts no token, and where it stands. -/
structure StrayCharacter where
  char : Char
  place : Place
  deriving DecidableEq, Repr

/-- The tokens of characters with their columns. -/
def lexInked (s : Source) (inked : List (Char × Nat)) : Except StrayCharacter (List Token) :=
  match cut 0 (inked.map (·.1)) with
  | .ok lexemes => .ok (placeLexemes s (inked.map (·.2)) lexemes)
  | .error e => .error ⟨e.char, s.placeAt (((inked.map (·.2)).reverse.drop e.after).headD 0)⟩

/-- The tokens of a formula text. -/
def lex (s : Source) : Except StrayCharacter (List Token) := lexInked s s.inked

end SetFormula
