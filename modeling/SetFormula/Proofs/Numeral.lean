import Mathlib
import SetFormula.Item

/-!
# Printed variables are read back

A number printed in subscript digits is read back once the digits are made plain
(`readInteger_toDigits`, `map_ofSubscript_subscriptNat`). So the text of a variable whose index is
readable, that is, a letter or a number below the letters, is read as that variable
(`ofVariable_indexChars`), and no other variables are ever read (`isReadableIndex_of_ofVariable`).
-/

namespace SetFormula

namespace Text

/-! ## Digits -/

/-- What holds of the ten digits holds of every digit. -/
theorem of_isDigit {P : Char → Prop} [DecidablePred P]
    (hall : ['0', '1', '2', '3', '4', '5', '6', '7', '8', '9'].all (P ·)) {c : Char}
    (h : c.isDigit) : P c := by
  have hcodes : ∀ n < 58, 48 ≤ n →
      Char.ofNat n ∈ ['0', '1', '2', '3', '4', '5', '6', '7', '8', '9'] := by decide
  have hle : 48 ≤ c.toNat ∧ c.toNat ≤ 57 := by
    simpa [Char.isDigit, UInt32.le_iff_toNat_le] using h
  have hmem := hcodes c.toNat (by omega) hle.1
  rw [Char.ofNat_toNat] at hmem
  exact of_decide_eq_true (List.all_eq_true.1 hall c hmem)

theorem ofSubscript_toSubscript {c : Char} (h : c.isDigit) : ofSubscript (toSubscript c) = c :=
  of_isDigit (P := fun c => ofSubscript (toSubscript c) = c) (by decide) h

/-- A subscript digit continues a numbered variable and is neither white space nor a letter. -/
theorem isIndexDigit_toSubscript {c : Char} (h : c.isDigit) :
    isIndexDigit (toSubscript c) ∧ isBlank (toSubscript c) = false ∧
      (toSubscript c).isAlpha = false :=
  of_isDigit (P := fun c => isIndexDigit (toSubscript c) ∧ isBlank (toSubscript c) = false ∧
    (toSubscript c).isAlpha = false) (by decide) h

/-- A digit is read as its value, and is no blank, sign or underscore. -/
theorem digitValue?_of_isDigit {c : Char} (h : c.isDigit) :
    digitValue? c = some (c.toNat - '0'.toNat) ∧ isNumeralBlank c = false ∧ c ≠ '-' ∧ c ≠ '+' ∧
      c ≠ '_' :=
  of_isDigit (P := fun c => digitValue? c = some (c.toNat - '0'.toNat) ∧
    isNumeralBlank c = false ∧ c ≠ '-' ∧ c ≠ '+' ∧ c ≠ '_') (by decide) h

/-! ## Numerals -/

theorem map_ofSubscript_subscriptNat (n : Nat) :
    (subscriptNat n).map ofSubscript = Nat.toDigits 10 n := by
  rw [subscriptNat, List.map_map]
  refine (List.map_congr_left fun c hc => ?_).trans (List.map_id _)
  exact ofSubscript_toSubscript (Nat.isDigit_of_mem_toDigits (by decide) (by decide) hc)

theorem subscriptNat_ne_nil (n : Nat) : subscriptNat n ≠ [] := by
  rw [subscriptNat, ne_eq, List.map_eq_nil_iff]
  exact Nat.toDigits_ne_nil

theorem digitValues?_of_isDigit {cs : List Char} (hne : cs ≠ []) (h : ∀ c ∈ cs, c.isDigit) :
    digitValues? cs = some (cs.map fun c => c.toNat - '0'.toNat) := by
  fun_induction digitValues? cs with
  | case1 => exact absurd rfl hne
  | case2 c => simp [(digitValue?_of_isDigit (h c (by simp))).1]
  | case3 c rest ih => exact absurd rfl (digitValue?_of_isDigit (h '_' (by simp))).2.2.2.2
  | case4 c rest hrest _ ih =>
    have hd := (digitValue?_of_isDigit (h c (by simp))).1
    simp [hd, ih (by simpa using hrest) fun c hc => h c (by simp [hc])]

/-- A plain decimal numeral is read as its number, unless it has too many digits. -/
theorem readNatural_of_isDigit {cs : List Char} (hne : cs ≠ []) (h : ∀ c ∈ cs, c.isDigit) :
    readNatural cs =
      if maxDigits < cs.length then .error (.tooLong cs.length)
      else .ok (Nat.ofDigitChars 10 cs 0) := by
  have hchars : ∀ c ∈ cs, isNumeralChar c := fun c hc => by
    simp [isNumeralChar, (digitValue?_of_isDigit (h c hc)).1]
  rw [readNatural, List.takeWhile_eq_self_iff.2 hchars, digitValues?_of_isDigit hne h]
  simp only [List.length_map]
  rw [List.dropWhile_eq_nil_iff.2 hchars, ofDigitValues, List.foldl_map, Nat.ofDigitChars]
  rfl

theorem readInteger_of_isDigit {cs : List Char} (hne : cs ≠ []) (h : ∀ c ∈ cs, c.isDigit) :
    readInteger cs =
      if maxDigits < cs.length then .error (.tooLong cs.length)
      else .ok (Nat.ofDigitChars 10 cs 0 : Nat) := by
  have hread := readNatural_of_isDigit hne h
  -- the first digit is neither a blank nor a sign
  obtain ⟨c, cs', hcs⟩ := List.exists_cons_of_ne_nil hne
  obtain ⟨-, hblank, hminus, hplus, -⟩ := digitValue?_of_isDigit (h c (by simp [hcs]))
  rw [readInteger, hcs, List.dropWhile_cons_of_neg (by simp [hblank]), ← hcs]
  split
  · cases hcs
    exact absurd rfl hminus
  · cases hcs
    exact absurd rfl hplus
  · rw [hread]
    split <;> rfl

/-- A plain decimal numeral of a bounded length is read as its number. -/
theorem readInteger_toDigits {n : Nat} (h : n < 10 ^ maxDigits) :
    readInteger (Nat.toDigits 10 n) = .ok n := by
  have hlength : (Nat.toDigits 10 n).length ≤ maxDigits :=
    (Nat.length_toDigits_le_iff (by decide) (by decide)).2 h
  rw [readInteger_of_isDigit Nat.toDigits_ne_nil
    fun c hc => Nat.isDigit_of_mem_toDigits (by decide) (by decide) hc]
  rw [if_neg (Nat.not_lt.2 hlength), Nat.ofDigitChars_ten_toDigits]

end Text

/-! ## Variables -/

/-- The indices of the variables that can be written: the numbers below the letters, and the letters
themselves. -/
def IsReadableIndex (i : Nat) : Prop :=
  i < letterStart ∨ ∃ c : Char, c.isAlpha ∧ i = indexOfLetter c

theorem IsReadableIndex.le_maxIndex {i : Nat} (h : IsReadableIndex i) : i ≤ maxIndex := by
  have hstart : letterStart ≤ maxIndex := by decide
  rcases h with h | ⟨c, -, rfl⟩
  · omega
  · exact Nat.sub_le _ _

theorem toNat_lt_of_isAlpha {c : Char} (h : c.isAlpha) : c.toNat < 128 := by
  have hle : (65 ≤ c.toNat ∧ c.toNat ≤ 90) ∨ (97 ≤ c.toNat ∧ c.toNat ≤ 122) := by
    simpa [Char.isAlpha, Char.isUpper, Char.isLower, UInt32.le_iff_toNat_le] using h
  omega

theorem letterOf?_indexOfLetter {c : Char} (h : c.isAlpha) :
    letterOf? (indexOfLetter c) = some c := by
  have hlt := toNat_lt_of_isAlpha h
  have hcode : (maxIndex : Int) - (indexOfLetter c : Nat) = c.toNat := by
    simp only [indexOfLetter, maxIndex]
    omega
  simp only [letterOf?, hcode, Int.toNat_natCast, Char.ofNat_toNat, h, and_true]
  rw [if_pos (by omega)]

theorem letterOf?_of_lt {i : Nat} (h : i < letterStart) : letterOf? i = none := by
  have hall : ∀ n < 128, 122 < n → (Char.ofNat n).isAlpha = false := by decide
  have hstart : letterStart = 4294967173 := rfl
  rw [letterOf?]
  refine if_neg fun ⟨_, hlt, halpha⟩ => ?_
  rw [hall _ (by omega) (by simp only [maxIndex]; omega)] at halpha
  cases halpha

theorem indexChars_indexOfLetter {c : Char} (h : c.isAlpha) :
    indexChars (indexOfLetter c) = [c] := by
  rw [indexChars, letterOf?_indexOfLetter h]

theorem indexChars_of_lt {i : Nat} (h : i < letterStart) :
    indexChars i = numberedLetter :: Text.subscriptNat i := by
  rw [indexChars, letterOf?_of_lt h]
  rfl

/-- The text of a variable is a letter, which index digits may follow if it is that of the numbered
variables. -/
theorem exists_indexChars_eq_cons {i : Nat} (h : IsReadableIndex i) :
    ∃ c ds, indexChars i = c :: ds ∧ c.isAlpha ∧
      (∀ d ∈ ds, Text.isIndexDigit d ∧ d.isAlpha = false) ∧ (c = numberedLetter ∨ ds = []) := by
  rcases h with h | ⟨c, hc, rfl⟩
  · refine ⟨numberedLetter, _, indexChars_of_lt h, by decide, fun d hd => ?_, .inl rfl⟩
    obtain ⟨a, ha, rfl⟩ := List.mem_map.1 hd
    have hdigit := Text.isIndexDigit_toSubscript
      (Nat.isDigit_of_mem_toDigits (by decide) (by decide) ha)
    exact ⟨hdigit.1, hdigit.2.2⟩
  · exact ⟨c, [], indexChars_indexOfLetter hc, hc, nofun, .inr rfl⟩

/-- A variable that can be written is read back from its text. -/
theorem ofVariable_indexChars {i : Nat} (h : IsReadableIndex i) :
    Item.ofVariable (String.ofList (indexChars i)) = .ok i := by
  rcases h with h | ⟨c, hc, rfl⟩
  · have hnumber : Text.readInteger ((Text.subscriptNat i).map Text.ofSubscript) = .ok i := by
      rw [Text.map_ofSubscript_subscriptNat]
      exact Text.readInteger_toDigits (Nat.lt_trans h (by decide +kernel))
    obtain ⟨d, ds, hds⟩ := List.exists_cons_of_ne_nil (Text.subscriptNat_ne_nil i)
    rw [hds] at hnumber
    rw [indexChars_of_lt h, Item.ofVariable, String.toList_ofList, hds]
    simp only [↓reduceIte, hnumber]
    exact if_pos h
  · rw [indexChars_indexOfLetter hc, Item.ofVariable, String.toList_ofList]
    simp [indexOfName, hc]

/-- No other variable is ever read. -/
theorem isReadableIndex_of_ofVariable {text : String} {i : Nat}
    (h : Item.ofVariable text = .ok i) : IsReadableIndex i := by
  unfold Item.ofVariable at h
  split at h
  · cases h
  · split at h
    · rename_i hname
      cases h
      unfold indexOfName at hname
      split at hname
      · rename_i c _
        split at hname
        · rename_i hc
          cases hname
          exact .inr ⟨c, hc, rfl⟩
        · cases hname
      · cases hname
    · cases h
  · split at h
    · simp only at h
      split at h
      · cases h
      · cases h
      · split at h
        · rename_i hlt
          cases h
          exact .inl hlt
        · cases h
      · cases h
    · cases h

end SetFormula
