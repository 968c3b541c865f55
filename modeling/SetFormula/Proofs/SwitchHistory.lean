import Mathlib.Data.List.DropRight
import SetFormula.Proofs.Answers
import SetFormula.Proofs.FrontEnds

/-!
# The switches over a session

A line typed in the shell sets all switches, turns one over, or leaves them alone. So the switches
after any number of lines can be told from the lines: a switch has the value of the latest command
that set all of them, or its first value if there was none (`baseValue`), turned over as often as
its name was toggled since then (`timesToggled`).

* `typed?` is what a line types: the word up to the first space, and the rest without blanks.
* `reply_switch` says what one line does to a switch, and `Settled.reply` that the history with this
  line tells the switches after it.
* `exists_replies` carries this along a whole session.
-/

namespace SetFormula.Shell

/-! ## Typed commands -/

/-- The command on a line, if the line without the blanks at its ends starts with a colon: its word,
which is what comes before the first space, and its argument, which is the rest without the blanks
at its ends. -/
def typed? (raw : String) : Option (String × String) :=
  let line := Text.trim raw
  if line.startsWith ":" then
    some (String.ofList (line.toList.takeWhile (· != ' ')),
      Text.trim (String.ofList (line.toList.dropWhile (· != ' '))))
  else none

/-- The value that a line gives to all switches, if it does so. -/
def reset? (raw : String) : Option Bool :=
  (typed? raw).bind fun command =>
    if command.1 = ":all" then some true else if command.1 = ":none" then some false else none

/-- Whether a line turns a switch over. -/
def toggles (w : Switch) (raw : String) : Bool := typed? raw = some (":toggle", w.name)

theorem trim_cons_of_isBlank {c : Char} (h : Text.isBlank c) (cs : List Char) :
    Text.trim (String.ofList (c :: cs)) = Text.trim (String.ofList cs) := by
  rw [Text.trim, Text.trim, String.toList_ofList, String.toList_ofList, Text.trimChars,
    List.dropWhile_cons_of_pos h]
  rfl

/-- Cutting a line at its first space gives the word and, but for blanks, the argument. -/
theorem cutAt?_space (line : String) :
    ((Text.cutAt? ' ' line).getD (line, "")).1 =
        String.ofList (line.toList.takeWhile (· != ' ')) ∧
      Text.trim ((Text.cutAt? ' ' line).getD (line, "")).2 =
        Text.trim (String.ofList (line.toList.dropWhile (· != ' '))) := by
  have hsplit := List.takeWhile_append_dropWhile (p := (· != ' ')) (l := line.toList)
  rw [Text.cutAt?, List.span_eq_takeWhile_dropWhile]
  cases hrest : line.toList.dropWhile (· != ' ') with
  | nil =>
    rw [hrest, List.append_nil] at hsplit
    rw [hsplit, String.ofList_toList]
    exact ⟨rfl, rfl⟩
  | cons c rest =>
    have hc : c = ' ' := by
      have hhead := List.head?_dropWhile_not (· != ' ') line.toList
      rw [hrest] at hhead
      simpa using hhead
    rw [hc, trim_cons_of_isBlank (by decide)]
    exact ⟨rfl, rfl⟩

theorem typed?_eq_some_iff {raw word argument : String} :
    typed? raw = some (word, argument) ↔ (Text.trim raw).startsWith ":" ∧
      ((Text.cutAt? ' ' (Text.trim raw)).getD (Text.trim raw, "")).1 = word ∧
      Text.trim ((Text.cutAt? ' ' (Text.trim raw)).getD (Text.trim raw, "")).2 = argument := by
  obtain ⟨hword, hargument⟩ := cutAt?_space (Text.trim raw)
  rw [hword, hargument]
  simp [typed?]

theorem typed?_eq_none_iff {raw : String} :
    typed? raw = none ↔ (Text.trim raw).startsWith ":" = false := by
  simp [typed?]

/-! ## One line -/

theorem ofName?_eq_some_iff {name : String} {w : Switch} :
    Switch.ofName? name = some w ↔ name = w.name := by
  constructor
  · intro h
    have hname := List.find?_some (p := fun w : Switch => w.name == name) h
    exact (beq_iff_eq.1 hname).symm
  · rintro rfl
    cases w <;> rfl

theorem run_toggle_switch (s : Switches) (name : String) (w : Switch) :
    ((Command.toggle name).run s).2 w = (s w ^^ decide (name = w.name)) := by
  have hrun : ((Command.toggle name).run s).2 = (Switch.ofName? name).elim s s.toggle := by
    unfold Command.run
    dsimp only
    cases Switch.ofName? name <;> rfl
  have hname : name = w.name ↔ Switch.ofName? name = some w := ofName?_eq_some_iff.symm
  rw [hrun]
  cases hfound : Switch.ofName? name with
  | none => simp [hname, hfound]
  | some v =>
    by_cases hv : v = w
    · simp [hname, hfound, hv, Switches.toggle]
    · simp [hname, hfound, hv, Ne.symm hv, Switches.toggle]

/-- A command sets all switches, turns over the one that it names, or changes nothing. -/
theorem run_parse_switch {raw word argument : String} (htyped : typed? raw = some (word, argument))
    (s : Switches) (w : Switch) :
    ((Command.parse (Text.trim raw)).run s).2 w = (reset? raw).getD (s w ^^ toggles w raw) := by
  have hreset : reset? raw =
      if word = ":all" then some true else if word = ":none" then some false else none := by
    rw [reset?, htyped]
    rfl
  have htoggles : toggles w raw = decide (word = ":toggle" ∧ argument = w.name) := by
    simp [toggles, htyped]
  obtain ⟨-, rfl, rfl⟩ := typed?_eq_some_iff.1 htyped
  rw [hreset, htoggles]
  unfold Command.parse
  obtain ⟨word, rest⟩ := (Text.cutAt? ' ' (Text.trim raw)).getD (Text.trim raw, "")
  dsimp only
  split
  case h_6 => simp [run_toggle_switch]
  all_goals
    unfold Command.run
    simp_all [Switches.allOn, Switches.allOff]

/-- A line gives a switch the value that it gives to all of them, or else turns it over if it types
its name to be toggled. -/
theorem reply_switch {r : Runtime} {s s' : Switches} {raw : String} {answer : Reply}
    (h : reply r s raw = .ok (answer, s')) (w : Switch) :
    s' w = (reset? raw).getD (s w ^^ toggles w raw) := by
  -- blank lines and formulas type no command
  have hkept (htyped : typed? raw = none) : s w = (reset? raw).getD (s w ^^ toggles w raw) := by
    simp [reset?, toggles, htyped]
  unfold reply at h
  dsimp only at h
  split at h
  · rename_i hempty
    cases h
    refine hkept (typed?_eq_none_iff.2 ?_)
    rw [String.isEmpty_iff.1 hempty]
    decide
  · split at h
    · rename_i hcommand
      have hs' : ((Command.parse (Text.trim raw)).run s).2 = s' :=
        congrArg Prod.snd (Except.ok.inj h)
      rw [← hs']
      exact run_parse_switch (typed?_eq_some_iff.2 ⟨hcommand, rfl, rfl⟩) s w
    · rename_i hcommand
      have hs' : s = s' := by
        cases hreply : formulaReply r s (Text.trim raw) with
        | error e =>
          rw [hreply] at h
          cases h
        | ok answer =>
          rw [hreply] at h
          exact congrArg Prod.snd (Except.ok.inj h)
      rw [← hs']
      exact hkept (typed?_eq_none_iff.2 (Bool.eq_false_iff.2 hcommand))

/-- A line that types no command, another command than those that change switches, or a name to be
toggled that no switch has. -/
def KeepsSwitches (raw : String) : Prop :=
  ∀ word argument, typed? raw = some (word, argument) →
    word ≠ ":all" ∧ word ≠ ":none" ∧ (word = ":toggle" → argument ∉ Switch.names)

theorem KeepsSwitches.reply_eq {r : Runtime} {s s' : Switches} {raw : String} {answer : Reply}
    (hraw : KeepsSwitches raw) (h : reply r s raw = .ok (answer, s')) : s' = s := by
  funext w
  rw [reply_switch h w]
  cases htyped : typed? raw with
  | none => simp [reset?, toggles, htyped]
  | some command =>
    obtain ⟨word, argument⟩ := command
    obtain ⟨hall, hnone, hname⟩ := hraw word argument htyped
    have htoggles : toggles w raw = false := by
      simp only [toggles, htyped, Option.some.injEq, Prod.mk.injEq, decide_eq_false_iff_not]
      rintro ⟨hword, rfl⟩
      exact hname hword (List.mem_map_of_mem (by cases w <;> decide))
    simp [reset?, htyped, hall, hnone, htoggles]

/-! ## The history of a switch -/

/-- The value after the latest line that gave one to all switches, or the first value if there was
none. -/
def baseValue (initial : Bool) (lines : List String) : Bool :=
  (lines.filterMap reset?).getLast?.getD initial

/-- The lines after the latest one that gave a value to all switches. -/
def sinceReset (lines : List String) : List String :=
  lines.rtakeWhile fun raw => (reset? raw).isNone

/-- How often a switch was turned over since all switches were given a value. -/
def timesToggled (w : Switch) (lines : List String) : Nat := (sinceReset lines).countP (toggles w)

/-- The switches are those that the lines tell: one is on if and only if its base value differs from
the parity of the number of times that it was toggled since. -/
def Settled (initial : Switches) (lines : List String) (s : Switches) : Prop :=
  ∀ w, s w = true ↔ baseValue (initial w) lines ≠ decide (Odd (timesToggled w lines))

theorem settled_nil (initial : Switches) : Settled initial [] initial := by
  intro w
  simp [baseValue, timesToggled, sinceReset]

theorem baseValue_concat (initial : Bool) (lines : List String) (raw : String) :
    baseValue initial (lines ++ [raw]) = (reset? raw).getD (baseValue initial lines) := by
  rw [baseValue, List.filterMap_append]
  cases hreset : reset? raw <;> simp [baseValue, hreset]

theorem timesToggled_concat (w : Switch) (lines : List String) (raw : String) :
    timesToggled w (lines ++ [raw]) =
      if (reset? raw).isNone then timesToggled w lines + (toggles w raw).toNat else 0 := by
  rw [timesToggled, sinceReset, List.rtakeWhile_concat]
  split
  · rw [List.countP_append, List.countP_singleton]
    cases toggles w raw <;> rfl
  · rfl

/-- What one line does keeps the switches in step with the history. -/
theorem Settled.reply {r : Runtime} {initial s s' : Switches} {lines : List String} {raw : String}
    {answer : Reply} (hs : Settled initial lines s) (h : reply r s raw = .ok (answer, s')) :
    Settled initial (lines ++ [raw]) s' := by
  intro w
  have hw := hs w
  rw [reply_switch h w, baseValue_concat, timesToggled_concat]
  cases hreset : reset? raw with
  | some b => simp
  | none =>
    simp only [Option.getD_none, Option.isNone_none, if_true]
    cases toggles w raw with
    | false => simpa using hw
    | true =>
      simp only [Bool.xor_true, Bool.toNat_true, Nat.odd_add_one, decide_not]
      grind

/-! ## Formulas -/

section

variable {r : Runtime}

/-- The answer to a formula under the given switches: the text of the result, or the complaint. -/
def AnswersFormula (r : Runtime) (s : Switches) (line : String) (answer : Reply) : Prop :=
  answer.exit = false ∧
    ((answer.error = false ∧ desugar ⟨r, .ok s⟩ ⟨line, 1, none⟩ = .ok answer.text) ∨
      answer.error = true ∧ ∃ c, desugar ⟨r, .ok s⟩ ⟨line, 1, none⟩ = .error (.refused c) ∧
        answer.text = c.answer)

theorem answersFormula_of_reply {s s' : Switches} {raw : String} {answer : Reply}
    (hline : Text.trim raw ≠ "") (hcommand : (Text.trim raw).startsWith ":" = false)
    (h : reply r s raw = .ok (answer, s')) : AnswersFormula r s (Text.trim raw) answer := by
  rw [reply_of_formula r s hline hcommand, formulaReply] at h
  cases hresult : desugar ⟨r, .ok s⟩ ⟨Text.trim raw, 1, none⟩ with
  | ok text =>
    rw [hresult] at h
    cases h
    exact ⟨rfl, .inl ⟨rfl, hresult⟩⟩
  | error failure =>
    rw [hresult] at h
    cases failure with
    | refused c =>
      cases h
      exact ⟨rfl, .inr ⟨rfl, c, hresult, rfl⟩⟩
    | _ => cases h

/-- Whether a text gets an answer does not depend on the switches. -/
theorem isOk_answer_of_isOk {s : Switches} {text : String} (h : (answer ⟨r, .ok s⟩ text).isOk)
    (s' : Switches) : (answer ⟨r, .ok s'⟩ text).isOk := by
  cases hanswer : answer ⟨r, .ok s'⟩ text with
  | ok out => rfl
  | error failure =>
    have hsame : answer ⟨r, .ok s⟩ text = .error failure :=
      (answer_eq_error_iff r s text failure).2 ((answer_eq_error_iff r s' text failure).1 hanswer)
    rw [hsame] at h
    cases h

/-! ## Sessions -/

/-- The line is neither blank nor a command. -/
def IsFormulaLine (raw : String) : Prop :=
  Text.trim raw ≠ "" ∧ (Text.trim raw).startsWith ":" = false

instance : DecidablePred IsFormulaLine := fun raw =>
  inferInstanceAs (Decidable (Text.trim raw ≠ "" ∧ (Text.trim raw).startsWith ":" = false))

/-- The switches after the given answers. -/
def switchesAfter (initial : Switches) (answers : List (Reply × Switches)) : Switches :=
  (answers.getLast?.map Prod.snd).getD initial

/-- A line is answered unless it is a formula without an answer. -/
theorem exists_reply_eq_ok {raw : String} {s₀ : Switches}
    (h : IsFormulaLine raw → (answer ⟨r, .ok s₀⟩ raw).isOk) (s : Switches) :
    ∃ answer s', reply r s raw = .ok (answer, s') := by
  by_cases hempty : Text.trim raw = ""
  · refine ⟨⟨"", false, false⟩, s, ?_⟩
    unfold reply
    rw [hempty]
    rfl
  · cases hcommand : (Text.trim raw).startsWith ":" with
    | false =>
      have hanswer := isOk_answer_of_isOk (h ⟨hempty, hcommand⟩) s
      obtain ⟨answer, hreply, -⟩ := exists_reply hempty hcommand hanswer
      exact ⟨answer, s, hreply⟩
    | true =>
      refine ⟨((Command.parse (Text.trim raw)).run s).1,
        ((Command.parse (Text.trim raw)).run s).2, ?_⟩
      unfold reply
      dsimp only
      rw [if_neg (by simpa using hempty), if_pos hcommand]

/-- The switches are told by the history all along a session, whatever lines came before it. -/
theorem exists_replies {initial s : Switches} {before lines : List String}
    (hs : Settled initial before s)
    (hok : ∀ raw ∈ lines, ∀ s, ∃ answer s', reply r s raw = .ok (answer, s')) :
    ∃ answers, replies r s lines = .ok answers ∧ answers.length = lines.length ∧
      ∀ done raw rest, lines = done ++ raw :: rest →
        ∃ answer s₁ s₂, answers[done.length]? = some (answer, s₂) ∧
          Settled initial (before ++ done) s₁ ∧ reply r s₁ raw = .ok (answer, s₂) := by
  induction lines generalizing before s with
  | nil =>
    refine ⟨[], rfl, rfl, ?_⟩
    intro done raw rest hlines
    simp at hlines
  | cons raw lines ih =>
    obtain ⟨answer, s', hreply⟩ := hok raw List.mem_cons_self s
    obtain ⟨answers, hanswers, hlength, hall⟩ :=
      ih (hs.reply hreply) fun line hline => hok line (List.mem_cons_of_mem raw hline)
    refine ⟨(answer, s') :: answers, ?_, by simp [hlength], ?_⟩
    · rw [replies, hreply]
      change (replies r s' lines).bind _ = _
      rw [hanswers]
      rfl
    · intro done line rest hlines
      cases done with
      | nil =>
        cases hlines
        exact ⟨answer, s, s', rfl, by simpa using hs, hreply⟩
      | cons first done =>
        cases hlines
        obtain ⟨answer', s₁, s₂, hget, hs₁, hreply'⟩ := hall done line rest rfl
        exact ⟨answer', s₁, s₂, hget, by simpa using hs₁, hreply'⟩

end

/-- **The lines of a session tell its switches.** If no formula of the session is one without an
answer, every line is answered. After any of the lines, a switch is on if and only if its base
value, which is that of the latest command to turn all switches on or off, or the first one, differs
from the parity of the number of commands since then that toggle it by name. The word of a command
is the line without its blanks up to the first space, and the name is the rest without blanks. Blank
lines, formulas, other commands and names that no switch has change nothing, and a formula is
answered under the switches that the lines before it tell. This is so whatever the limits on
nesting. -/
theorem session_tells_switches (r : Runtime) (initial : Switches) (lines : List String)
    (hlines : ∀ raw ∈ lines, IsFormulaLine raw → (answer ⟨r, .ok initial⟩ raw).isOk) :
    ∃ answers, replies r initial lines = .ok answers ∧ answers.length = lines.length ∧
      Settled initial lines (switchesAfter initial answers) ∧
      ∀ before raw after, lines = before ++ raw :: after →
        ∃ answer s s', answers[before.length]? = some (answer, s') ∧ Settled initial before s ∧
          Settled initial (before ++ [raw]) s' ∧ (KeepsSwitches raw → s' = s) ∧
          (IsFormulaLine raw → AnswersFormula r s (Text.trim raw) answer) := by
  have hok : ∀ raw ∈ lines, ∀ s, ∃ answer s', reply r s raw = .ok (answer, s') :=
    fun raw hraw => exists_reply_eq_ok (hlines raw hraw)
  obtain ⟨answers, hanswers, hlength, hall⟩ := exists_replies (settled_nil initial) hok
  refine ⟨answers, hanswers, hlength, ?_, ?_⟩
  · rcases List.eq_nil_or_concat lines with rfl | ⟨before, raw, rfl⟩
    · obtain rfl := List.length_eq_zero_iff.1 hlength
      exact settled_nil initial
    · obtain ⟨answer, s₁, s₂, hget, hs₁, hreply⟩ := hall before raw [] (List.concat_eq_append)
      have hlast : answers.getLast? = some (answer, s₂) := by
        rw [List.getLast?_eq_getElem?, hlength, List.length_concat, Nat.add_sub_cancel, hget]
      rw [switchesAfter, hlast, List.concat_eq_append]
      exact hs₁.reply hreply
  · intro before raw after heq
    obtain ⟨answer, s₁, s₂, hget, hs₁, hreply⟩ := hall before raw after heq
    exact ⟨answer, s₁, s₂, hget, hs₁, hs₁.reply hreply, fun hkeeps => hkeeps.reply_eq hreply,
      fun hformula => answersFormula_of_reply hformula.1 hformula.2 hreply⟩

/-- A session with all switches turned off, one toggled, a tab in the place of a space, a name that
no switch has, and two formulas. -/
def toggledSession : List String :=
  [":none", "x ⊆", " :toggle   subset ", ":toggle\tomega", ":toggle power", "x ⊆ y"]

/-- One switch is on in the end, and the last formula is answered under it. -/
theorem session_tells_switches_toggled :
    (∀ raw ∈ toggledSession, IsFormulaLine raw →
      (answer ⟨⟨40, 40, true⟩, .ok .allOn⟩ raw).isOk) ∧
    ∃ answers, replies ⟨40, 40, true⟩ .allOn toggledSession = .ok answers ∧
      switchesAfter .allOn answers .subset = true ∧ switchesAfter .allOn answers .omega = false ∧
      ∃ answer s s', answers[5]? = some (answer, s') ∧ s' = s ∧ s .subset = true ∧
        AnswersFormula ⟨40, 40, true⟩ s "x ⊆ y" answer := by
  have hlines : ∀ raw ∈ toggledSession, IsFormulaLine raw →
      (answer ⟨⟨40, 40, true⟩, .ok .allOn⟩ raw).isOk := by decide +kernel
  obtain ⟨answers, hanswers, -, hafter, hall⟩ :=
    session_tells_switches ⟨40, 40, true⟩ .allOn toggledSession hlines
  obtain ⟨answer, s, s', hget, hs, -, hkeeps, hformula⟩ :=
    hall (toggledSession.take 5) "x ⊆ y" [] rfl
  have htrim : Text.trim "x ⊆ y" = "x ⊆ y" := by decide +kernel
  refine ⟨hlines, answers, hanswers, ?_, ?_, answer, s, s', hget, ?_, ?_, ?_⟩
  · rw [hafter]
    decide +kernel
  · rw [← Bool.not_eq_true, hafter]
    decide +kernel
  · apply hkeeps
    intro word argument htyped
    have hnone : typed? "x ⊆ y" = none := by decide +kernel
    rw [hnone] at htyped
    cases htyped
  · rw [hs]
    decide +kernel
  · rw [← htrim]
    exact hformula (by decide +kernel)

end SetFormula.Shell
