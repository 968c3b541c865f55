import SetFormula.Desugar
import SetFormula.Proofs.Printed

/-!
# Layout does not matter

Two texts that differ in their white space only, on whatever lines of whatever files, are desugared
alike: both give the same tree, or both fail for the same reason. What may differ is the place that
is reported.

* The tokens of two such texts agree but for their places (`readTokens_alike`), and so the same
  items are looked up (`itemsOf_congr`) and parsed.
* Places come in only when a failure is located; `Failure.unplaced` forgets them, and `Alike`
  compares two outcomes without them. It is kept by sequencing (`Alike.bind`).
-/

namespace SetFormula

/-! ## Tokens without their places -/

/-- The class and the text of a token. -/
def Token.bare (t : Token) : TokenClass × String := (t.kind, t.text)

theorem map_bare_placeLexemes (src : Source) (columns : List Nat) (ls : List Lexeme) :
    (placeLexemes src columns ls).map Token.bare =
      ls.map fun l => (l.kind, String.ofList l.chars) := by
  induction ls generalizing columns with
  | nil => rfl
  | cons l ls ih => rw [placeLexemes, List.map_cons, ih, List.map_cons, Token.bare]

theorem Item.ofToken_congr {t t' : Token} (h : t.bare = t'.bare) :
    Item.ofToken t = Item.ofToken t' := by
  obtain ⟨kind, text, place⟩ := t
  obtain ⟨kind', text', place'⟩ := t'
  obtain ⟨rfl, rfl⟩ := Prod.mk.inj h
  rfl

/-- What is looked up does not depend on places. -/
theorem itemsOf_congr {tokens tokens' : List Token}
    (h : tokens.map Token.bare = tokens'.map Token.bare) : itemsOf tokens = itemsOf tokens' := by
  induction tokens generalizing tokens' with
  | nil =>
    have hnil : tokens' = [] := List.map_eq_nil_iff.1 h.symm
    rw [hnil]
  | cons t tokens ih =>
    cases tokens' with
    | nil => cases h
    | cons t' tokens' =>
      obtain ⟨ht, htokens⟩ := List.cons.inj h
      have hlength : tokens.length = tokens'.length := by
        simpa using congrArg List.length htokens
      rw [itemsOf, itemsOf, Item.ofToken_congr ht, ih htokens, hlength]

theorem parse_congr {tokens tokens' : List Token}
    (h : tokens.map Token.bare = tokens'.map Token.bare) (limit : Nat) :
    parse limit tokens = parse limit tokens' := by
  rw [parse, parse, itemsOf_congr h]

/-! ## Outcomes without their places -/

/-- A failure without the place that it is about. -/
def Failure.unplaced : Failure → Failure
  | refused c => refused ⟨c.refusal, none⟩
  | badToken fault => badToken fault
  | misstep m => misstep m
  | badSettings fault => badSettings fault

/-- Two outcomes are the same but for places. -/
def Alike {α : Type} (r r' : Except Failure α) : Prop :=
  r.mapError Failure.unplaced = r'.mapError Failure.unplaced

theorem alike_refl {α : Type} (r : Except Failure α) : Alike r r := rfl

theorem alike_error {α : Type} {f f' : Failure} (h : f.unplaced = f'.unplaced) :
    Alike (.error f : Except Failure α) (.error f') := congrArg Except.error h

/-- Outcomes that are the same but for places are one result or two failures. -/
theorem Alike.cases {α : Type} {r r' : Except Failure α} (h : Alike r r') :
    (∃ a, r = .ok a ∧ r' = .ok a) ∨
      ∃ f f', r = .error f ∧ r' = .error f' ∧ f.unplaced = f'.unplaced := by
  cases r with
  | ok a =>
    cases r' with
    | ok a' => exact .inl ⟨a, rfl, h.symm⟩
    | error f' => cases h
  | error f =>
    cases r' with
    | ok a' => cases h
    | error f' => exact .inr ⟨f, f', rfl, rfl, Except.error.inj h⟩

theorem Alike.bind {α β : Type} {r r' : Except Failure α} {g g' : α → Except Failure β}
    (h : Alike r r') (hg : ∀ a, Alike (g a) (g' a)) : Alike (r >>= g) (r' >>= g') := by
  rcases h.cases with ⟨a, rfl, rfl⟩ | ⟨f, f', rfl, rfl, hf⟩
  · exact hg a
  · exact alike_error hf

/-- Failures that are the same but for places are refusals for one reason, or one fault. -/
theorem Failure.unplaced_eq {f f' : Failure} (h : f.unplaced = f'.unplaced) :
    (∃ refusal place place', f = refused ⟨refusal, place⟩ ∧ f' = refused ⟨refusal, place'⟩) ∨
      f = f' := by
  cases f with
  | refused c =>
    cases f' with
    | refused c' =>
      obtain ⟨refusal, place⟩ := c
      obtain ⟨refusal', place'⟩ := c'
      simp only [unplaced, refused.injEq, Complaint.mk.injEq, and_true] at h
      exact .inl ⟨refusal, place, place', rfl, by rw [h]⟩
    | _ => cases h
  | _ =>
    cases f' with
    | refused c' => cases h
    | _ => exact .inr h

/-! ## Two runs -/

/-- Two texts with the same characters but for white space have the same tokens but for places, or
the same character of both starts no token. -/
theorem readTokens_alike {src src' : Source} (h : ink src.text = ink src'.text) :
    (∃ tokens tokens', readTokens src = .ok tokens ∧ readTokens src' = .ok tokens' ∧
      tokens.map Token.bare = tokens'.map Token.bare) ∨
    ∃ c place place', readTokens src = .error (.refused ⟨.stray c, place⟩) ∧
      readTokens src' = .error (.refused ⟨.stray c, place'⟩) := by
  have hcut : cut 0 (src.inked.map (·.1)) = cut 0 (src'.inked.map (·.1)) := by
    rw [Source.map_inked, Source.map_inked, h]
  unfold readTokens lex lexInked
  rw [hcut]
  cases cut 0 (src'.inked.map (·.1)) with
  | ok ls =>
    refine .inl ⟨_, _, rfl, rfl, ?_⟩
    rw [map_bare_placeLexemes, map_bare_placeLexemes]
  | error e => exact .inr ⟨e.char, _, _, rfl, rfl⟩

theorem locate_unplaced (tokens tokens' : List Token) (f : ParseFailure) :
    (f.locate tokens).unplaced = (f.locate tokens').unplaced := by
  cases f <;> rfl

theorem readTree_alike {tokens tokens' : List Token}
    (h : tokens.map Token.bare = tokens'.map Token.bare) (limit : Nat) :
    Alike (readTree limit tokens) (readTree limit tokens') := by
  unfold readTree
  rw [parse_congr h limit]
  cases parse limit tokens' with
  | ok e => exact alike_refl _
  | error f => exact alike_error (locate_unplaced tokens tokens' f)

theorem eliminateFrom_alike (setup : Setup) (tokens tokens' : List Token) (e : Expr) :
    Alike (eliminateFrom setup tokens e) (eliminateFrom setup tokens' e) := by
  unfold eliminateFrom
  split
  · cases setup.switches with
    | error fault => exact alike_refl _
    | ok s =>
      dsimp only
      cases eliminateTelling setup.toRuntime s e with
      | some e' => exact alike_refl _
      | none => exact alike_error rfl
  · exact alike_error rfl

theorem desugarTree_alike (setup : Setup) {src src' : Source} (h : ink src.text = ink src'.text) :
    Alike (desugarTree setup src) (desugarTree setup src') := by
  unfold desugarTree
  rcases readTokens_alike h with
    ⟨tokens, tokens', htokens, htokens', hbare⟩ | ⟨c, place, place', hstray, hstray'⟩
  · rw [htokens, htokens']
    exact (readTree_alike hbare setup.limit).bind fun e =>
      eliminateFrom_alike setup tokens tokens' e
  · rw [hstray, hstray']
    exact alike_error rfl

/-- **Layout does not matter.** Take two texts that are the same but for their white space, on any
lines of any files. Whatever the switches and the limits, both are desugared to the same tree, or
both are refused for the same reason, at places of their own, or both fail by the same fault. -/
theorem desugarTree_ignores_layout (setup : Setup) (src src' : Source)
    (h : ink src.text = ink src'.text) :
    (∃ e, desugarTree setup src = .ok e ∧ desugarTree setup src' = .ok e) ∨
    (∃ refusal place place', desugarTree setup src = .error (.refused ⟨refusal, place⟩) ∧
      desugarTree setup src' = .error (.refused ⟨refusal, place'⟩)) ∨
    ∃ f, desugarTree setup src = .error f ∧ desugarTree setup src' = .error f := by
  rcases (desugarTree_alike setup h).cases with hsame | ⟨f, f', hf, hf', hunplaced⟩
  · exact .inl hsame
  · rcases Failure.unplaced_eq hunplaced with ⟨refusal, place, place', rfl, rfl⟩ | rfl
    · exact .inr (.inl ⟨refusal, place, place', hf, hf'⟩)
    · exact .inr (.inr ⟨f, hf, hf'⟩)

/-- A symbol, a numbered variable and a spelling in letters are cut in two by white space, and both
texts are desugared alike; a text that is refused is refused for the same reason elsewhere. -/
theorem desugarTree_ignores_layout_spread :
    (ink "v1 0!=Po\tt(x)" = ink "v10 != Pot(x)" ∧
      ∃ e, desugarTree ⟨⟨40, 40, true⟩, .ok .allOn⟩ ⟨"v1 0!=Po\tt(x)", 1, none⟩ = .ok e ∧
        desugarTree ⟨⟨40, 40, true⟩, .ok .allOn⟩ ⟨"v10 != Pot(x)", 7, some "lines"⟩ = .ok e) ∧
    ink "x ∪ ∈ y" = ink "x∪∈y" ∧
      desugarTree ⟨⟨40, 40, true⟩, .ok .allOn⟩ ⟨"x ∪ ∈ y", 1, none⟩ =
        .error (.refused ⟨.problem (.missingLeft (.relation "∈")), some ⟨1, 5, none⟩⟩) ∧
      ∃ place, desugarTree ⟨⟨40, 40, true⟩, .ok .allOn⟩ ⟨"x∪∈y", 7, some "lines"⟩ =
        .error (.refused ⟨.problem (.missingLeft (.relation "∈")), place⟩) := by
  have hspread : ink "v1 0!=Po\tt(x)" = ink "v10 != Pot(x)" := by decide
  have hrefused : ink "x ∪ ∈ y" = ink "x∪∈y" := by decide
  have htree : (desugarTree ⟨⟨40, 40, true⟩, .ok .allOn⟩ ⟨"v1 0!=Po\tt(x)", 1, none⟩).isOk := by
    decide +kernel
  have hfailure : desugarTree ⟨⟨40, 40, true⟩, .ok .allOn⟩ ⟨"x ∪ ∈ y", 1, none⟩ =
      .error (.refused ⟨.problem (.missingLeft (.relation "∈")), some ⟨1, 5, none⟩⟩) := by
    decide +kernel
  refine ⟨⟨hspread, ?_⟩, hrefused, hfailure, ?_⟩
  · rcases desugarTree_ignores_layout ⟨⟨40, 40, true⟩, .ok .allOn⟩ ⟨_, 1, none⟩ ⟨_, 7, some "lines"⟩
      hspread with hsame | ⟨refusal, place, place', hfirst, -⟩ | ⟨f, hfirst, -⟩
    · exact hsame
    · rw [hfirst] at htree
      cases htree
    · rw [hfirst] at htree
      cases htree
  · rcases desugarTree_ignores_layout ⟨⟨40, 40, true⟩, .ok .allOn⟩ ⟨_, 1, none⟩ ⟨_, 7, some "lines"⟩
      hrefused with ⟨e, hfirst, -⟩ | ⟨refusal, place, place', hfirst, hsecond⟩ |
        ⟨f, hfirst, hsecond⟩
    · cases hfailure.symm.trans hfirst
    · cases hfailure.symm.trans hfirst
      exact ⟨place', hsecond⟩
    · cases hfailure.symm.trans hfirst
      exact ⟨_, hsecond⟩

end SetFormula
