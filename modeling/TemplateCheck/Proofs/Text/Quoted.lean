import TemplateCheck.Outcome
import TemplateCheck.Text.Quoted

/-!
This module contains what may stand between two quotes for a text, and that reading up to the
closing quote takes just that.
-/

namespace TemplateCheck

namespace Text

variable {quote : Char}

theorem readQuoted_escaped (hq : quote ≠ '\\') (c : Char) (s : List Char) :
    readQuoted quote ('\\' :: c :: s)
      = (readQuoted quote s).map fun (text, rest) => (c :: text, rest) := by
  rw [readQuoted.eq_def]
  simp [Ne.symm hq]

theorem readQuoted_plain {c : Char} (hc : c ≠ quote) (hb : c ≠ '\\') (s : List Char) :
    readQuoted quote (c :: s)
      = (readQuoted quote s).map fun (text, rest) => (c :: text, rest) := by
  rw [readQuoted.eq_def]
  simp [hc, hb]

/--
What stands between two quotes for a text: a backslash and a character for the character, or the
character alone if it is no quote and no backslash.
-/
inductive Spells (quote : Char) : List Char → List Char → Prop where
  | nil : Spells quote [] []
  | plain {c : Char} {u text : List Char} (hc : c ≠ quote) (hb : c ≠ '\\')
      (h : Spells quote u text) : Spells quote (c :: u) (c :: text)
  | escaped {c : Char} {u text : List Char} (h : Spells quote u text) :
      Spells quote ('\\' :: c :: u) (c :: text)

theorem Spells.append {u v text text' : List Char} (hu : Spells quote u text)
    (hv : Spells quote v text') : Spells quote (u ++ v) (text ++ text') := by
  induction hu with
  | nil => exact hv
  | plain hc hb _ ih => exact .plain hc hb ih
  | escaped _ ih => exact .escaped ih

theorem spells_escape (s : List Char) : Spells quote (escape quote s) s := by
  induction s with
  | nil => exact .nil
  | cons c s ih =>
    unfold escape
    split
    . exact .escaped ih
    . next hc =>
      rw [not_or] at hc
      exact .plain hc.1 hc.2 ih

theorem readQuoted_of_spells (hq : quote ≠ '\\') {u text : List Char} (h : Spells quote u text)
    (rest : List Char) : readQuoted quote (u ++ quote :: rest) = .ok (text, rest) := by
  induction h with
  | nil =>
    rw [List.nil_append, readQuoted.eq_def]
    simp
  | plain hc hb _ ih =>
    rw [List.cons_append, readQuoted_plain hc hb, ih]
    rfl
  | escaped _ ih =>
    rw [List.cons_append, List.cons_append, readQuoted_escaped hq, ih]
    rfl

theorem exists_spells_of_readQuoted {s text rest : List Char}
    (h : readQuoted quote s = .ok (text, rest)) :
    ∃ u, s = u ++ quote :: rest ∧ Spells quote u text := by
  fun_induction readQuoted quote s generalizing text with
  | case1 => contradiction
  | case2 s =>
    cases h
    exact ⟨[], rfl, .nil⟩
  | case3 => contradiction
  | case4 c s _ ih =>
    obtain ⟨⟨t, r⟩, hread, heq⟩ := Outcome.map_eq_ok_iff.mp h
    cases heq
    obtain ⟨u, hu, hspells⟩ := ih hread
    exact ⟨'\\' :: c :: u, by rw [hu]; rfl, .escaped hspells⟩
  | case5 c s hc hb ih =>
    obtain ⟨⟨t, r⟩, hread, heq⟩ := Outcome.map_eq_ok_iff.mp h
    cases heq
    obtain ⟨u, hu, hspells⟩ := ih hread
    exact ⟨c :: u, by rw [hu]; rfl, .plain hc hb hspells⟩

theorem readQuoted_eq_ok_iff (hq : quote ≠ '\\') {s text rest : List Char} :
    readQuoted quote s = .ok (text, rest) ↔ ∃ u, s = u ++ quote :: rest ∧ Spells quote u text := by
  constructor
  . exact exists_spells_of_readQuoted
  . rintro ⟨u, rfl, h⟩
    exact readQuoted_of_spells hq h rest

theorem exists_spells_of_missingQuote {s : List Char}
    (h : readQuoted quote s = .error .missingQuote) : ∃ text, Spells quote s text := by
  fun_induction readQuoted quote s with
  | case1 => exact ⟨[], .nil⟩
  | case2 => contradiction
  | case3 => cases h
  | case4 c s _ ih =>
    obtain ⟨text, hspells⟩ := ih (Outcome.map_eq_error_iff.mp h)
    exact ⟨c :: text, .escaped hspells⟩
  | case5 c s hc hb ih =>
    obtain ⟨text, hspells⟩ := ih (Outcome.map_eq_error_iff.mp h)
    exact ⟨c :: text, .plain hc hb hspells⟩

theorem exists_spells_of_missingEscaped {s : List Char}
    (h : readQuoted quote s = .error .missingEscaped) :
    ∃ u text, s = u ++ ['\\'] ∧ Spells quote u text := by
  fun_induction readQuoted quote s with
  | case1 => cases h
  | case2 => contradiction
  | case3 => exact ⟨[], [], rfl, .nil⟩
  | case4 c s _ ih =>
    obtain ⟨u, text, rfl, hspells⟩ := ih (Outcome.map_eq_error_iff.mp h)
    exact ⟨'\\' :: c :: u, c :: text, rfl, .escaped hspells⟩
  | case5 c s hc hb ih =>
    obtain ⟨u, text, rfl, hspells⟩ := ih (Outcome.map_eq_error_iff.mp h)
    exact ⟨c :: u, c :: text, rfl, .plain hc hb hspells⟩

theorem exists_spells_of_readQuoted_eq_error {s : List Char} {e : Unclosed}
    (h : readQuoted quote s = .error e) : ∃ more text, Spells quote (s ++ more) text := by
  cases e with
  | missingQuote =>
    obtain ⟨text, hspells⟩ := exists_spells_of_missingQuote h
    exact ⟨[], text, by rwa [List.append_nil]⟩
  | missingEscaped =>
    obtain ⟨u, text, rfl, hspells⟩ := exists_spells_of_missingEscaped h
    refine ⟨[quote], text ++ [quote], ?_⟩
    rw [List.append_assoc]
    exact hspells.append (.escaped .nil)

theorem readQuoted_escape (hq : quote ≠ '\\') (s rest : List Char) :
    readQuoted quote (escape quote s ++ quote :: rest) = .ok (s, rest) :=
  readQuoted_of_spells hq (spells_escape s) rest

theorem escape_injective (hq : quote ≠ '\\') : Function.Injective (escape quote) := by
  intro s t h
  have hs := readQuoted_escape hq s []
  rw [h, readQuoted_escape hq t []] at hs
  cases hs
  rfl

theorem readQuoted_ne_ok_of_prefix_escape (hq : quote ≠ '\\') {s u : List Char}
    (hu : u <+: escape quote s) (r : List Char × List Char) : readQuoted quote u ≠ .ok r := by
  intro h
  obtain ⟨more, hmore⟩ := hu
  obtain ⟨v, rfl, hv⟩ := exists_spells_of_readQuoted h
  have hearly := readQuoted_of_spells hq hv (r.2 ++ (more ++ [quote]))
  have hlate := readQuoted_escape hq s []
  rw [← hmore] at hlate
  simp only [List.append_assoc, List.cons_append] at hearly hlate
  rw [hearly] at hlate
  simp at hlate

end Text

end TemplateCheck
