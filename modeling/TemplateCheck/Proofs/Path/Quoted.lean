import TemplateCheck.Proofs.Path.Token

/-!
This module contains that quoting a text is undone by reading it, whatever stands behind it, and
what else the reader of quoted texts accepts.
-/

namespace TemplateCheck

namespace Path

open Text

section

variable {q : Char} {s text rest : List Char}

theorem ne_backslash_of_quote (hq : q = '\'' ∨ q = '"') : q ≠ '\\' := by
  rcases hq with rfl | rfl
  . decide
  . decide

theorem readString_cons_eq_ok_iff (hq : q = '\'' ∨ q = '"') :
    readString (q :: s) = .ok (text, rest) ↔ readQuoted q s = .ok (text, rest) := by
  rw [readString, if_pos hq]
  split
  . next h => simp [h]
  . next h => simp [h]
  . next h => simp [h]

theorem readString_of_missingQuote (hq : q = '\'' ∨ q = '"')
    (h : readQuoted q s = .error .missingQuote) :
    readString (q :: s) = .error (.ended s!"closing quote {q}") := by
  rw [readString, if_pos hq, h]

theorem readString_of_missingEscaped (hq : q = '\'' ∨ q = '"')
    (h : readQuoted q s = .error .missingEscaped) :
    readString (q :: s) = .error (.ended "escaped character") := by
  rw [readString, if_pos hq, h]

theorem readString_cons_cases (hq : q = '\'' ∨ q = '"') (s : List Char) :
    (∃ text rest, readString (q :: s) = .ok (text, rest))
      ∨ (readString (q :: s) = .error (.ended s!"closing quote {q}") ∧ ∃ text, Spells q s text)
      ∨ (readString (q :: s) = .error (.ended "escaped character")
        ∧ ∃ u text, s = u ++ ['\\'] ∧ Spells q u text) := by
  cases h : readQuoted q s with
  | ok r => exact .inl ⟨r.1, r.2, (readString_cons_eq_ok_iff hq).mpr h⟩
  | error e =>
    cases e with
    | missingQuote =>
      exact .inr (.inl ⟨readString_of_missingQuote hq h, exists_spells_of_missingQuote h⟩)
    | missingEscaped =>
      exact .inr (.inr ⟨readString_of_missingEscaped hq h, exists_spells_of_missingEscaped h⟩)

end

/--
For either quote, reading undoes the quoting of every text and stops right behind it, so different
texts are quoted differently and no quoted text is closed early. Read is just what consists of the
quotes and, for every character of the text, the character or a backslash and the character; and
anything else ends too early.
-/
theorem readString_quote {q : Char} (hq : q = '\'' ∨ q = '"') :
    (∀ s rest, readString (q :: (escape q s ++ q :: rest)) = .ok (s, rest))
      ∧ Function.Injective (escape q)
      ∧ (∀ s u, u <+: escape q s → ∃ expected, readString (q :: u) = .error (.ended expected))
      ∧ (∀ s text rest, readString (q :: s) = .ok (text, rest)
          ↔ ∃ u, s = u ++ q :: rest ∧ Spells q u text)
      ∧ (∀ s size, (¬ ∃ text rest u, s = u ++ q :: rest ∧ Spells q u text) →
          ((readString (q :: s)).mapError (Fault.toError size)
              = .error (.unexpectedEnd s!"closing quote {q}") ∧ ∃ text, Spells q s text)
            ∨ ((readString (q :: s)).mapError (Fault.toError size)
              = .error (.unexpectedEnd "escaped character")
              ∧ ∃ u text, s = u ++ ['\\'] ∧ Spells q u text)) := by
  have hb := ne_backslash_of_quote hq
  have hok : ∀ s text rest, readString (q :: s) = .ok (text, rest)
      ↔ ∃ u, s = u ++ q :: rest ∧ Spells q u text := by
    intro s text rest
    rw [readString_cons_eq_ok_iff hq, readQuoted_eq_ok_iff hb]
  refine ⟨?_, escape_injective hb, ?_, hok, ?_⟩
  . intro s rest
    exact (readString_cons_eq_ok_iff hq).mpr (readQuoted_escape hb s rest)
  . intro s u hu
    rcases readString_cons_cases hq u with ⟨text, rest, h⟩ | ⟨h, -⟩ | ⟨h, -⟩
    . rw [readString_cons_eq_ok_iff hq] at h
      exact absurd h (readQuoted_ne_ok_of_prefix_escape hb hu _)
    . exact ⟨_, h⟩
    . exact ⟨_, h⟩
  . intro s size hnone
    rcases readString_cons_cases hq s with ⟨text, rest, h⟩ | ⟨h, hs⟩ | ⟨h, hs⟩
    . exact absurd ⟨text, rest, (hok s text rest).mp h⟩ hnone
    . exact .inl ⟨by rw [h]; rfl, hs⟩
    . exact .inr ⟨by rw [h]; rfl, hs⟩

theorem readString_quote_backslash_last :
    ('\'' = '\'' ∨ '\'' = '"')
      ∧ readString "'é\\'\\\\' ]/*".toList = .ok ("é'\\".toList, " ]/*".toList)
      ∧ "é\\'\\".toList <+: escape '\'' "é'\\".toList
      ∧ (∃ expected, readString "'é\\'\\".toList = .error (.ended expected))
      ∧ (¬ ∃ text rest u, "\\'".toList = u ++ '\'' :: rest ∧ Spells '\'' u text)
      ∧ ∃ expected, (readString "'\\'".toList).mapError (Fault.toError 3)
        = .error (.unexpectedEnd expected) := by
  have hquote : '\'' = '\'' ∨ '\'' = '"' := .inl rfl
  obtain ⟨hread, -, hearly, hok, hends⟩ := readString_quote hquote
  have hprefix : "é\\'\\".toList <+: escape '\'' "é'\\".toList := ⟨['\\'], rfl⟩
  have hnone : ¬ ∃ text rest u, "\\'".toList = u ++ '\'' :: rest ∧ Spells '\'' u text := by
    intro ⟨text, rest, h⟩
    exact nomatch (hok "\\'".toList text rest).mpr h
  refine ⟨hquote, hread "é'\\".toList " ]/*".toList, hprefix, hearly _ _ hprefix, hnone, ?_⟩
  rcases hends "\\'".toList 3 hnone with ⟨h, -⟩ | ⟨h, -⟩
  . exact ⟨_, h⟩
  . exact ⟨_, h⟩

end Path

end TemplateCheck
