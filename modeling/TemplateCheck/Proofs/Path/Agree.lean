import TemplateCheck.Proofs.Decimal.Literal
import TemplateCheck.Proofs.Path.Match

/-!
This module contains that agreement of texts is an equivalence: the text of a template is a number
or not by the same rule as the text of a scalar, and equality of numbers is an equivalence on both.
-/

namespace TemplateCheck

namespace Data

theorem agrees_string_iff {a b : String} :
    (string b).Agrees a
      ↔ (Path.looksLikeNumber a.toList = true ∧ Path.looksLikeNumber b.toList = true
          ∧ NumbersEqual a b)
        ∨ (Path.looksLikeNumber a.toList = false ∧ a = b) := by
  constructor
  . intro ⟨b', hb, h⟩
    cases hb
    exact h
  . intro h
    exact ⟨b, rfl, h⟩

theorem agrees_of_text?_eq {d : Data} {s : String} (h : d.text? = some s) : d.Agrees s := by
  refine ⟨s, h, ?_⟩
  cases hs : Path.looksLikeNumber s.toList with
  | false => exact .inr ⟨rfl, rfl⟩
  | true =>
    obtain ⟨x, hx, heq⟩ := Path.exists_read?_of_looksLikeNumber hs
    exact .inl ⟨rfl, rfl, x, x, hx, hx, heq⟩

theorem NumbersEqual.symm {a b : String} (h : NumbersEqual a b) : NumbersEqual b a := by
  obtain ⟨x, y, hx, hy, heq⟩ := h
  rw [Binary64.equal_comm] at heq
  exact ⟨y, x, hy, hx, heq⟩

theorem NumbersEqual.trans {a b c : String} (hab : NumbersEqual a b) (hbc : NumbersEqual b c) :
    NumbersEqual a c := by
  obtain ⟨x, y, hx, hy, hxy⟩ := hab
  obtain ⟨y', z, hy', hz, hyz⟩ := hbc
  rw [hy, Option.some.injEq] at hy'
  rw [← hy'] at hyz
  exact ⟨x, z, hx, hz, Binary64.equal_trans hxy hyz⟩

theorem Agrees.symm {a b : String} (h : (string b).Agrees a) : (string a).Agrees b := by
  rw [agrees_string_iff] at h ⊢
  rcases h with ⟨ha, hb, hequal⟩ | ⟨ha, hab⟩
  . exact .inl ⟨hb, ha, hequal.symm⟩
  . rw [← hab]
    exact .inr ⟨ha, rfl⟩

theorem Agrees.trans {a b c : String} (hab : (string b).Agrees a) (hbc : (string c).Agrees b) :
    (string c).Agrees a := by
  rw [agrees_string_iff] at hab hbc ⊢
  rcases hab with ⟨ha, hb, hequal⟩ | ⟨ha, hab⟩
  . rcases hbc with ⟨_, hc, hequal'⟩ | ⟨hb', _⟩
    . exact .inl ⟨ha, hc, hequal.trans hequal'⟩
    . rw [hb] at hb'
      contradiction
  . rw [hab]
    exact hbc

theorem agrees_string_iff_of_infinite {a b : String} {s t : Bool}
    (ha : Binary64.read? a.toList = some (.infinite s))
    (hb : Binary64.read? b.toList = some (.infinite t)) :
    (string b).Agrees a
      ↔ a = b ∨ (s = t ∧ (∃ n, Numeral.read? a.toList = some n)
          ∧ ∃ n, Numeral.read? b.toList = some n) := by
  have hequal : NumbersEqual a b ↔ s = t := by
    unfold NumbersEqual
    simp [ha, hb, Binary64.equal]
  rw [← Path.looksLikeNumber_iff, ← Path.looksLikeNumber_iff]
  constructor
  . intro h
    rcases agrees_string_iff.mp h with ⟨hna, hnb, hst⟩ | ⟨_, hab⟩
    . exact .inr ⟨hequal.mp hst, hna, hnb⟩
    . exact .inl hab
  . intro h
    rcases h with hab | ⟨hst, hna, hnb⟩
    . subst hab
      exact agrees_of_text?_eq rfl
    . exact agrees_string_iff.mpr (.inl ⟨hna, hnb, hequal.mpr hst⟩)

end Data

end TemplateCheck
