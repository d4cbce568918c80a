import TemplateCheck.Proofs.Path.Token

/-!
This module contains that the texts that read as numbers are just the decimal numerals, without the
words for values that are not finite, and that equality as numbers is an equivalence on them: none of
them reads as the value that is no number, the only one that differs from itself.
-/

namespace TemplateCheck

namespace Path

theorem toLower_of_isDigit {c : Char} (hc : c.isDigit = true) : c.toLower = c := by
  unfold Char.isDigit at hc
  rw [Bool.and_eq_true, decide_eq_true_eq, decide_eq_true_eq] at hc
  unfold Char.toLower
  rw [dif_neg]
  intro h
  have hle := UInt32.le_iff_toNat_le.mp hc.2
  have hge := UInt32.le_iff_toNat_le.mp h.1
  simp at hle hge
  omega

theorem toLower_ne_n {c : Char} (hc : isNumeralChar c = true) : c.toLower ≠ 'n' := by
  unfold isNumeralChar at hc
  simp only [Bool.or_eq_true, beq_iff_eq] at hc
  rcases hc with ((((hc | hc) | hc) | hc) | hc) | hc
  . rw [toLower_of_isDigit hc]
    intro h
    rw [h] at hc
    contradiction
  all_goals
    subst hc
    decide

theorem ofWord?_eq_none {s : List Char} (hs : s.all isNumeralChar = true) :
    Binary64.ofWord? s = none := by
  have hne : ∀ word : String, 'n' ∈ word.toList →
      (String.ofList (s.map Char.toLower) == word) = false := by
    intro word hword
    rw [beq_eq_false_iff_ne]
    intro heq
    rw [← heq, String.toList_ofList, List.mem_map] at hword
    obtain ⟨c, hc, hlower⟩ := hword
    exact toLower_ne_n (List.all_eq_true.mp hs c hc) hlower
  unfold Binary64.ofWord?
  dsimp only
  rw [hne "inf" (by decide), hne "infinity" (by decide), hne "nan" (by decide)]
  rfl

theorem all_isNumeralChar_takeSign (s : List Char) :
    (Numeral.takeSign s).2.all isNumeralChar = s.all isNumeralChar := by
  unfold Numeral.takeSign
  split <;> rfl

theorem any_isDigit_takeSign (s : List Char) :
    (Numeral.takeSign s).2.any Char.isDigit = s.any Char.isDigit := by
  unfold Numeral.takeSign
  split <;> rfl

theorem any_isDigit_of_takeWhile {s : List Char} (h : (s.takeWhile Char.isDigit).isEmpty = false) :
    s.any Char.isDigit = true := by
  cases s with
  | nil => contradiction
  | cons c s =>
    rw [List.any_cons]
    cases hc : c.isDigit with
    | true => rfl
    | false =>
      rw [List.takeWhile_cons_of_neg (by simp [hc])] at h
      contradiction

theorem any_isDigit_of_dropWhile {s : List Char}
    (h : (s.dropWhile Char.isDigit).any Char.isDigit = true) : s.any Char.isDigit = true := by
  rw [← List.takeWhile_append_dropWhile (p := Char.isDigit) (l := s), List.any_append, h,
    Bool.or_true]

theorem all_isNumeralChar_of_dropWhile {s : List Char}
    (h : (s.dropWhile Char.isDigit).all isNumeralChar = true) : s.all isNumeralChar = true := by
  rw [← List.takeWhile_append_dropWhile (p := Char.isDigit) (l := s), List.all_append, h,
    all_isNumeralChar_of_all_isDigit List.all_takeWhile]
  rfl

theorem all_isNumeralChar_of_readExponent? {s : List Char} {e : Int}
    (h : Numeral.readExponent? s = some e) : s.all isNumeralChar = true := by
  unfold Numeral.readExponent? at h
  split at h
  . rfl
  . next c s =>
    rw [Option.ite_none_right_eq_some] at h
    obtain ⟨hmark, h⟩ := h
    dsimp only at h
    rw [Option.ite_none_right_eq_some, Bool.and_eq_true] at h
    have hdigits := all_isNumeralChar_of_all_isDigit h.1.2
    rw [all_isNumeralChar_takeSign] at hdigits
    rw [List.all_cons, hdigits, Bool.and_true]
    unfold isNumeralChar
    rw [Bool.or_assoc, hmark, Bool.or_true]

theorem all_and_any_of_readUnsigned? {s : List Char} {r : Nat × Int}
    (h : Numeral.readUnsigned? s = some r) :
    s.all isNumeralChar = true ∧ s.any Char.isDigit = true := by
  unfold Numeral.readUnsigned? at h
  dsimp only at h
  split at h
  . next rest hrest =>
    rw [Option.ite_none_left_eq_some, Option.map_eq_some_iff] at h
    obtain ⟨hdigits, e, he, _⟩ := h
    rw [Bool.not_eq_true, Bool.and_eq_false_iff] at hdigits
    have hfraction := all_isNumeralChar_of_dropWhile (all_isNumeralChar_of_readExponent? he)
    constructor
    . apply all_isNumeralChar_of_dropWhile
      rw [hrest]
      exact hfraction
    . rcases hdigits with hwhole | hplaces
      . exact any_isDigit_of_takeWhile hwhole
      . apply any_isDigit_of_dropWhile
        rw [hrest, List.any_cons, any_isDigit_of_takeWhile hplaces, Bool.or_true]
  . next rest hrest =>
    rw [Option.ite_none_left_eq_some, Option.map_eq_some_iff] at h
    obtain ⟨hwhole, e, he, _⟩ := h
    rw [Bool.not_eq_true] at hwhole
    exact ⟨all_isNumeralChar_of_dropWhile (all_isNumeralChar_of_readExponent? he),
      any_isDigit_of_takeWhile hwhole⟩

theorem looksLikeNumber_iff {s : List Char} :
    looksLikeNumber s = true ↔ ∃ n, Numeral.read? s = some n := by
  unfold looksLikeNumber
  rw [Bool.and_eq_true, Bool.and_eq_true]
  constructor
  . intro ⟨⟨_, hall⟩, hread⟩
    unfold Binary64.read? at hread
    split at hread
    . next n hn => exact ⟨n, hn⟩
    . dsimp only at hread
      rw [ofWord?_eq_none (by rw [all_isNumeralChar_takeSign]; exact hall)] at hread
      contradiction
  . intro ⟨n, hn⟩
    have hunsigned := hn
    unfold Numeral.read? at hunsigned
    dsimp only at hunsigned
    rw [Option.map_eq_some_iff] at hunsigned
    obtain ⟨r, hr, _⟩ := hunsigned
    have hchars := all_and_any_of_readUnsigned? hr
    rw [all_isNumeralChar_takeSign, any_isDigit_takeSign] at hchars
    refine ⟨⟨hchars.2, hchars.1⟩, ?_⟩
    unfold Binary64.read?
    rw [hn]
    rfl

end Path

namespace Binary64

theorem read?_of_numeral {s : List Char} {n : Numeral} (h : Numeral.read? s = some n) :
    read? s = some n.value := by
  unfold read?
  rw [h]

theorem ofRatio_ne_nan (negative : Bool) (numerator denominator : Nat) :
    ofRatio negative numerator denominator ≠ .nan := by
  unfold ofRatio
  split
  . exact Binary64.noConfusion
  . dsimp only
    split
    . split <;> exact Binary64.noConfusion
    . split <;> exact Binary64.noConfusion

theorem ofDecimal_ne_nan (negative : Bool) (digits : Nat) (exponent : Int) :
    ofDecimal negative digits exponent ≠ .nan := by
  unfold ofDecimal
  dsimp only
  split
  . exact Binary64.noConfusion
  . split
    . exact Binary64.noConfusion
    . apply ofRatio_ne_nan

theorem equal_trans {x y z : Binary64} (hxy : x.equal y = true) (hyz : y.equal z = true) :
    x.equal z = true := by
  cases x <;> cases y <;> cases z <;> simp only [equal] at * <;> grind

end Binary64

namespace Path

theorem exists_read?_of_looksLikeNumber {s : List Char} (hs : looksLikeNumber s = true) :
    ∃ x, Binary64.read? s = some x ∧ x.equal x = true := by
  obtain ⟨n, hn⟩ := looksLikeNumber_iff.mp hs
  exact ⟨n.value, Binary64.read?_of_numeral hn,
    Binary64.equal_self (Binary64.ofDecimal_ne_nan _ _ _)⟩

end Path

end TemplateCheck
