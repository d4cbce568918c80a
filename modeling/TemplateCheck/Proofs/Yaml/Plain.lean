import TemplateCheck.Proofs.Decimal.Literal
import TemplateCheck.Proofs.Yaml.Gap
import TemplateCheck.Yaml.Plain

/-!
This module contains that a plain scalar with white space in it denotes its text.
-/

namespace TemplateCheck

namespace Yaml

namespace Plain

variable {s : List Char}

theorem any_word_eq_false {ws : List String}
    (hws : (ws.all fun w => w.toList.all fun c => !isGapChar c) = true) (hs : HasGap s) :
    (ws.any fun w => w.toList == s) = false := by
  rw [List.any_eq_false]
  intro w hw heq
  obtain ⟨y, hy, hgap⟩ := hs
  rw [← eq_of_beq heq] at hy
  have hword := List.all_eq_true.mp (List.all_eq_true.mp hws w hw) y hy
  rw [hgap] at hword
  contradiction

theorem not_numeral_of_isGapChar {y : Char} (h : isGapChar y = true) :
    Path.isNumeralChar y = false ∧ Text.hexValue? y = none := by
  simp only [isGapChar, isSpace, isBreak, Bool.or_eq_true, beq_iff_eq] at h
  rcases h with (rfl | rfl) | (((rfl | rfl) | rfl) | rfl) | rfl <;> decide

theorem hasGap_dropMark {mark : Char} (hmark : isGapChar mark = false) (hs : HasGap s) :
    HasGap (dropMark mark s) := by
  cases s with
  | nil => exact hs
  | cons c s =>
    rw [dropMark]
    split
    . next h =>
      rw [← h] at hmark
      exact hs.of_cons hmark
    . exact hs

theorem magnitude?_eq_none {base : Nat} (hs : HasGap s) : magnitude? base s = none := by
  have hfold : ∀ n, s.foldlM (fun n c => do
      let d ← Text.hexValue? c
      if d < base then some (base * n + d) else none) n = none := by
    induction s with
    | nil =>
      obtain ⟨y, hy, -⟩ := hs
      contradiction
    | cons c s ih =>
      intro n
      rw [List.foldlM_cons]
      cases hc : isGapChar c with
      | true =>
        rw [(not_numeral_of_isGapChar hc).2]
        rfl
      | false =>
        cases hd : Text.hexValue? c with
        | none => rfl
        | some d =>
          rw [Option.bind_eq_bind, Option.bind_some]
          split
          . exact ih (hs.of_cons hc) _
          . rfl
  unfold magnitude?
  split
  . rfl
  . exact hfold 0

theorem unsigned?_eq_none (hs : HasGap s) : unsigned? s = none := by
  unfold unsigned?
  split
  . exact magnitude?_eq_none ((hs.of_cons (by decide)).of_cons (by decide))
  . exact magnitude?_eq_none ((hs.of_cons (by decide)).of_cons (by decide))
  . exact magnitude?_eq_none ((hs.of_cons (by decide)).of_cons (by decide))
  . exact magnitude?_eq_none hs

theorem integer?_eq_none (hs : HasGap s) : integer? s = none := by
  unfold integer?
  split
  . rfl
  . split
    . rw [unsigned?_eq_none (hs.of_cons (by decide))]
      rfl
    . rw [unsigned?_eq_none (hasGap_dropMark (by decide) hs)]
      rfl

theorem float?_eq_none (hs : HasGap s) : float? s = none := by
  unfold float?
  rw [any_word_eq_false (by decide) (hasGap_dropMark (by decide) hs),
    any_word_eq_false (by decide) hs, any_word_eq_false (by decide) hs]
  rw [if_neg Bool.false_ne_true, if_neg Bool.false_ne_true, if_neg Bool.false_ne_true]
  split
  . next n hn =>
    obtain ⟨y, hy, hgap⟩ := hs
    have hnumber := Path.looksLikeNumber_iff.mpr ⟨n, hn⟩
    simp only [Path.looksLikeNumber, Bool.and_eq_true, List.all_eq_true] at hnumber
    have hy := hnumber.1.2 y hy
    rw [(not_numeral_of_isGapChar hgap).1] at hy
    contradiction
  . rfl

theorem value?_eq_string (hs : HasGap s) : value? s = some (.string (String.ofList s)) := by
  have hne : s.isEmpty = false := by
    obtain ⟨y, hy, -⟩ := hs
    rw [List.isEmpty_eq_false_iff]
    exact List.ne_nil_of_mem hy
  have hnull : isNull s = false := any_word_eq_false (by decide) hs
  have hboolean : boolean? s = none := by
    unfold boolean?
    rw [any_word_eq_false (by decide) hs, any_word_eq_false (by decide) hs]
    rfl
  unfold value?
  rw [hne, hnull, hboolean, integer?_eq_none hs, float?_eq_none hs]
  dsimp only [Option.map_none]
  rw [Bool.or_false, if_neg Bool.false_ne_true, ite_self]

end Plain

end Yaml

end TemplateCheck
