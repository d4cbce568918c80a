import TemplateCheck.Proofs.Yaml.Filler
import TemplateCheck.Proofs.Yaml.Level
import TemplateCheck.Proofs.Yaml.Scalar

/-!
This module contains which token is read next, by the character with which it begins.
-/

namespace TemplateCheck

namespace Yaml

namespace Scan

structure Begins (x : Char) (r : List Char) : Prop where
  directive : x ≠ '%'
  dot : x ≠ '.'
  dash : x = '-' → ∃ y r', r = y :: r' ∧ y ≠ '-'

variable {s s₁ s' : Scan} {x : Char} {r : List Char}

theorem exists_of_next?_eq_some (h : s.next? = some s') :
    ∃ s₁, s.skipFiller.dropStale? = some s₁ := by
  unfold next? at h
  obtain ⟨s₁, hs₁, -⟩ := Option.bind_eq_some_iff.mp h
  exact ⟨s₁, hs₁⟩

theorem run_of_next? {P : Scan → Prop} (hnext : ∀ s s', P s → s.next? = some s' → P s') (h : P s)
    (n : Nat) : P (s.run n) := by
  induction n generalizing s with
  | zero => exact h
  | succ n ih =>
    unfold run
    split
    . exact h
    . next s' hs =>
      split
      . exact hnext s s' h hs
      . exact ih (hnext s s' h hs)

theorem next?_eq_token? (hx : Begins x r) (hstale : s.skipFiller.dropStale? = some s₁)
    (hmargins : s₁.margins = []) (hrest : s₁.cursor.rest = x :: r) :
    s.next? = s₁.token? x r := by
  have hboundary := Scalar.atBoundary_eq_false hrest hx.dot hx.dash
  rw [Cursor.atBoundary, Bool.or_eq_false_iff] at hboundary
  unfold next?
  rw [hstale, Option.bind_eq_bind, Option.bind_some]
  simp only [closeBlocks_eq_self hmargins, hrest, hboundary]
  rw [if_neg (by simp [hx.directive])]
  rfl

theorem token?_eq_plain? (hx : indicators.contains x = false) (hspace : isSpace x = false) :
    s.token? x r = s.plain? := by
  unfold token?
  dsimp only
  split
  all_goals first
    | exact absurd hx (by decide)
    | rw [hx, hspace]; rfl

theorem token?_minus {y : Char} (hy : isGapChar y = false) :
    s.token? '-' (y :: r) = s.plain? :=
  if_neg (by simpa [startsApart, isGapChar] using hy)

theorem begins_of_bareWord {w t : List Char} (hw : Json.BareWord w) :
    ∃ x r, w ++ t = x :: r ∧ Solid x ∧ Begins x r ∧ x ≠ ':'
      ∧ ∀ s : Scan, s.token? x r = s.plain? := by
  obtain ⟨x, w', rfl, hdot, hdash⟩ := Scalar.exists_cons_of_bareWord hw
  have hx : Json.isWordChar x = true := hw.all x List.mem_cons_self
  have hne : ∀ y, Json.isWordChar y = false → x ≠ y := by
    rintro y hy rfl
    rw [hx] at hy
    contradiction
  have hgap := Scalar.isGapChar_of_isWordChar hx
  refine ⟨x, w' ++ t, rfl, ⟨hgap, hne _ (by decide), hne _ (by decide)⟩,
    ⟨hne _ (by decide), hdot, ?_⟩, hne _ (by decide), ?_⟩
  . intro h
    obtain ⟨y, s', rfl, hy⟩ := hdash h
    exact ⟨y, s' ++ t, rfl, hy⟩
  . intro s
    by_cases hminus : x = '-'
    . subst hminus
      obtain ⟨y, s', rfl, hy⟩ := hdash rfl
      exact token?_minus (Scalar.isGapChar_of_isWordChar (hw.all y (by simp)))
    . apply token?_eq_plain?
      . have hall : indicators.all (fun y => y == '-' || !Json.isWordChar y) = true := by decide
        rw [List.contains_eq_mem, decide_eq_false_iff_not]
        intro hmem
        have h := List.all_eq_true.mp hall x hmem
        rw [Bool.or_eq_true, beq_iff_eq, Bool.not_eq_true'] at h
        rcases h with h | h
        . exact hminus h
        . exact hne x h rfl
      . rw [isGapChar, Bool.or_eq_false_iff] at hgap
        exact hgap.1

theorem begins_of_mem {x : Char} (hx : x ∈ ['[', ']', '\x7b', '\x7d', ',', ':', '"'])
    (r : List Char) : Solid x ∧ Begins x r := by
  obtain ⟨hgap, hcomment, hmark, hdirective, hdot, hdash⟩ : isGapChar x = false ∧ x ≠ '#'
      ∧ x ≠ '\uFEFF' ∧ x ≠ '%' ∧ x ≠ '.' ∧ x ≠ '-' := by
    simp only [List.mem_cons, List.not_mem_nil, or_false] at hx
    rcases hx with rfl | rfl | rfl | rfl | rfl | rfl | rfl <;> decide
  exact ⟨⟨hgap, hcomment, hmark⟩, hdirective, hdot, fun h => absurd h hdash⟩

theorem exists_begins_of_bracketed {rest t : List Char} {d : Nat}
    (h : Json.Bracketed rest (d + 1) t) :
    ∃ x r, Json.skipSpace t = x :: r ∧ Solid x ∧ Begins x r := by
  cases h with
  | opening hs hc => exact ⟨_, _, hs, begins_of_mem (by rcases hc with rfl | rfl <;> decide) _⟩
  | closing hs hc => exact ⟨_, _, hs, begins_of_mem (by rcases hc with rfl | rfl <;> decide) _⟩
  | mark hs hc => exact ⟨_, _, hs, begins_of_mem (by rcases hc with rfl | rfl <;> decide) _⟩
  | string hs => exact ⟨_, _, hs, begins_of_mem (by decide) _⟩
  | word hs hw =>
    obtain ⟨x, r, hxr, hx, hbegins, -⟩ := begins_of_bareWord hw
    exact ⟨x, r, hs.trans hxr, hx, hbegins⟩

end Scan

end Yaml

end TemplateCheck
