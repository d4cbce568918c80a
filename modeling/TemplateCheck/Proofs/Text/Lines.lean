import TemplateCheck.Text

/-!
This module contains the division of a text into lines as a relation, and what the lines of two
texts behind one another are.
-/

namespace TemplateCheck

namespace Text

def withoutReturn (line : List Char) : List Char :=
  if line.getLast? = some '\r' then line.dropLast else line

/--
How a text is cut into lines. A line feed ends a line, and a carriage return in front of it goes
with it; what stands behind the last line feed is a line only if it is not empty.
-/
inductive Cut : List Char → List (List Char) → Prop
  | nil : Cut [] []
  | last {line : List Char} (hne : line ≠ []) (h : '\n' ∉ line) : Cut line [line]
  | line {line s : List Char} {ls : List (List Char)} (h : '\n' ∉ line) (hs : Cut s ls) :
    Cut (line ++ '\n' :: s) (withoutReturn line :: ls)

def Ended (s : List Char) : Prop :=
  s = [] ∨ s.getLast? = some '\n'

theorem withoutReturn_cons {c : Char} {line : List Char} (hne : line ≠ []) :
    withoutReturn (c :: line) = c :: withoutReturn line := by
  unfold withoutReturn
  rw [List.getLast?_cons_of_ne_nil hne, List.dropLast_cons_of_ne_nil hne]
  split <;> rfl

theorem withoutReturn_subset (line : List Char) : withoutReturn line ⊆ line := by
  unfold withoutReturn
  split
  . exact List.dropLast_subset line
  . exact List.Subset.refl line

theorem exists_eq_withoutReturn_append (line : List Char) :
    ∃ ret, line = withoutReturn line ++ ret ∧ ∀ c ∈ ret, c = '\r' := by
  unfold withoutReturn
  split
  . next h =>
    obtain ⟨front, rfl⟩ := List.getLast?_eq_some_iff.mp h
    exact ⟨['\r'], by rw [List.dropLast_concat], by simp⟩
  . exact ⟨[], (List.append_nil line).symm, nofun⟩

theorem lines_cons {c : Char} {s : List Char} (hc : c ≠ '\n') (hs : s.head? ≠ some '\n') :
    lines (c :: s) = (match lines s with
      | [] => [[c]]
      | line :: more => (c :: line) :: more) := by
  apply lines.eq_4 c s hc
  rintro s' - rfl
  exact hs rfl

theorem lines_of_not_mem {line : List Char} (hne : line ≠ []) (h : '\n' ∉ line) :
    lines line = [line] := by
  induction line with
  | nil => contradiction
  | cons c line ih =>
    rw [List.mem_cons, not_or] at h
    cases line with
    | nil =>
      rw [lines_cons (Ne.symm h.1) (by simp)]
      rfl
    | cons d line =>
      have hd : d ≠ '\n' := fun hd => h.2 (hd ▸ List.mem_cons_self)
      rw [lines_cons (Ne.symm h.1) (by simpa using hd), ih (List.cons_ne_nil d line) h.2]

theorem lines_append_newline {line : List Char} (h : '\n' ∉ line) (s : List Char) :
    lines (line ++ '\n' :: s) = withoutReturn line :: lines s := by
  induction line with
  | nil => exact lines.eq_2 s
  | cons c line ih =>
    rw [List.mem_cons, not_or] at h
    cases line with
    | nil =>
      by_cases hc : c = '\r'
      . subst hc
        exact lines.eq_3 s
      . have hreturn : withoutReturn [c] = [c] := by simp [withoutReturn, hc]
        rw [List.singleton_append, hreturn]
        rw [lines.eq_4 c _ (Ne.symm h.1) (fun _ he => absurd he hc), lines.eq_2]
    | cons d line =>
      have hd : d ≠ '\n' := fun hd => h.2 (hd ▸ List.mem_cons_self)
      rw [List.cons_append, lines_cons (Ne.symm h.1) (by simpa using hd), ih h.2]
      rw [withoutReturn_cons (List.cons_ne_nil d line)]

theorem cut_lines (s : List Char) : Cut s (lines s) := by
  by_cases h : '\n' ∈ s
  . obtain ⟨line, rest, rfl, hline⟩ := List.eq_append_cons_of_mem h
    rw [lines_append_newline hline]
    exact .line hline (cut_lines rest)
  . by_cases hs : s = []
    . subst hs
      exact .nil
    . rw [lines_of_not_mem hs h]
      exact .last hs h
termination_by s.length

theorem Cut.eq_lines {s : List Char} {ls : List (List Char)} (h : Cut s ls) : ls = lines s := by
  induction h with
  | nil => rfl
  | last hne h => rw [lines_of_not_mem hne h]
  | line h _ ih => rw [lines_append_newline h, ih]

theorem lines_append {s : List Char} (hs : Ended s) (t : List Char) :
    lines (s ++ t) = lines s ++ lines t := by
  obtain ⟨ls, hcut⟩ : ∃ ls, Cut s ls := ⟨_, cut_lines s⟩
  induction hcut with
  | nil => rfl
  | last hne h =>
    rcases hs with hs | hs
    . contradiction
    . exact absurd (List.mem_of_getLast? hs) h
  | @line line s _ h _ ih =>
    have hs : Ended s := by
      rcases hs with hs | hs
      . simp at hs
      . rw [List.getLast?_append] at hs
        cases s with
        | nil => exact .inl rfl
        | cons c s => exact .inr (by simpa [List.getLast?_cons] using hs)
    rw [List.append_assoc, List.cons_append, lines_append_newline h, lines_append_newline h]
    rw [ih hs, List.cons_append]

theorem allBlank_of_mem_lines {s : List Char} (hs : allBlank s = true) :
    ∀ line ∈ lines s, allBlank line = true := by
  unfold allBlank at hs ⊢
  simp only [List.all_eq_true] at hs ⊢
  have hcut := cut_lines s
  generalize lines s = ls at hcut
  induction hcut with
  | nil => simp
  | last hne h => simpa using hs
  | line h _ ih =>
    rw [List.forall_mem_append, List.forall_mem_cons] at hs
    rw [List.forall_mem_cons]
    exact ⟨fun c hc => hs.1 c (withoutReturn_subset _ hc), ih hs.2.2⟩

end Text

end TemplateCheck
