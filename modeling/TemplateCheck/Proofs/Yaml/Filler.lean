import TemplateCheck.Proofs.Yaml.Gap

/-!
This module contains what is passed over between the tokens of a YAML text where only spaces, tabs
and ends of lines stand in front of the next one.
-/

namespace TemplateCheck

namespace Yaml

namespace Scan

structure Solid (x : Char) : Prop where
  gap : isGapChar x = false
  comment : x ≠ '#'
  mark : x ≠ '\uFEFF'

theorem exists_append_span {g r : List Char} {x : Char} {c : Cursor} (p : Char → Bool)
    (hc : c.rest = g ++ x :: r) (hx : p x = false) :
    ∃ g₁ g₂, g = g₁ ++ g₂ ∧ (c.span p).2.rest = g₂ ++ x :: r ∧ (∀ y ∈ g₁, isBreak y = false)
      ∧ ∀ y ∈ g₂.head?, (p y && !isBreak y) = false := by
  refine ⟨g.takeWhile fun y => p y && !isBreak y, g.dropWhile fun y => p y && !isBreak y,
    List.takeWhile_append_dropWhile.symm, ?_, ?_, ?_⟩
  . rw [Cursor.rest_span, hc, List.dropWhile_append]
    split
    . next hnil =>
      rw [List.isEmpty_iff] at hnil
      rw [hnil, List.dropWhile_cons_of_neg (by simp [hx])]
      rfl
    . rfl
  . intro y hy
    have hy := List.all_eq_true.mp List.all_takeWhile y hy
    simp only [Bool.and_eq_true, Bool.not_eq_true'] at hy
    exact hy.2
  . intro y hy
    have hnot := List.head?_dropWhile_not (fun y => p y && !isBreak y) g
    rw [Option.mem_def] at hy
    rw [hy] at hnot
    simpa using hnot

theorem exists_append_of_breaks {more g s r : List Char} {x : Char}
    (hmore : ∀ y ∈ more, isBreak y = true) (hx : isBreak x = false)
    (h : more ++ s = g ++ x :: r) : ∃ g', g = more ++ g' ∧ s = g' ++ x :: r := by
  rcases List.append_eq_append_iff.mp h with ⟨g', hg, hs⟩ | ⟨more', hmore', hs⟩
  . exact ⟨g', hg, hs⟩
  . cases more' with
    | nil => exact ⟨[], by simpa using hmore'.symm, by simpa using hs.symm⟩
    | cons y more' =>
      cases hs
      have hy : isBreak x = true := hmore x (by simp [hmore'])
      rw [hx] at hy
      contradiction

theorem skipFiller_go_succ {n : Nat} {s : Scan} {c : Cursor}
    (hmark : s.cursor.rest.head? ≠ some '\uFEFF')
    (hc : (s.cursor.span fun x => x == ' ' || (x == '\t' && (s.inFlow || !s.keyAllowed))).2 = c)
    (hcomment : c.rest.head? ≠ some '#') :
    skipFiller.go (n + 1) s = match c.readBreak? with
      | some (_, c) =>
        skipFiller.go n { s with cursor := c, keyAllowed := s.keyAllowed || !s.inFlow }
      | none => { s with cursor := c } := by
  have hmark : (s.cursor.column == 0 && s.cursor.rest.head? == some '\uFEFF') = false := by
    simp [hmark]
  have hcomment : (c.rest.head? == some '#') = false := by simp [hcomment]
  rw [skipFiller.go]
  rcases hbreak : c.readBreak? with _ | ⟨b, c'⟩ <;>
    simp only [hmark, hc, hcomment, hbreak, Bool.false_eq_true, if_false]

theorem Solid.not_break {x : Char} (hx : Solid x) : isBreak x = false := by
  have hgap := hx.gap
  simp only [isGapChar, Bool.or_eq_false_iff] at hgap
  exact hgap.2

theorem Solid.head?_ne {g r : List Char} {x : Char} (hx : Solid x)
    (hg : ∀ y ∈ g, isGapChar y = true) :
    (g ++ x :: r).head? ≠ some '\uFEFF' ∧ (g ++ x :: r).head? ≠ some '#' := by
  cases g with
  | nil => simp [hx.comment, hx.mark]
  | cons y g =>
    have hy := hg y List.mem_cons_self
    constructor
    . rintro ⟨⟩
      exact absurd hy (by decide)
    . rintro ⟨⟩
      exact absurd hy (by decide)

theorem skipFiller_go_line {g r : List Char} {x : Char} {s : Scan} (n : Nat) (hx : Solid x)
    (hs : s.cursor.rest = g ++ x :: r) (hg : ∀ y ∈ g, isGapChar y = true) :
    ∃ (g₁ g₂ : List Char) (c : Cursor), g = g₁ ++ g₂ ∧ c.rest = g₂ ++ x :: r
      ∧ (∀ y ∈ g₁, isBreak y = false)
      ∧ (∀ y ∈ g₂.head?, isBreak y = true ∨ y = '\t' ∧ s.inFlow = false)
      ∧ skipFiller.go (n + 1) s = match c.readBreak? with
        | some (_, c) =>
          skipFiller.go n { s with cursor := c, keyAllowed := s.keyAllowed || !s.inFlow }
        | none => { s with cursor := c } := by
  have hspace : isSpace x = false := by
    have hgap := hx.gap
    simp only [isGapChar, Bool.or_eq_false_iff] at hgap
    exact hgap.1
  simp only [isSpace, Bool.or_eq_false_iff] at hspace
  obtain ⟨g₁, g₂, rfl, hrest, hg₁, hg₂⟩ := exists_append_span
    (fun x => x == ' ' || x == '\t' && (s.inFlow || !s.keyAllowed)) hs (by simp [hspace])
  have hmark := (hx.head?_ne (r := r) hg).1
  rw [← hs] at hmark
  rw [List.forall_mem_append] at hg
  have hcomment := (hx.head?_ne (r := r) hg.2).2
  rw [← hrest] at hcomment
  refine ⟨g₁, g₂, _, rfl, hrest, hg₁, ?_, skipFiller_go_succ hmark rfl hcomment⟩
  intro y hy
  have hgap := hg.2 y (List.mem_of_mem_head? hy)
  have hstop := hg₂ y hy
  simp only [isGapChar, isSpace, Bool.or_eq_true, beq_iff_eq] at hgap
  rcases hgap with (rfl | rfl) | hbreak
  -- a space would have been passed over, and a tab only stays where it cannot stand before a key
  . simp [isBreak] at hstop
  . simp [isBreak] at hstop
    exact .inr ⟨rfl, hstop.1⟩
  . exact .inl hbreak

theorem skipFiller_go_eq {n : Nat} {g r : List Char} {x : Char} {s : Scan} (hx : Solid x)
    (hs : s.cursor.rest = g ++ x :: r) (hg : ∀ y ∈ g, isGapChar y = true) (hn : g.length < n) :
    ∃ c k, skipFiller.go n s = { s with cursor := c, keyAllowed := k }
      ∧ (c.rest = x :: r ∧ (s.keyAllowed = true ∨ s.inFlow = false ∧ (∃ y ∈ g, isBreak y = true) →
          k = true)
        ∨ s.inFlow = false ∧ ∃ t, c.rest = '\t' :: t) := by
  -- every round passes over one line, so there is less filler in front of the next one
  induction n generalizing g s with
  | zero => omega
  | succ n ih =>
    obtain ⟨g₁, g₂, c₁, rfl, hrest, hg₁, hg₂, hgo⟩ := skipFiller_go_line n hx hs hg
    rw [hgo]
    cases g₂ with
    | nil =>
      rw [Cursor.readBreak?_eq_none hx.not_break hrest]
      refine ⟨c₁, s.keyAllowed, rfl, .inl ⟨hrest, ?_⟩⟩
      rintro (hkey | ⟨-, y, hy, hbreak⟩)
      . exact hkey
      . rw [List.append_nil] at hy
        rw [hg₁ y hy] at hbreak
        contradiction
    | cons y g₂ =>
      rcases hg₂ y rfl with hy | ⟨rfl, hflow⟩
      . obtain ⟨b, c₂, more, hread, hc₁, hmore, -⟩ := Cursor.exists_readBreak?_eq hy hrest
        rw [hread]
        rw [hrest, List.cons_append, List.cons.injEq] at hc₁
        obtain ⟨g₃, rfl, hc₂⟩ := exists_append_of_breaks hmore hx.not_break hc₁.2.symm
        have hg₃ : ∀ y ∈ g₃, isGapChar y = true := by
          intro z hz
          exact hg z (by simp [hz])
        obtain ⟨c, k, hgo, hc⟩ := @ih g₃ { s with
          cursor := c₂
          keyAllowed := s.keyAllowed || !s.inFlow } hc₂ hg₃ (by simp at hn; omega)
        refine ⟨c, k, hgo, hc.imp_left ?_⟩
        rintro ⟨hc, hk⟩
        refine ⟨hc, ?_⟩
        rintro (hkey | ⟨hflow, -⟩)
        . exact hk (.inl (by simp [hkey]))
        . exact hk (.inl (by simp [hflow]))
      . rw [Cursor.readBreak?_eq_none (rfl : isBreak '\t' = false) hrest]
        exact ⟨c₁, s.keyAllowed, rfl, .inr ⟨hflow, _, hrest⟩⟩

theorem skipFiller_eq {g r : List Char} {x : Char} {s : Scan} (hx : Solid x)
    (hs : s.cursor.rest = g ++ x :: r) (hg : ∀ y ∈ g, isGapChar y = true) :
    ∃ c k, s.skipFiller = { s with cursor := c, keyAllowed := k }
      ∧ (c.rest = x :: r ∧ (s.keyAllowed = true ∨ s.inFlow = false ∧ (∃ y ∈ g, isBreak y = true) →
          k = true)
        ∨ s.inFlow = false ∧ ∃ t, c.rest = '\t' :: t) :=
  skipFiller_go_eq hx hs hg (by simp [hs])

theorem exists_skipFiller_go_eq (n : Nat) (s : Scan) : ∃ c k,
    skipFiller.go n s = { s with cursor := c, keyAllowed := k } ∧ s.cursor.line ≤ c.line := by
  induction n generalizing s with
  | zero => exact ⟨s.cursor, s.keyAllowed, rfl, Nat.le_refl _⟩
  | succ n ih =>
    have hstart : ∀ (b : Bool) (p : Char → Bool),
        ((if b then s.cursor.skip 1 else s.cursor).span p).2.line = s.cursor.line := by
      intro b p
      split <;> rfl
    have hcomment : ∀ (b : Bool) (c : Cursor),
        (if b then (c.span fun _ => true).2 else c).line = c.line := by
      intro b c
      split <;> rfl
    rw [skipFiller.go]
    dsimp only
    split
    . next b c hbreak =>
      obtain ⟨x, more, -, -, -, -, hline⟩ := Cursor.exists_of_readBreak? hbreak
      rw [hcomment, hstart] at hline
      obtain ⟨c', k, hgo, hle⟩ := ih { s with cursor := c, keyAllowed := s.keyAllowed || !s.inFlow }
      have hle : c.line ≤ c'.line := hle
      exact ⟨c', k, hgo, by omega⟩
    . exact ⟨_, s.keyAllowed, rfl, Nat.le_of_eq ((hcomment _ _).trans (hstart _ _)).symm⟩

theorem exists_skipFiller_eq (s : Scan) : ∃ c k,
    s.skipFiller = { s with cursor := c, keyAllowed := k } ∧ s.cursor.line ≤ c.line :=
  exists_skipFiller_go_eq _ s

end Scan

end Yaml

end TemplateCheck
