import TemplateCheck.Proofs.Json.Lexical
import TemplateCheck.Yaml.Scan

/-!
This module contains what cursors pass over between the tokens of a YAML text and inside of its
scalars: spaces, tabs and ends of lines. Where JSON is read, that is the white space of JSON.
-/

namespace TemplateCheck

namespace Yaml

def isGapChar (c : Char) : Bool :=
  isSpace c || isBreak c

def HasGap (s : List Char) : Prop :=
  ∃ y ∈ s, isGapChar y = true

theorem HasGap.of_cons {x : Char} {s : List Char} (h : HasGap (x :: s))
    (hx : isGapChar x = false) : HasGap s := by
  obtain ⟨y, hy, hgap⟩ := h
  rcases List.mem_cons.mp hy with rfl | hy
  . rw [hx] at hgap
    contradiction
  . exact ⟨y, hy, hgap⟩

namespace Cursor

variable {c c' c'' : Cursor}

/--
Whether nothing but spaces, tabs and ends of lines stands between two cursors, and an end of a line
only if the second one is on a later line.
-/
def Passes (c c' : Cursor) : Prop :=
  ∃ g, c.rest = g ++ c'.rest ∧ (∀ x ∈ g, isGapChar x = true)
    ∧ (c.line < c'.line ∨ c.line = c'.line ∧ ∀ x ∈ g, isBreak x = false)

theorem Passes.refl (c : Cursor) : Passes c c :=
  ⟨[], rfl, nofun, .inr ⟨rfl, nofun⟩⟩

theorem Passes.trans (h : Passes c c') (h' : Passes c' c'') : Passes c c'' := by
  obtain ⟨g, hg, hall, hline⟩ := h
  obtain ⟨g', hg', hall', hline'⟩ := h'
  refine ⟨g ++ g', by rw [hg, hg', List.append_assoc], ?_, ?_⟩
  . rw [List.forall_mem_append]
    exact ⟨hall, hall'⟩
  . rw [List.forall_mem_append]
    rcases hline with hline | ⟨hline, hbreak⟩
    . exact .inl (by omega)
    . rcases hline' with hline' | ⟨hline', hbreak'⟩
      . exact .inl (by omega)
      . exact .inr ⟨by omega, hbreak, hbreak'⟩

theorem Passes.line_le (h : Passes c c') : c.line ≤ c'.line := by
  obtain ⟨g, -, -, hline | ⟨hline, -⟩⟩ := h
  . exact Nat.le_of_lt hline
  . exact Nat.le_of_eq hline

theorem rest_skip_one {x : Char} {s : List Char} (hc : c.rest = x :: s) : (c.skip 1).rest = s := by
  rw [skip, hc]
  rfl

theorem rest_span (c : Cursor) (p : Char → Bool) :
    (c.span p).2.rest = c.rest.dropWhile fun x => p x && !isBreak x := by
  have hdrop := @List.drop_left _ (c.rest.takeWhile fun x => p x && !isBreak x)
    (c.rest.dropWhile fun x => p x && !isBreak x)
  rw [List.takeWhile_append_dropWhile] at hdrop
  exact hdrop

theorem passes_span {p : Char → Bool} (hp : ∀ x, p x = true → isSpace x = true) (c : Cursor) :
    Passes c (c.span p).2 := by
  have hall : ∀ x ∈ c.rest.takeWhile fun x => p x && !isBreak x,
      p x = true ∧ isBreak x = false := by
    intro x hx
    have hx := List.all_eq_true.mp List.all_takeWhile x hx
    rw [Bool.and_eq_true, Bool.not_eq_true'] at hx
    exact hx
  refine ⟨c.rest.takeWhile fun x => p x && !isBreak x, ?_, ?_, .inr ⟨rfl, ?_⟩⟩
  . rw [rest_span, List.takeWhile_append_dropWhile]
  . intro x hx
    rw [isGapChar, hp x (hall x hx).1, Bool.true_or]
  . exact fun x hx => (hall x hx).2

theorem readBreak?_eq_none {x : Char} {s : List Char} (hx : isBreak x = false)
    (hc : c.rest = x :: s) : c.readBreak? = none := by
  unfold readBreak?
  rw [hc]
  split
  . next h =>
    cases h
    contradiction
  . next h =>
    cases h
    have hx' := hx
    simp only [isBreak, Bool.or_eq_false_iff] at hx'
    rw [if_neg (by simp [hx']), if_neg (by simp [hx])]
  . rfl

theorem exists_readBreak?_eq {x : Char} {s : List Char} (hx : isBreak x = true)
    (hc : c.rest = x :: s) :
    ∃ b c' more, c.readBreak? = some (b, c') ∧ c.rest = x :: (more ++ c'.rest)
      ∧ (∀ y ∈ more, isBreak y = true) ∧ isBreak b = true ∧ c'.line = c.line + 1 := by
  unfold readBreak?
  split
  . next s' hs' =>
    obtain ⟨rfl, rfl⟩ := List.cons.inj (hc.symm.trans hs')
    refine ⟨_, _, ['\n'], rfl, by rw [newLine, hs']; rfl, ?_, by decide, rfl⟩
    exact List.forall_mem_singleton.mpr (by decide)
  . next y s' _ hs' =>
    obtain ⟨rfl, rfl⟩ := List.cons.inj (hc.symm.trans hs')
    rw [if_pos hx]
    split
    . exact ⟨_, _, [], rfl, by rw [newLine, hs']; rfl, nofun, hx, rfl⟩
    . exact ⟨_, _, [], rfl, by rw [newLine, hs']; rfl, nofun, by decide, rfl⟩
  . next hs' =>
    rw [hc] at hs'
    contradiction

theorem exists_of_readBreak? {b : Char} (h : c.readBreak? = some (b, c')) :
    ∃ x more, c.rest = x :: (more ++ c'.rest) ∧ isBreak x = true ∧ (∀ y ∈ more, isBreak y = true)
      ∧ isBreak b = true ∧ c'.line = c.line + 1 := by
  cases hc : c.rest with
  | nil =>
    unfold readBreak? at h
    rw [hc] at h
    contradiction
  | cons x s =>
    cases hx : isBreak x with
    | false =>
      rw [readBreak?_eq_none hx hc] at h
      contradiction
    | true =>
      obtain ⟨b', c'', more, h', hrest, hmore, hb, hline⟩ := exists_readBreak?_eq hx hc
      rw [h] at h'
      cases h'
      exact ⟨x, more, hc.symm.trans hrest, hx, hmore, hb, hline⟩

theorem passes_readBreak? {b : Char} (h : c.readBreak? = some (b, c')) : Passes c c' := by
  obtain ⟨x, more, hrest, hx, hmore, -, hline⟩ := exists_of_readBreak? h
  refine ⟨x :: more, hrest, ?_, .inl (by omega)⟩
  rw [List.forall_mem_cons]
  exact ⟨by simp [isGapChar, hx], fun y hy => by simp [isGapChar, hmore y hy]⟩

theorem readBreaks?_eq_some {admits : List Char → Bool} {n : Nat} {breaks : List Char}
    (h : c.readBreaks? admits (n + 1) = some (breaks, c')) :
    (c.readBreak? = none ∧ breaks = [] ∧ c' = c)
      ∨ ∃ b c₁ breaks', c.readBreak? = some (b, c₁)
        ∧ (c₁.span isSpace).2.readBreaks? admits n = some (breaks', c')
        ∧ breaks = b :: breaks' := by
  unfold readBreaks? at h
  split at h
  . next hnone =>
    cases h
    exact .inl ⟨hnone, rfl, rfl⟩
  . next b c₁ hbreak =>
    dsimp only at h
    split at h
    . simp only [Option.map_eq_some_iff, Prod.mk.injEq, Prod.exists] at h
      obtain ⟨breaks', _, hbreaks, rfl, rfl⟩ := h
      exact .inr ⟨b, c₁, breaks', hbreak, hbreaks, rfl⟩
    . contradiction

theorem passes_readBreaks? {admits : List Char → Bool} {n : Nat} {breaks : List Char}
    (h : c.readBreaks? admits n = some (breaks, c')) : Passes c c' := by
  induction n generalizing c breaks with
  | zero =>
    cases h
    exact .refl _
  | succ n ih =>
    obtain ⟨-, -, rfl⟩ | ⟨b, c₁, breaks', hbreak, hbreaks, -⟩ := readBreaks?_eq_some h
    . exact .refl _
    . exact (passes_readBreak? hbreak).trans ((passes_span (fun _ h => h) c₁).trans (ih hbreaks))

theorem head?_span_isSpace (c : Cursor) :
    ∀ x ∈ (c.span isSpace).2.rest.head?, isSpace x = false := by
  intro x hx
  rw [rest_span, Option.mem_def] at hx
  have hnot := List.head?_dropWhile_not (fun x => isSpace x && !isBreak x) c.rest
  rw [hx] at hnot
  rcases Bool.and_eq_false_iff.mp hnot with hnot | hnot
  . exact hnot
  . rw [Bool.not_eq_false', isBreak] at hnot
    simp only [Bool.or_eq_true, beq_iff_eq] at hnot
    rcases hnot with (((rfl | rfl) | rfl) | rfl) | rfl <;> decide

theorem isGapChar_eq_false_of_readBreak? {x : Char} {s : List Char} (h : c.readBreak? = none)
    (hc : c.rest = x :: s) (hx : isSpace x = false) : isGapChar x = false := by
  cases hbreak : isBreak x with
  | true =>
    obtain ⟨b, c₁, more, hsome, -⟩ := exists_readBreak?_eq hbreak hc
    rw [h] at hsome
    contradiction
  | false => rw [isGapChar, hx, hbreak, Bool.or_false]

theorem length_readBreak? {b : Char} (h : c.readBreak? = some (b, c')) :
    c'.rest.length < c.rest.length := by
  obtain ⟨x, more, hrest, -⟩ := exists_of_readBreak? h
  rw [hrest, List.length_cons, List.length_append]
  omega

theorem length_span_le (p : Char → Bool) (c : Cursor) :
    (c.span p).2.rest.length ≤ c.rest.length := by
  rw [rest_span]
  exact (List.dropWhile_suffix _).length_le

theorem head?_readBreaks? {admits : List Char → Bool} {n : Nat} {breaks : List Char}
    (hn : c.rest.length ≤ n) (hspace : ∀ x ∈ c.rest.head?, isSpace x = false)
    (h : c.readBreaks? admits n = some (breaks, c')) :
    (∀ x ∈ c'.rest.head?, isGapChar x = false) ∧ (∀ b ∈ breaks, isBreak b = true)
      ∧ (breaks = [] → c'.line = c.line) := by
  induction n generalizing c breaks with
  | zero =>
    cases h
    rw [List.eq_nil_of_length_eq_zero (Nat.le_zero.mp hn)]
    exact ⟨nofun, nofun, fun _ => rfl⟩
  | succ n ih =>
    obtain ⟨hnone, rfl, rfl⟩ | ⟨b, c₁, breaks', hbreak, hbreaks, rfl⟩ := readBreaks?_eq_some h
    . refine ⟨?_, nofun, fun _ => rfl⟩
      intro x hx
      obtain ⟨s, hs⟩ := List.head?_eq_some_iff.mp hx
      exact isGapChar_eq_false_of_readBreak? hnone hs (hspace x hx)
    . have hlength := length_readBreak? hbreak
      have hspan := length_span_le isSpace c₁
      obtain ⟨x, more, -, -, -, hb, -⟩ := exists_of_readBreak? hbreak
      obtain ⟨hhead, hall, -⟩ := ih (by omega) (head?_span_isSpace c₁) hbreaks
      refine ⟨hhead, ?_, nofun⟩
      rw [List.forall_mem_cons]
      exact ⟨hb, hall⟩

end Cursor

namespace Scalar

variable {admits : List Char → Bool} {c c' : Cursor} {g : Gap}

theorem passes_readGap? (h : readGap? admits c = some (g, c')) : c.Passes c' := by
  unfold readGap? at h
  simp only [Option.map_eq_some_iff, Prod.mk.injEq, Prod.exists] at h
  obtain ⟨breaks, _, hbreaks, -, rfl⟩ := h
  exact (Cursor.passes_span (fun _ h => h) c).trans (Cursor.passes_readBreaks? hbreaks)

theorem eq_of_append_eq_append {front front' r s : List Char} {x : Char}
    (hfront : ∀ y ∈ front, isGapChar y = true) (hfront' : ∀ y ∈ front', isGapChar y = true)
    (hs : ∀ y ∈ s.head?, isGapChar y = false) (hx : isGapChar x = false)
    (h : front ++ s = front' ++ x :: r) : front = front' ∧ s = x :: r := by
  have hdrop := congrArg (List.dropWhile isGapChar) h
  rw [List.dropWhile_append_of_pos hfront, List.dropWhile_append_of_pos hfront',
    List.dropWhile_cons_of_neg (by simp [hx])] at hdrop
  have hs : s = x :: r := by
    cases s with
    | nil => exact absurd hdrop.symm (List.cons_ne_nil x r)
    | cons y s =>
      rw [List.dropWhile_cons_of_neg (by simp [hs y rfl])] at hdrop
      exact hdrop
  subst hs
  exact ⟨List.append_cancel_right h, rfl⟩

theorem hasGap_folded (hne : g.breaks ≠ []) (hbreaks : ∀ b ∈ g.breaks, isBreak b = true) :
    HasGap g.folded := by
  have hgap : ∀ {b : Char}, b ∈ g.breaks → isGapChar b = true := by
    intro b hb
    rw [isGapChar, hbreaks b hb, Bool.or_true]
  unfold Gap.folded
  split
  . contradiction
  . exact ⟨' ', List.mem_singleton_self _, by decide⟩
  . next more hmore heq =>
    obtain ⟨b, more', rfl⟩ := List.exists_cons_of_ne_nil hmore
    exact ⟨b, List.mem_cons_self, hgap (by simp [heq])⟩
  . obtain ⟨b, more, heq⟩ := List.exists_cons_of_ne_nil hne
    exact ⟨b, by simp [heq], hgap (by simp [heq])⟩

theorem rest_of_readGap? {front r : List Char} {x : Char} (hc : c.rest = front ++ x :: r)
    (hfront : ∀ y ∈ front, isGapChar y = true) (hbreak : ∃ y ∈ front, isBreak y = true)
    (hx : isGapChar x = false) (h : readGap? admits c = some (g, c')) :
    c'.rest = x :: r ∧ c.line < c'.line ∧ g.breaks ≠ [] ∧ ∀ b ∈ g.breaks, isBreak b = true := by
  obtain ⟨front', hc', hfront', hline⟩ := passes_readGap? h
  unfold readGap? at h
  simp only [Option.map_eq_some_iff, Prod.mk.injEq, Prod.exists] at h
  obtain ⟨breaks, c', hbreaks, rfl, rfl⟩ := h
  obtain ⟨hhead, hall, hsame⟩ :=
    Cursor.head?_readBreaks? (Nat.le_refl _) (Cursor.head?_span_isSpace c) hbreaks
  obtain ⟨rfl, hrest⟩ := eq_of_append_eq_append hfront' hfront hhead hx (hc'.symm.trans hc)
  have hlt : c.line < c'.line := by
    rcases hline with hline | ⟨-, hnone⟩
    . exact hline
    . obtain ⟨y, hy, hbreak⟩ := hbreak
      rw [hnone y hy] at hbreak
      contradiction
  refine ⟨hrest, hlt, ?_, hall⟩
  intro hnil
  exact absurd (hsame hnil) (Nat.ne_of_gt hlt)

end Scalar

theorem skipSpace_of_gap {g r s : List Char} {x : Char} (hx : isGapChar x = false)
    (hs : Json.skipSpace (g ++ r) = x :: s) (hg : ∀ y ∈ g, isGapChar y = true) :
    Json.skipSpace r = x :: s := by
  induction g with
  | nil => exact hs
  | cons y g ih =>
    rw [List.forall_mem_cons] at hg
    cases hy : Json.isSpace y with
    | true =>
      apply ih ?_ hg.2
      rw [List.cons_append, Json.skipSpace, List.dropWhile_cons_of_pos hy] at hs
      exact hs
    | false =>
      rw [List.cons_append, Json.skipSpace_cons_of_not_isSpace hy] at hs
      cases hs
      rw [hg.1] at hx
      contradiction

end Yaml

end TemplateCheck
