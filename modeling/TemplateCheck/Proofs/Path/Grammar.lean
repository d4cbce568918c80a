import TemplateCheck.Proofs.Path.Condition
import TemplateCheck.Proofs.Path.Leaf

/-!
This module contains the grammar of path expressions, and that the reader accepts just the texts of
the grammar and gives the path that a text stands for.
-/

namespace TemplateCheck

open Text

inductive Selector.Spells : List Char → Selector → Prop where
  | anyChild : Spells ['*'] .anyChild
  | current : Spells ['.'] .current
  | name {u : List Char} (hne : u ≠ []) (hu : u.all Path.isKeyChar = true) :
      Spells u (.key (String.ofList u))
  | quoted {u name : List Char} (hu : Text.Spells '"' u name) :
      Spells (['"'] ++ u ++ ['"']) (.key (String.ofList name))

inductive Step.Spells : List Char → Step → Prop where
  | plain {axis : Axis} {u : List Char} {selector : Selector} (hu : Selector.Spells u selector) :
      Spells (Path.slashes axis ++ u) ⟨axis, selector, none⟩
  | filtered {axis : Axis} {u w v w' : List Char} {selector : Selector} {filter : Filter}
      (hu : Selector.Spells u selector) (hw : allBlank w = true) (hv : Filter.Spells v filter)
      (hw' : allBlank w' = true) :
      Spells (Path.slashes axis ++ u ++ ['['] ++ w ++ v ++ w' ++ [']'])
        ⟨axis, selector, some filter⟩

inductive Path.Spells : List Char → Path → Prop where
  | last {u : List Char} {step : Step} (hu : Step.Spells u step) : Spells u [step]
  | cons {u v : List Char} {step : Step} {path : Path} (hu : Step.Spells u step)
      (hv : Spells v path) : Spells (u ++ v) (step :: path)

namespace Path

variable {s rest : List Char}

theorem exists_spells_of_readSelector {selector : Selector}
    (h : readSelector s = .ok (selector, rest)) :
    ∃ u, s = u ++ rest ∧ Selector.Spells u selector := by
  unfold readSelector at h
  split at h
  . contradiction
  . cases h
    exact ⟨['*'], rfl, .anyChild⟩
  . cases h
    exact ⟨['.'], rfl, .current⟩
  . obtain ⟨⟨name, rest'⟩, hstring, heq⟩ := Outcome.map_eq_ok_iff.mp h
    cases heq
    obtain ⟨q, u, -, hs, hu⟩ := readString_eq_ok_iff.mp hstring
    cases hs
    exact ⟨['"'] ++ u ++ ['"'], by simp, .quoted hu⟩
  . obtain ⟨⟨name, rest'⟩, hname, heq⟩ := Outcome.map_eq_ok_iff.mp h
    cases heq
    obtain ⟨hs, hplain, -⟩ := readName_eq_ok_iff.mp hname
    unfold isPlainKey at hplain
    rw [Bool.and_eq_true] at hplain
    exact ⟨name, hs, .name (by simpa using hplain.1) hplain.2⟩

theorem readSelector_of_spells {u : List Char} {selector : Selector}
    (hu : Selector.Spells u selector) (hstop : StopsAt isKeyChar rest) :
    readSelector (u ++ rest) = .ok (selector, rest) := by
  cases hu with
  | anyChild => rfl
  | current => rfl
  | name hne hu =>
    have hplain : isPlainKey u = true := by
      unfold isPlainKey
      simp [hne, hu]
    cases u with
    | nil => contradiction
    | cons c u =>
      rw [List.all_cons, Bool.and_eq_true] at hu
      rw [List.cons_append, readSelector_of_isKeyChar hu.1, ← List.cons_append]
      rw [readName_eq_ok_iff.mpr ⟨rfl, hplain, hstop⟩]
      rfl
  | @quoted u name hu =>
    have hstring : readString ('"' :: (u ++ '"' :: rest)) = .ok (name, rest) :=
      readString_eq_ok_iff.mpr ⟨'"', u, .inr rfl, rfl, hu⟩
    simp only [List.append_assoc]
    change (readString ('"' :: (u ++ '"' :: rest))).map _ = _
    rw [hstring]
    rfl

theorem readAxis_of_spells {u : List Char} {selector : Selector} (axis : Axis)
    (hu : Selector.Spells u selector) :
    readAxis (slashes axis ++ (u ++ rest)) = .ok (axis, u ++ rest) := by
  cases hu with
  | anyChild => exact readAxis_slashes axis (by decide) _
  | current => exact readAxis_slashes axis (by decide) _
  | name hne hu =>
    cases u with
    | nil => contradiction
    | cons c u =>
      rw [List.all_cons, Bool.and_eq_true] at hu
      apply readAxis_slashes
      rintro rfl
      exact absurd hu.1 (by decide)
  | quoted => exact readAxis_slashes axis (by decide) _

theorem exists_eq_slashes_of_readAxis {axis : Axis} (h : readAxis s = .ok (axis, rest)) :
    s = slashes axis ++ rest := by
  obtain ⟨s', hchar, h⟩ := Outcome.bind_eq_ok_iff.mp h
  rw [readChar_eq_ok_iff.mp hchar]
  split at h
  . cases h
    rfl
  . cases h
    rfl

theorem exists_spells_of_readStep {step : Step} (h : readStep s = .ok (step, rest)) :
    ∃ u, s = u ++ rest ∧ Step.Spells u step := by
  obtain ⟨⟨axis, s₁⟩, haxis, h⟩ := Outcome.bind_eq_ok_iff.mp h
  obtain ⟨⟨selector, s₂⟩, hselector, h⟩ := Outcome.bind_eq_ok_iff.mp h
  obtain ⟨⟨filter?, s₃⟩, hfilter, h⟩ := Outcome.bind_eq_ok_iff.mp h
  cases h
  have hs := exists_eq_slashes_of_readAxis haxis
  obtain ⟨u, hs₁, hu⟩ := exists_spells_of_readSelector hselector
  unfold readFilter? at hfilter
  split at hfilter
  . obtain ⟨⟨filter, rest'⟩, hread, heq⟩ := Outcome.map_eq_ok_iff.mp hfilter
    cases heq
    obtain ⟨w, v, w', hs₂, hw, hv, hw'⟩ := exists_spells_of_readFilter hread
    refine ⟨_, ?_, .filtered hu hw hv hw'⟩
    rw [hs, hs₁, hs₂]
    simp
  . cases hfilter
    refine ⟨_, ?_, .plain hu⟩
    rw [hs, hs₁, List.append_assoc]

theorem stopsAt_isKeyChar_slash (hrest : ∀ c ∈ rest.head?, c = '/') : StopsAt isKeyChar rest := by
  intro c hc
  rw [hrest c hc]
  rfl

theorem readFilter?_none (hrest : ∀ c ∈ rest.head?, c = '/') :
    readFilter? rest = .ok (none, rest) := by
  unfold readFilter?
  split
  . next s =>
    have := hrest '[' rfl
    contradiction
  . rfl

theorem readStep_of_spells {u : List Char} {step : Step} (hu : Step.Spells u step)
    (rest : List Char) (hrest : ∀ c ∈ rest.head?, c = '/') :
    readStep (u ++ rest) = .ok (step, rest) := by
  cases hu with
  | @plain axis u selector hu =>
    rw [List.append_assoc]
    have hselector := readSelector_of_spells hu (stopsAt_isKeyChar_slash hrest)
    exact readStep_eq_ok (readAxis_of_spells axis hu) hselector (readFilter?_none hrest)
  | @filtered axis u w v w' selector filter hu hw hv hw' =>
    simp only [List.append_assoc]
    have hstop : StopsAt isKeyChar ('[' :: (w ++ (v ++ (w' ++ ']' :: rest)))) :=
      stopsAt_cons_iff.mpr rfl
    apply readStep_eq_ok (readAxis_of_spells axis hu) (readSelector_of_spells hu hstop)
    change (readFilter (w ++ (v ++ (w' ++ ']' :: rest)))).map _ = _
    rw [readFilter_of_spells hw hv hw']
    rfl

theorem readSteps_cases {path : Path} (h : readSteps s = .ok path) :
    (∃ step, readStep s = .ok (step, []) ∧ path = [step])
      ∨ ∃ step rest steps, readStep s = .ok (step, '/' :: rest)
        ∧ readSteps ('/' :: rest) = .ok steps ∧ path = step :: steps := by
  rw [readSteps] at h
  split at h
  . contradiction
  . next step rest hstep =>
    dsimp only at h
    split at h
    . cases h
      exact .inl ⟨step, hstep, rfl⟩
    . split at h
      . next hc =>
        subst hc
        obtain ⟨steps, hsteps, heq⟩ := Outcome.map_eq_ok_iff.mp h
        exact .inr ⟨step, _, steps, hstep, hsteps, heq.symm⟩
      . contradiction

theorem spells_of_readSteps {s : List Char} {path : Path} (h : readSteps s = .ok path) :
    Path.Spells s path := by
  -- the recursion is that of the reader: each step leaves a shorter text
  rcases readSteps_cases h with ⟨step, hstep, rfl⟩ | ⟨step, rest, steps, hstep, hsteps, rfl⟩
  . obtain ⟨u, hs, hu⟩ := exists_spells_of_readStep hstep
    rw [hs, List.append_nil]
    exact .last hu
  . have := readStep_length hstep
    obtain ⟨u, hs, hu⟩ := exists_spells_of_readStep hstep
    rw [hs]
    exact .cons hu (spells_of_readSteps hsteps)
termination_by s.length

theorem ne_nil_of_spells {u : List Char} {selector : Selector} (hu : Selector.Spells u selector) :
    u ≠ [] := by
  cases hu with
  | anyChild => simp
  | current => simp
  | name hne => exact hne
  | quoted => simp

theorem exists_slashes_append (axis : Axis) {u : List Char} (hne : u ≠ []) :
    ∃ v, slashes axis ++ u = '/' :: v ∧ v ≠ [] := by
  cases axis with
  | child => exact ⟨u, rfl, hne⟩
  | descendantOrSelf => exact ⟨'/' :: u, rfl, List.cons_ne_nil _ _⟩

theorem exists_cons_of_spells_step {u : List Char} {step : Step} (hu : Step.Spells u step) :
    ∃ v, u = '/' :: v ∧ v ≠ [] := by
  cases hu with
  | @plain axis _ _ hu => exact exists_slashes_append axis (ne_nil_of_spells hu)
  | @filtered axis _ _ _ _ _ _ hu =>
    simp only [List.append_assoc]
    apply exists_slashes_append axis
    simp [ne_nil_of_spells hu]

theorem exists_cons_of_spells {u : List Char} {path : Path} (hu : Path.Spells u path) :
    ∃ v, u = '/' :: v ∧ v ≠ [] := by
  cases hu with
  | last hu => exact exists_cons_of_spells_step hu
  | cons hu hv =>
    obtain ⟨v, rfl, hne⟩ := exists_cons_of_spells_step hu
    exact ⟨_, rfl, by simp [hne]⟩

theorem readSteps_of_spells {path : Path} (h : Path.Spells s path) : readSteps s = .ok path := by
  induction h with
  | last hu =>
    have hstep := readStep_of_spells hu [] (by simp)
    rw [List.append_nil] at hstep
    exact readSteps_last hstep
  | cons hu hv ih =>
    obtain ⟨v, rfl, -⟩ := exists_cons_of_spells hv
    rw [readSteps_cons (readStep_of_spells hu ('/' :: v) (by simp)), ih]
    rfl

theorem readAll_eq_ok_iff {path : Path} :
    readAll s = .ok path
      ↔ ∃ w t, s = w ++ t ∧ allBlank w = true ∧ (t = ['/'] ∧ path = [] ∨ Path.Spells t path) := by
  constructor
  . intro h
    obtain ⟨w, hs, hw, -⟩ := skipBlank_eq_iff.mp (rfl : skipBlank s = skipBlank s)
    unfold readAll at h
    dsimp only at h
    split at h
    . split at h
      . next hroot =>
        cases h
        exact ⟨w, _, hs, hw, .inl ⟨hroot, rfl⟩⟩
      . exact ⟨w, _, hs, hw, .inr (spells_of_readSteps h)⟩
    . contradiction
  . rintro ⟨w, t, rfl, hw, ⟨rfl, rfl⟩ | hspells⟩
    . unfold readAll
      rw [skipBlank_append hw (stopsAt_cons_iff.mpr rfl)]
      rfl
    . obtain ⟨v, rfl, hne⟩ := exists_cons_of_spells hspells
      have hall : readAll (w ++ '/' :: v) = readAll ('/' :: v) := by
        unfold readAll
        rw [skipBlank_append hw (stopsAt_cons_iff.mpr rfl)]
        rfl
      rw [hall, readAll_slash hne]
      exact readSteps_of_spells hspells

/--
The reader accepts just the texts of the grammar, and gives the path of the text: white space, and
then a slash alone, which is the path of no steps, or a text of the steps of the path.
-/
theorem parse_eq_ok_iff (expression : String) (path : Path) :
    parse expression = .ok path
      ↔ ∃ w s, expression.toList = w ++ s ∧ allBlank w = true
        ∧ (s = ['/'] ∧ path = [] ∨ Path.Spells s path) := by
  rw [← readAll_eq_ok_iff]
  exact Outcome.mapError_eq_ok_iff

end Path

end TemplateCheck
