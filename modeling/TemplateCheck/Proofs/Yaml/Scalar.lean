import TemplateCheck.Proofs.Yaml.Gap

/-!
This module contains how far the scalars of JSON reach in a YAML text: what YAML reads in quotes and
in the brackets of a collection, if it reads it at all, ends where it does in JSON.
-/

namespace TemplateCheck

namespace Yaml

namespace Scalar

theorem quotedBody_of_append {g u : List Char} (hg : ∀ x ∈ g, isGapChar x = true)
    (h : Json.QuotedBody (g ++ u)) : Json.QuotedBody u := by
  induction g with
  | nil => exact h
  | cons x g ih =>
    rw [List.forall_mem_cons] at hg
    rw [List.cons_append] at h
    generalize hu : g ++ u = s at h
    cases h with
    | plain _ _ h => exact ih hg.2 (hu ▸ h)
    | escape => exact absurd hg.1 (by decide)
    | unit => exact absurd hg.1 (by decide)

theorem exists_quotedBody_of_gap {g u r t : List Char} (hg : ∀ x ∈ g, isGapChar x = true)
    (hu : Json.QuotedBody u) (h : u ++ '"' :: t = g ++ r) :
    ∃ u', Json.QuotedBody u' ∧ r = u' ++ '"' :: t := by
  rcases List.append_eq_append_iff.mp h with ⟨g', rfl, hr⟩ | ⟨u', rfl, rfl⟩
  . cases g' with
    | nil => exact ⟨[], .nil, by simpa using hr.symm⟩
    | cons x g' =>
      cases hr
      rw [List.forall_mem_append, List.forall_mem_cons] at hg
      exact absurd hg.2.1 (by decide)
  . exact ⟨u', quotedBody_of_append hg hu, rfl⟩

theorem lookup_hexEscapes_of_escape {e : Char} (he : (Json.escapes.lookup e).isSome) :
    hexEscapes.lookup e = none ∧ isBreak e = false := by
  have hall : ∀ p ∈ Json.escapes, hexEscapes.lookup p.1 = none ∧ isBreak p.1 = false := by
    decide
  obtain ⟨x, hx⟩ := Option.isSome_iff_exists.mp he
  obtain ⟨l₁, l₂, hsplit, -⟩ := List.lookup_eq_some_iff.mp hx
  exact hall (e, x) (by simp [hsplit])

theorem rest_of_readEscape?_escape {e x : Char} {s : List Char} {c c' : Cursor}
    (he : (Json.escapes.lookup e).isSome) (hc : c.rest = e :: s)
    (h : readEscape? c = some (x, c')) : c'.rest = s := by
  unfold readEscape? at h
  rw [hc] at h
  dsimp only at h
  rw [(lookup_hexEscapes_of_escape he).1] at h
  simp only [Option.map_eq_some_iff, Prod.mk.injEq] at h
  obtain ⟨_, -, -, rfl⟩ := h
  rw [Cursor.skip, hc]
  rfl

theorem rest_of_readEscape?_unit {x : Char} {s : List Char} {c c' : Cursor}
    (hc : c.rest = 'u' :: s) (h : readEscape? c = some (x, c')) : c'.rest = s.drop 4 := by
  unfold readEscape? at h
  rw [hc] at h
  have hlookup : hexEscapes.lookup 'u' = some 4 := by decide
  simp only [hlookup] at h
  split at h
  . contradiction
  . simp only [Option.bind_eq_bind, Option.bind_eq_some_iff] at h
    obtain ⟨_, -, _, -, h⟩ := h
    cases h
    rw [Cursor.skip, hc]
    rfl

section

variable {n : Nat} {x : Char} {s text : List Char} {c c' : Cursor}

theorem readQuoted?_go_quote (hc : c.rest = '"' :: s)
    (h : readQuoted?.go '"' (n + 1) c = some (text, c')) : c' = c.skip 1 := by
  unfold readQuoted?.go at h
  rw [hc] at h
  dsimp only at h
  split at h
  . contradiction
  . rw [if_pos (by decide), if_neg (by simp)] at h
    cases h
    rfl

theorem readQuoted?_go_escape {e : Char} (hc : c.rest = '\\' :: e :: s) (he : isBreak e = false)
    (h : readQuoted?.go '"' (n + 1) c = some (text, c')) :
    ∃ x c₁, readEscape? (c.skip 1) = some (x, c₁)
      ∧ readQuoted?.after '"' n [x] c₁ = some (text, c') := by
  unfold readQuoted?.go at h
  rw [hc] at h
  dsimp only at h
  split at h
  . contradiction
  . rw [if_neg (by decide), if_pos (by decide)] at h
    rw [Cursor.readBreak?_eq_none he (Cursor.rest_skip_one hc)] at h
    simp only [Option.bind_eq_bind, Option.bind_eq_some_iff, Prod.exists] at h
    exact h

theorem readQuoted?_go_plain (hquote : x ≠ '"') (hescape : x ≠ '\\') (hc : c.rest = x :: s)
    (h : readQuoted?.go '"' (n + 1) c = some (text, c')) :
    (∃ gap c₁, readGap? (fun _ => true) c = some (gap, c₁)
        ∧ readQuoted?.after '"' n gap.folded c₁ = some (text, c'))
      ∨ readQuoted?.after '"' n [x] (c.skip 1) = some (text, c') := by
  unfold readQuoted?.go at h
  rw [hc] at h
  dsimp only at h
  split at h
  . contradiction
  . rw [if_neg (by simp [hquote]), if_neg (by simp [hescape])] at h
    split at h
    . simp only [Option.bind_eq_bind, Option.bind_eq_some_iff, Prod.exists] at h
      exact .inl h
    . exact .inr h

end

theorem rest_of_readQuoted? {u t text : List Char} {c c' : Cursor} (hu : Json.QuotedBody u)
    (hc : c.rest = u ++ '"' :: t) (h : readQuoted? '"' c = some (text, c')) : c'.rest = t := by
  unfold readQuoted? at h
  generalize c.rest.length = n at h
  induction n generalizing c u text with
  | zero =>
    unfold readQuoted?.go at h
    contradiction
  | succ n ih =>
    have hafter : ∀ {piece : List Char} {c₁ : Cursor} {u₁ : List Char}, Json.QuotedBody u₁ →
        c₁.rest = u₁ ++ '"' :: t → readQuoted?.after '"' n piece c₁ = some (text, c') →
        c'.rest = t := by
      intro piece c₁ u₁ hu₁ hc₁ hpiece
      unfold readQuoted?.after at hpiece
      simp only [Option.map_eq_some_iff, Prod.mk.injEq, Prod.exists] at hpiece
      obtain ⟨_, _, hgo, -, rfl⟩ := hpiece
      exact ih hu₁ hc₁ hgo
    cases hu with
    | nil =>
      rw [readQuoted?_go_quote hc h]
      exact Cursor.rest_skip_one hc
    | plain hquote hescape hs =>
      rcases readQuoted?_go_plain hquote hescape hc h with ⟨gap, c₁, hgap, h⟩ | h
      -- a gap of YAML is longer than the character, but what is left of the text is one in quotes
      . obtain ⟨g, hg, hall, -⟩ := passes_readGap? hgap
        rw [hc] at hg
        obtain ⟨u', hu', hc₁⟩ := exists_quotedBody_of_gap hall (.plain hquote hescape hs) hg
        exact hafter hu' hc₁ h
      . exact hafter hs (Cursor.rest_skip_one hc) h
    | escape he hs =>
      obtain ⟨x, c₁, hx, h⟩ := readQuoted?_go_escape hc (lookup_hexEscapes_of_escape he).2 h
      exact hafter hs (rest_of_readEscape?_escape he (Cursor.rest_skip_one hc) hx) h
    | unit hs =>
      obtain ⟨x, c₁, hx, h⟩ := readQuoted?_go_escape hc (by decide) h
      exact hafter hs (rest_of_readEscape?_unit (Cursor.rest_skip_one hc) hx) h

theorem isGapChar_of_isWordChar {c : Char} (hc : Json.isWordChar c = true) :
    isGapChar c = false := by
  rw [Bool.eq_false_iff]
  intro hgap
  simp only [isGapChar, isSpace, isBreak, Bool.or_eq_true, beq_iff_eq] at hgap
  rcases hgap with (rfl | rfl) | (((rfl | rfl) | rfl) | rfl) | rfl <;> exact absurd hc (by decide)

theorem isFlowIndicator_of_isWordChar {c : Char} (hc : Json.isWordChar c = true) :
    c ≠ ':' ∧ isFlowIndicator c = false := by
  constructor
  . rintro rfl
    exact absurd hc (by decide)
  . rw [Bool.eq_false_iff]
    intro hflow
    simp only [isFlowIndicator, Bool.or_eq_true, beq_iff_eq] at hflow
    rcases hflow with (((rfl | rfl) | rfl) | rfl) | rfl <;> exact absurd hc (by decide)

theorem isGapChar_of_isSpace {c : Char} (hc : Json.isSpace c = true) : isGapChar c = true := by
  simp only [Json.isSpace, Bool.or_eq_true, beq_iff_eq] at hc
  rcases hc with ((rfl | rfl) | rfl) | rfl <;> decide

theorem exists_gap_append_skipSpace (s : List Char) :
    ∃ g, s = g ++ Json.skipSpace s ∧ ∀ y ∈ g, isGapChar y = true := by
  refine ⟨s.takeWhile Json.isSpace, List.takeWhile_append_dropWhile.symm, ?_⟩
  intro y hy
  exact isGapChar_of_isSpace (List.all_eq_true.mp List.all_takeWhile y hy)

theorem plainWord?_of_isGapChar {flow : Bool} {x : Char} {s : List Char}
    (hx : isGapChar x = true) : plainWord? flow (x :: s) = some [] := by
  rw [plainWord?]
  exact if_pos hx

theorem plainWord?_of_ends {t : List Char} (ht : Json.Ends t) : plainWord? true t = some [] := by
  obtain ⟨x, s, hs, hx⟩ := ht
  cases t with
  | nil => cases hs
  | cons y t =>
    cases hy : Json.isSpace y with
    | true => exact plainWord?_of_isGapChar (isGapChar_of_isSpace hy)
    | false =>
      rw [Json.skipSpace_cons_of_not_isSpace hy] at hs
      cases hs
      rcases hx with rfl | rfl | rfl <;> rfl

theorem plainWord?_append {flow : Bool} {w t : List Char}
    (hw : ∀ c ∈ w, Json.isWordChar c = true) (ht : plainWord? flow t = some []) :
    plainWord? flow (w ++ t) = some w := by
  induction w with
  | nil => exact ht
  | cons c w ih =>
    rw [List.forall_mem_cons] at hw
    have hgap := isGapChar_of_isWordChar hw.1
    obtain ⟨hcolon, hflow⟩ := isFlowIndicator_of_isWordChar hw.1
    unfold isGapChar at hgap
    rw [List.cons_append, plainWord?, if_neg (by simp [hgap]), if_neg (by simp [hcolon])]
    rw [if_neg (by simp [hcolon, hflow]), ih hw.2]
    rfl

theorem atBoundary_eq_false {x : Char} {s : List Char} {c : Cursor} (hc : c.rest = x :: s)
    (hdot : x ≠ '.') (hdash : x = '-' → ∃ y s', s = y :: s' ∧ y ≠ '-') :
    c.atBoundary = false := by
  unfold Cursor.atBoundary Cursor.atMarker
  rw [hc]
  have hdots : List.isPrefixOf? ['.', '.', '.'] (x :: s) = none := by
    simp [List.isPrefixOf?, hdot.symm]
  have hdashes : List.isPrefixOf? ['-', '-', '-'] (x :: s) = none := by
    by_cases hx : x = '-'
    . obtain ⟨y, s', rfl, hy⟩ := hdash hx
      simp [List.isPrefixOf?, hx, hy.symm]
    . simp [List.isPrefixOf?, Ne.symm hx]
  rw [hdots, hdashes]
  simp

theorem exists_cons_of_bareWord {w : List Char} (hw : Json.BareWord w) :
    ∃ x s, w = x :: s ∧ x ≠ '.' ∧ (x = '-' → ∃ y s', s = y :: s' ∧ y ≠ '-') := by
  obtain ⟨x, s, rfl, hx⟩ := hw.front
  refine ⟨x, s, rfl, ?_, ?_⟩
  . rintro rfl
    rcases hx with hx | ⟨hx, -⟩
    . exact absurd hx (by decide)
    . exact absurd hx (by decide)
  . rintro rfl
    rcases hx with hx | ⟨-, y, s', rfl, hy⟩
    . exact absurd hx (by decide)
    . refine ⟨y, s', rfl, ?_⟩
      rintro rfl
      exact absurd hy (by decide)

theorem atBoundary_of_bareWord {w t : List Char} {c : Cursor} (hw : Json.BareWord w)
    (hc : c.rest = w ++ t) : c.atBoundary = false := by
  obtain ⟨x, s, rfl, hdot, hdash⟩ := exists_cons_of_bareWord hw
  apply atBoundary_eq_false hc hdot
  intro hx
  obtain ⟨y, s', rfl, hy⟩ := hdash hx
  exact ⟨y, s' ++ t, rfl, hy⟩

theorem skipSpace_of_readPlain?_go {margin n : Nat} {gap : Gap} {c : Cursor} {p : Plain}
    (hc : Json.Ends c.rest) (h : readPlain?.go true margin n gap c = some p) :
    Json.skipSpace p.cursor.rest = Json.skipSpace c.rest := by
  cases n with
  | zero =>
    cases h
    rfl
  | succ n =>
    unfold readPlain?.go at h
    split at h
    . cases h
      rfl
    . rw [plainWord?_of_ends hc] at h
      cases h
      rfl

theorem exists_readGap?_of_readPlain? {flow : Bool} {w t : List Char} {margin : Nat} {c : Cursor}
    {p : Plain} (hw : Json.BareWord w) (ht : plainWord? flow t = some []) (hc : c.rest = w ++ t)
    (h : readPlain? flow margin c = some p) :
    ∃ admits gap c₁, readGap? admits (c.skip w.length) = some (gap, c₁)
      ∧ ((gap.breaks = [] ∨ c₁.column < margin) ∧ p.cursor = c₁
        ∨ ∃ n more, c.rest.length = n + 1 ∧ readPlain?.go flow margin n gap c₁ = some more
          ∧ p = { more with text := w ++ more.text }) := by
  obtain ⟨x, w', hxw, -⟩ := hw.front
  have hx : Json.isWordChar x = true := hw.all x (by simp [hxw])
  unfold readPlain? at h
  obtain ⟨n, hn⟩ : ∃ n, c.rest.length = n + 1 := ⟨_, by rw [hc, hxw]; rfl⟩
  rw [hn] at h
  unfold readPlain?.go at h
  have hhash : c.rest.head? ≠ some '#' := by
    rw [hc, hxw]
    rintro ⟨⟩
    exact absurd hx (by decide)
  rw [if_neg (by simp [atBoundary_of_bareWord hw hc, hhash]), hc, plainWord?_append hw.all ht] at h
  dsimp only [Option.bind_eq_bind, Option.bind_some] at h
  rw [if_neg (by simp [hxw])] at h
  rw [Option.bind_eq_some_iff] at h
  obtain ⟨⟨gap, c₁⟩, hgap, h⟩ := h
  refine ⟨_, gap, c₁, hgap, ?_⟩
  dsimp only at h
  split at h
  . next hends =>
    cases h
    simp only [Bool.or_eq_true, Bool.and_eq_true, List.isEmpty_iff, decide_eq_true_eq] at hends
    exact .inl ⟨hends.imp And.right And.right, rfl⟩
  . rw [Option.bind_eq_some_iff] at h
    obtain ⟨more, hmore, h⟩ := h
    cases h
    exact .inr ⟨n, more, hn, hmore, rfl⟩

theorem skipSpace_of_readPlain? {w t : List Char} {margin : Nat} {c : Cursor} {p : Plain}
    (hw : Json.BareWord w) (ht : Json.Ends t) (hc : c.rest = w ++ t)
    (h : readPlain? true margin c = some p) :
    Json.skipSpace p.cursor.rest = Json.skipSpace t := by
  obtain ⟨admits, gap, c₁, hgap, h⟩ :=
    exists_readGap?_of_readPlain? hw (plainWord?_of_ends ht) hc h
  have hc₁ : Json.Ends c₁.rest ∧ Json.skipSpace c₁.rest = Json.skipSpace t := by
    obtain ⟨y, s, hs, hy⟩ := ht
    obtain ⟨g, hg, hall, -⟩ := passes_readGap? hgap
    rw [Cursor.skip, hc, List.drop_left] at hg
    dsimp only at hg
    rw [hg] at hs ⊢
    have hy' : isGapChar y = false := by
      rcases hy with rfl | rfl | rfl <;> decide
    have hs' := skipSpace_of_gap hy' hs hall
    exact ⟨⟨y, s, hs', hy⟩, hs'.trans hs.symm⟩
  rcases h with ⟨-, rfl⟩ | ⟨n, more, -, hmore, rfl⟩
  . exact hc₁.2
  . exact (skipSpace_of_readPlain?_go hc₁.1 hmore).trans hc₁.2

theorem line_le_of_readPlain?_go {flow : Bool} {margin n : Nat} {gap : Gap} {c : Cursor} {p : Plain}
    (h : readPlain?.go flow margin n gap c = some p) : c.line ≤ p.cursor.line := by
  induction n generalizing gap c p with
  | zero =>
    cases h
    exact Nat.le_refl _
  | succ n ih =>
    unfold readPlain?.go at h
    split at h
    . cases h
      exact Nat.le_refl _
    . obtain ⟨word, -, h⟩ := Option.bind_eq_some_iff.mp h
      split at h
      . cases h
        exact Nat.le_refl _
      . obtain ⟨⟨gap', c'⟩, hgap, h⟩ := Option.bind_eq_some_iff.mp h
        have hline : c.line ≤ c'.line := (passes_readGap? hgap).line_le
        dsimp only at h
        split at h
        . cases h
          exact hline
        . obtain ⟨more, hmore, h⟩ := Option.bind_eq_some_iff.mp h
          have hlater := ih hmore
          cases h
          exact Nat.le_trans hline hlater

theorem exists_text_of_readPlain?_go {flow : Bool} {margin n : Nat} {gap : Gap} {c : Cursor}
    {p : Plain} (hboundary : c.atBoundary = false) (hcomment : c.rest.head? ≠ some '#')
    (hword : plainWord? flow c.rest ≠ some [])
    (h : readPlain?.go flow margin (n + 1) gap c = some p) : ∃ s, p.text = gap.folded ++ s := by
  unfold readPlain?.go at h
  rw [if_neg (by simp [hboundary, hcomment])] at h
  obtain ⟨word, hsome, h⟩ := Option.bind_eq_some_iff.mp h
  split at h
  . next hempty =>
    rw [List.isEmpty_iff.mp hempty] at hsome
    exact absurd hsome hword
  . obtain ⟨⟨gap', c'⟩, -, h⟩ := Option.bind_eq_some_iff.mp h
    dsimp only at h
    split at h
    . cases h
      exact ⟨word, rfl⟩
    . obtain ⟨more, -, h⟩ := Option.bind_eq_some_iff.mp h
      cases h
      exact ⟨word ++ more.text, List.append_assoc _ _ _⟩

theorem plainWord?_ne_nil {x : Char} (hx : isGapChar x = false) (hcolon : x ≠ ':')
    (r : List Char) : plainWord? false (x :: r) ≠ some [] := by
  unfold plainWord?
  rw [if_neg (by simpa [isGapChar] using hx)]
  simp [hcolon]

theorem line_lt_of_readPlain? {w g r : List Char} {x : Char} {c : Cursor} {p : Plain}
    (hw : Json.BareWord w) (hc : c.rest = w ++ (g ++ x :: r)) (hg : ∀ y ∈ g, isGapChar y = true)
    (hbreak : ∃ y ∈ g, isBreak y = true) (hx : isGapChar x = false) (hcomment : x ≠ '#')
    (hcolon : x ≠ ':') (hdot : x ≠ '.') (hdash : x = '-' → ∃ y s, r = y :: s ∧ y ≠ '-')
    (h : readPlain? false 0 c = some p) :
    c.line < p.cursor.line ∧ HasGap p.text := by
  have ht : plainWord? false (g ++ x :: r) = some [] := by
    obtain ⟨y, hy, -⟩ := hbreak
    obtain ⟨y', g', rfl⟩ := List.exists_cons_of_ne_nil (List.ne_nil_of_mem hy)
    exact plainWord?_of_isGapChar (hg y' List.mem_cons_self)
  obtain ⟨admits, gap, c₁, hgap, h⟩ := exists_readGap?_of_readPlain? hw ht hc h
  have hskip : (c.skip w.length).rest = g ++ x :: r := by
    rw [Cursor.skip, hc, List.drop_left]
  obtain ⟨hrest, hline, hne, hbreaks⟩ := rest_of_readGap? hskip hg hbreak hx hgap
  rcases h with ⟨hends | hends, -⟩ | ⟨n, more, hn, hmore, rfl⟩
  . contradiction
  . exact absurd hends (Nat.not_lt_zero _)
  . have hlater := line_le_of_readPlain?_go hmore
    refine ⟨Nat.lt_of_lt_of_le hline hlater, ?_⟩
    obtain ⟨n, rfl⟩ : ∃ m, n = m + 1 := by
      obtain ⟨y, w', rfl, -⟩ := hw.front
      refine ⟨n - 1, ?_⟩
      simp only [hc, List.length_append, List.length_cons] at hn
      omega
    obtain ⟨y, hy, hygap⟩ := hasGap_folded hne hbreaks
    obtain ⟨s, hs⟩ := exists_text_of_readPlain?_go (atBoundary_eq_false hrest hdot hdash)
      (by simp [hrest, hcomment]) (hrest ▸ plainWord?_ne_nil hx hcolon r) hmore
    exact ⟨y, by simp [hs, hy], hygap⟩

end Scalar

end Yaml

end TemplateCheck
