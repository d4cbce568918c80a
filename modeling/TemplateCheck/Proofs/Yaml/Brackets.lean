import TemplateCheck.Proofs.Yaml.Step

/-!
This module contains what is read of a collection in brackets whose text is JSON: tokens that open
and close as many brackets as the text does, up to the end of the collection or to a fault.
-/

namespace TemplateCheck

namespace Yaml

namespace Scan

/--
How far a text is divided that began with an opening bracket which is still open. Each of the
brackets inside of it has a place in `ps`, the innermost first.
-/
structure Open (ps : List (Option PendingKey)) (s : Scan) : Prop where
  count : s.count = s.tokens.length
  margins : s.margins = []
  tokens : ∃ t ts, s.tokens.reverse = t :: ts ∧ t.IsOpening ∧ Levels (ps.length + 1) 1 ts
  outer : ∃ p, s.outerPending = ps ++ [p]
  marks : Marks s.tokens.reverse s.tokens.length (s.pending? :: ps)

structure Closed (s : Scan) : Prop where
  count : s.count = s.tokens.length
  margins : s.margins = []
  tokens : (∃ t ts, s.tokens.reverse = t :: ts ∧ t.IsOpening ∧ Levels 0 1 ts)
    ∨ ∃ text, s.tokens = [.scalar false text]
  outer : s.outerPending = []

variable {ps : List (Option PendingKey)} {s s' : Scan} {t : Token}

theorem Open.inFlow (h : Open ps s) : s.inFlow = true := by
  obtain ⟨p, hp⟩ := h.outer
  simp [Scan.inFlow, hp]

theorem Open.tokens_pos (h : Open ps s) : 0 < s.tokens.length := by
  obtain ⟨t, ts, hts, -⟩ := h.tokens
  rw [← List.length_reverse, hts]
  exact Nat.succ_pos _

theorem Open.exists_levels_append (h : Open ps s) {e : Nat} {us : List Token}
    (hus : Levels e (ps.length + 1) us) :
    ∃ t ts, s.tokens.reverse ++ us = t :: ts ∧ t.IsOpening ∧ Levels e 1 ts := by
  obtain ⟨t, ts, hts, ht, hlevels⟩ := h.tokens
  exact ⟨t, ts ++ us, by rw [hts]; rfl, ht, hlevels.append hus⟩

theorem Open.addTo {ps' : List (Option PendingKey)} {p p' : Option PendingKey} {c : Cursor}
    {k : Bool} (h : Open ps s) (ht : Levels (ps'.length + 1) (ps.length + 1) [t])
    (hmarks : Marks (s.tokens.reverse ++ [t]) (s.tokens.length + 1) (p' :: ps')) :
    Open ps' (addTo t c { s with
      pending? := p'
      outerPending := ps' ++ [p]
      keyAllowed := k }) where
  count := congrArg (· + 1) h.count
  margins := h.margins
  tokens := by
    rw [Scan.addTo, add, List.reverse_cons]
    exact h.exists_levels_append ht
  outer := ⟨p, rfl⟩
  marks := by
    rw [Scan.addTo, add, List.reverse_cons]
    exact hmarks

theorem Open.marks_none (h : Open ps s) :
    Marks (s.tokens.reverse ++ [t]) (s.tokens.length + 1) (none :: ps) := by
  have hmarks := h.marks.tail
  rw [← List.length_reverse] at hmarks ⊢
  exact hmarks.append

theorem Open.separator? (h : Open ps s) (hs : s.separator? = some s') :
    Open ps s' ∧ s'.cursor = s.cursor.skip 1 := by
  unfold Scan.separator? at hs
  obtain ⟨s₁, hs₁, hs⟩ := Option.bind_eq_some_iff.mp hs
  cases hs
  rw [dropPending?_eq_some hs₁]
  obtain ⟨p, hp⟩ := h.outer
  have hadd := h.addTo (p := p) (c := s.cursor.skip 1) (k := true)
    (.inner (.inl rfl) .nil) h.marks_none
  rw [← hp] at hadd
  exact ⟨hadd, rfl⟩

theorem Open.exists_savePending? {s₁ : Scan} (h : Open ps s) (hs : s.savePending? = some s₁)
    (ht : t.IsFront) : ∃ p, s₁ = { s with pending? := p }
      ∧ Marks (s.tokens.reverse ++ [t]) (s.tokens.length + 1) (p :: ps) := by
  have hmarks := h.marks
  have hpos := h.tokens_pos
  rw [← List.length_reverse] at hmarks hpos ⊢
  rcases savePending?_eq_some hs with ⟨-, rfl⟩ | ⟨k, hk, -, rfl⟩
  . exact ⟨_, rfl, hmarks.append⟩
  . rw [h.count, ← List.length_reverse] at hk
    exact ⟨_, rfl, hmarks.tail.cons_last hpos ht hk⟩

theorem Open.node? {read : Cursor → Option (Token × Cursor)} (h : Open ps s)
    (hread : ∀ c t c', read c = some (t, c') → ∃ plain text, t = .scalar plain text)
    (hs : s.node? read = some s') : Open ps s' ∧ ∃ t, read s.cursor = some (t, s'.cursor) := by
  unfold Scan.node? at hs
  obtain ⟨s₁, hs₁, hs⟩ := Option.bind_eq_some_iff.mp hs
  obtain ⟨⟨t, c⟩, htoken, hs⟩ := Option.bind_eq_some_iff.mp hs
  cases hs
  obtain ⟨plain, text, rfl⟩ := hread _ _ _ htoken
  obtain ⟨p, rfl, hmarks⟩ := h.exists_savePending? hs₁ (.inr ⟨plain, text, rfl⟩)
  obtain ⟨q, hq⟩ := h.outer
  have hadd := h.addTo (p := q) (c := c) (k := false)
    (.inner (.inr (.inr ⟨plain, text, rfl⟩)) .nil) hmarks
  rw [← hq] at hadd
  exact ⟨hadd, _, htoken⟩

theorem Open.plain? (h : Open ps s) (hs : s.plain? = some s') :
    Open ps s' ∧ ∃ p, Scalar.readPlain? true s.margin s.cursor = some p
      ∧ s'.cursor = p.cursor := by
  have hflow := h.inFlow
  unfold Scan.plain? at hs
  obtain ⟨s₁, hs₁, hs⟩ := Option.bind_eq_some_iff.mp hs
  obtain ⟨a, ha, hs⟩ := Option.bind_eq_some_iff.mp hs
  cases hs
  obtain ⟨p, rfl, hmarks⟩ := h.exists_savePending? hs₁ (.inr ⟨true, a.text, rfl⟩)
  obtain ⟨q, hq⟩ := h.outer
  have hadd := h.addTo (p := q) (c := a.cursor) (k := a.brokeLine)
    (.inner (.inr (.inr ⟨true, a.text, rfl⟩)) .nil) hmarks
  rw [← hq] at hadd
  refine ⟨hadd, a, ?_, rfl⟩
  rw [← hflow]
  exact ha

theorem Open.openFlow? (h : Open ps s) (ht : t.IsOpening) (hs : s.openFlow? t = some s') :
    (∃ p, Open (p :: ps) s') ∧ s'.cursor = s.cursor.skip 1 := by
  unfold Scan.openFlow? at hs
  obtain ⟨s₁, hs₁, hs⟩ := Option.bind_eq_some_iff.mp hs
  cases hs
  obtain ⟨p, rfl, hmarks⟩ := h.exists_savePending? hs₁ (.inl ht)
  obtain ⟨q, hq⟩ := h.outer
  have hadd : Open (p :: ps) (Scan.addTo t (s.cursor.skip 1) { s with
      pending? := none
      outerPending := p :: ps ++ [q]
      keyAllowed := true }) := h.addTo (.opening ht .nil) hmarks
  rw [List.cons_append, ← hq] at hadd
  exact ⟨⟨p, hadd⟩, rfl⟩

theorem Open.closeFlow? (h : Open ps s) (ht : t.IsClosing) (hs : s.closeFlow? t = some s') :
    (ps = [] ∧ Closed s' ∨ ∃ p ps', ps = p :: ps' ∧ Open ps' s')
      ∧ s'.cursor = s.cursor.skip 1 := by
  unfold Scan.closeFlow? at hs
  obtain ⟨s₁, hs₁, hs⟩ := Option.bind_eq_some_iff.mp hs
  cases hs
  rw [dropPending?_eq_some hs₁]
  obtain ⟨q, hq⟩ := h.outer
  cases ps with
  | nil =>
    simp only [hq, List.nil_append]
    refine ⟨.inl ⟨trivial, ?_⟩, rfl⟩
    exact {
      count := congrArg (· + 1) h.count
      margins := h.margins
      tokens := by
        rw [Scan.addTo, add, List.reverse_cons]
        exact .inl (h.exists_levels_append (.closing ht .nil))
      outer := rfl }
  | cons p ps =>
    have hadd := h.addTo (p := q) (c := s.cursor.skip 1) (k := false) (.closing ht .nil)
      h.marks_none
    simp only [hq, List.cons_append]
    exact ⟨.inr ⟨p, ps, rfl, hadd⟩, rfl⟩

theorem Open.insert_key {k : PendingKey} (h : Open ps s) (hk : s.pending? = some k) :
    Open ps { s.insert k.token .key with pending? := none } := by
  have hmarks := h.marks
  rw [hk] at hmarks
  obtain ⟨hpos, hlt, ⟨t, ht, hfront⟩, hmarks⟩ := hmarks
  have hreverse := reverse_tokens_insert h.count k.token .key
  exact {
    count := by
      rw [length_insert]
      exact congrArg (· + 1) h.count
    margins := h.margins
    tokens := by
      obtain ⟨t₀, ts, hts, hopening, hlevels⟩ := h.tokens
      obtain ⟨i, hi⟩ := Nat.exists_eq_succ_of_ne_zero (Nat.ne_of_gt hpos)
      rw [hreverse, hts, hi]
      rw [hts, hi] at ht
      exact ⟨t₀, _, rfl, hopening, hlevels.insert_key ht hfront⟩
    outer := h.outer
    marks := by
      rw [hreverse, length_insert]
      refine Marks.mono (n := k.token) (by omega) (hmarks.congr ?_)
      intro i hi
      rw [List.getElem?_append_left, List.getElem?_take_of_lt hi]
      rw [List.length_take, List.length_reverse]
      omega }

theorem Open.value? (h : Open ps s) (hs : s.value? = some s') :
    Open ps s' ∧ s'.cursor = s.cursor.skip 1 := by
  -- a colon adds its mark to the state behind the mark of a key, if one is put in
  have hvalue : ∀ {s₁ : Scan} {k : Bool}, Open ps { s₁ with pending? := none } →
      Open ps (Scan.addTo .value (s.cursor.skip 1)
        { s₁ with pending? := none, keyAllowed := k }) := by
    intro s₁ k h₁
    obtain ⟨q, hq⟩ := h₁.outer
    have hadd := h₁.addTo (p := q) (c := s.cursor.skip 1) (k := k)
      (.inner (.inr (.inl rfl)) .nil) h₁.marks_none
    rw [← hq] at hadd
    exact hadd
  have hblock : ∀ (s₁ : Scan) (column n : Nat), s₁.inFlow = true →
      openBlock column n .blockMapping s₁ = s₁ := by
    intro s₁ column n hflow
    exact if_neg (by simp [hflow])
  have hflow := h.inFlow
  unfold Scan.value? at hs
  dsimp only at hs
  split at hs
  . next k hk =>
    rw [hblock (s.insert k.token .key) _ _ hflow] at hs
    cases hs
    exact ⟨hvalue (h.insert_key hk), rfl⟩
  . next hk =>
    rw [hblock _ _ _ hflow] at hs
    simp only [hflow, Bool.not_true, Bool.false_and, Bool.false_eq_true, if_false, hk] at hs
    cases hs
    exact ⟨hvalue { h with marks := h.marks.tail }, rfl⟩

def Inside (rest : List Char) (s : Scan) : Prop :=
  ∃ ps, Open ps s ∧ Json.Bracketed rest (ps.length + 1) s.cursor.rest

theorem forall₂_concat {α β : Type} {R : α → β → Prop} {as : List α} {a : α} {bs : List β}
    (h : List.Forall₂ R (as ++ [a]) bs) : ∃ bs' b, bs = bs' ++ [b] ∧ List.Forall₂ R as bs' := by
  induction as generalizing bs with
  | nil =>
    cases h with
    | cons _ h =>
      cases h
      exact ⟨[], _, rfl, .nil⟩
  | cons a' as ih =>
    cases h with
    | cons hab h =>
      obtain ⟨bs', b, rfl, hbs⟩ := ih h
      exact ⟨_ :: bs', b, rfl, .cons hab hbs⟩

theorem Open.exists_token? {x : Char} {r : List Char} (h : Open ps s) (hx : Solid x)
    (hbegins : Begins x r) (htext : Json.skipSpace s.cursor.rest = x :: r)
    (hs : s.next? = some s') :
    ∃ s₁ ps₁, Open ps₁ s₁ ∧ ps₁.length = ps.length ∧ s₁.cursor.rest = x :: r
      ∧ s₁.token? x r = some s' := by
  obtain ⟨s₁, hs₁⟩ := exists_of_next?_eq_some hs
  obtain ⟨g, hrest, hgap⟩ := Scalar.exists_gap_append_skipSpace s.cursor.rest
  rw [htext] at hrest
  obtain ⟨c, k, hfiller, hc⟩ := skipFiller_eq hx hrest hgap
  rw [h.inFlow] at hc
  rcases hc with ⟨hc, -⟩ | ⟨hc, -⟩
  . rw [hfiller] at hs₁
    obtain ⟨p, qs, hs₁', hp, hqs⟩ := dropStale?_eq_some hs₁
    obtain ⟨q, hq⟩ := h.outer
    dsimp only at hqs hp
    rw [hq] at hqs
    obtain ⟨ps₁, q₁, rfl, hps₁⟩ := forall₂_concat hqs
    have hopen : Open ps₁ s₁ := by
      subst hs₁'
      exact {
        count := h.count
        margins := h.margins
        tokens := hps₁.length_eq ▸ h.tokens
        outer := ⟨q₁, rfl⟩
        marks := h.marks.of_forall₂ (.cons hp hps₁) }
    have hcursor : s₁.cursor.rest = x :: r := by
      rw [hs₁']
      exact hc
    rw [← hfiller] at hs₁
    rw [next?_eq_token? hbegins hs₁ hopen.margins hcursor] at hs
    exact ⟨s₁, ps₁, hopen, hps₁.length_eq.symm, hcursor, hs⟩
  . contradiction

theorem Open.token?_opening {x : Char} {r : List Char} (h : Open ps s) (hx : x = '[' ∨ x = '\x7b')
    (hs : s.token? x r = some s') : (∃ p, Open (p :: ps) s') ∧ s'.cursor = s.cursor.skip 1 := by
  rcases hx with rfl | rfl
  . exact h.openFlow? (.inl rfl) hs
  . exact h.openFlow? (.inr rfl) hs

theorem Open.token?_closing {x : Char} {r : List Char} (h : Open ps s) (hx : x = ']' ∨ x = '\x7d')
    (hs : s.token? x r = some s') :
    (ps = [] ∧ Closed s' ∨ ∃ p ps', ps = p :: ps' ∧ Open ps' s')
      ∧ s'.cursor = s.cursor.skip 1 := by
  rcases hx with rfl | rfl
  . exact h.closeFlow? (.inl rfl) hs
  . exact h.closeFlow? (.inr rfl) hs

theorem Open.token?_mark {x : Char} {r : List Char} (h : Open ps s) (hx : x = ',' ∨ x = ':')
    (hs : s.token? x r = some s') : Open ps s' ∧ s'.cursor = s.cursor.skip 1 := by
  rcases hx with rfl | rfl
  . exact h.separator? hs
  . apply h.value?
    rw [← hs]
    exact (if_pos (by simp [h.inFlow])).symm

theorem exists_scalar_of_named {plain : Bool} {o : Option (List Char × Cursor)} {c : Cursor}
    (h : token?.named (.scalar plain) o = some (t, c)) : ∃ plain text, t = .scalar plain text := by
  obtain ⟨a, -, ha⟩ := Option.map_eq_some_iff.mp h
  cases ha
  exact ⟨plain, a.1, rfl⟩

theorem Open.token?_quote {r : List Char} (h : Open ps s) (hs : s.token? '"' r = some s') :
    Open ps s' ∧ ∃ text, Scalar.readQuoted? '"' (s.cursor.skip 1) = some (text, s'.cursor) := by
  have hnode : s.node? (fun c => token?.named (.scalar false)
      (Scalar.readQuoted? '"' (c.skip 1))) = some s' := hs
  obtain ⟨hopen, t, hread⟩ := h.node? (fun _ _ _ hread => exists_scalar_of_named hread) hnode
  obtain ⟨⟨text, c⟩, htext, hc⟩ := Option.map_eq_some_iff.mp hread
  cases hc
  exact ⟨hopen, text, htext⟩

theorem Inside.next? {rest : List Char} (h : Inside rest s) (hs : s.next? = some s') :
    Inside rest s' ∨ Closed s' ∧ s'.cursor.rest = rest := by
  obtain ⟨ps, hopen, htext⟩ := h
  obtain ⟨x, r, hxr, hx, hbegins⟩ := exists_begins_of_bracketed htext
  obtain ⟨s₁, ps₁, hopen₁, hlength, hrest, htoken⟩ := hopen.exists_token? hx hbegins hxr hs
  have hskip := Cursor.rest_skip_one hrest
  rw [← hlength] at htext
  cases htext with
  | opening hy hc ht =>
    obtain ⟨rfl, rfl⟩ := List.cons.inj (hxr.symm.trans hy)
    obtain ⟨⟨p, hp⟩, hcursor⟩ := hopen₁.token?_opening hc htoken
    exact .inl ⟨p :: ps₁, hp, by rw [hcursor, hskip]; exact ht⟩
  | closing hy hc ht =>
    obtain ⟨rfl, rfl⟩ := List.cons.inj (hxr.symm.trans hy)
    obtain ⟨⟨rfl, hclosed⟩ | ⟨p, ps', rfl, hopen'⟩, hcursor⟩ := hopen₁.token?_closing hc htoken
    . cases ht
      exact .inr ⟨hclosed, by rw [hcursor, hskip]⟩
    . exact .inl ⟨ps', hopen', by rw [hcursor, hskip]; exact ht⟩
  | mark hy hc ht =>
    obtain ⟨rfl, rfl⟩ := List.cons.inj (hxr.symm.trans hy)
    obtain ⟨hopen', hcursor⟩ := hopen₁.token?_mark hc htoken
    exact .inl ⟨ps₁, hopen', by rw [hcursor, hskip]; exact ht⟩
  | string hy hu ht =>
    obtain ⟨rfl, rfl⟩ := List.cons.inj (hxr.symm.trans hy)
    obtain ⟨hopen', text, htext⟩ := hopen₁.token?_quote htoken
    refine .inl ⟨ps₁, hopen', ?_⟩
    rw [Scalar.rest_of_readQuoted? hu hskip htext]
    exact ht
  | word hy hw hends ht =>
    obtain ⟨x', r', hxr', -, -, -, hplain⟩ := begins_of_bareWord hw
    obtain ⟨rfl, rfl⟩ := List.cons.inj (hxr.symm.trans (hy.trans hxr'))
    rw [hplain] at htoken
    obtain ⟨hopen', p, hp, hcursor⟩ := hopen₁.plain? htoken
    refine .inl ⟨ps₁, hopen', ht.congr ?_⟩
    rw [hcursor]
    exact Scalar.skipSpace_of_readPlain? hw hends (hrest.trans hxr'.symm) hp

end Scan

end Yaml

end TemplateCheck
