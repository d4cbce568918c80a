import TemplateCheck.Proofs.Yaml.First

/-!
This module contains what is read of a text that begins with a word and goes on with a node on a
later line: first of all a plain scalar of several lines, which is no key.
-/

namespace TemplateCheck

namespace Yaml

namespace Scan

variable {s s' : Scan} {rest text : List Char}

theorem StartsNode.ne_colon {x : Char} {r : List Char} (h : StartsNode x r) : x ≠ ':' := by
  cases h with
  | opening hx =>
    rcases hx with rfl | rfl
    . decide
    . decide
  | quote hx =>
    subst hx
    decide
  | plain _ hcolon => exact hcolon

def LeadsWord (rest text : List Char) : Prop :=
  ∃ g w, text = g ++ (w ++ rest) ∧ (∀ y ∈ g, isGapChar y = true) ∧ Json.BareWord w

structure Folded (scalar : List Char) (s : Scan) : Prop where
  gap : HasGap scalar
  count : s.count = 1
  tokens : s.tokens = [.scalar true scalar]
  outer : s.outerPending = []
  stale : ∀ k, s.pending? = some k → k.line < s.cursor.line

theorem exists_folded_of_leadsWord (h : LeadsWord rest text) (hrest : Continues rest)
    (hs : next? { cursor := { rest := text } } = some s') : ∃ scalar, Folded scalar s' := by
  obtain ⟨g, w, rfl, hg, hw⟩ := h
  obtain ⟨g', x, r, rfl, hg', hbreak, hx, hbegins, hstarts⟩ := hrest
  obtain ⟨y, r', hyr, hsolid, hbegins', -, hplain⟩ := begins_of_bareWord (t := g' ++ x :: r) hw
  rw [hyr] at hs
  obtain ⟨c, p, hc, htoken⟩ := exists_token?_of_apart rfl rfl hsolid hbegins' rfl hg (.inl rfl) hs
  rw [hplain] at htoken
  obtain ⟨s₁, hs₁, htoken⟩ := Option.bind_eq_some_iff.mp htoken
  obtain ⟨k, -, hline, rfl⟩ := exists_savePending?_of_keyAllowed rfl hs₁
  obtain ⟨p', hread, htoken⟩ := Option.bind_eq_some_iff.mp htoken
  cases htoken
  obtain ⟨hlt, hgap⟩ := Scalar.line_lt_of_readPlain? hw (hc.trans hyr.symm) hg' hbreak hx.gap
    hx.comment hstarts.ne_colon hbegins.dot hbegins.dash hread
  refine ⟨p'.text, hgap, rfl, rfl, rfl, ?_⟩
  rintro k' ⟨⟩
  rw [hline]
  exact hlt

theorem Folded.next? {scalar : List Char} (h : Folded scalar s) (hs : s.next? = some s') :
    Frozen False [.scalar true scalar] s' := by
  obtain ⟨s₁, hs₁⟩ := exists_of_next?_eq_some hs
  obtain ⟨c, k, hfiller, hline⟩ := exists_skipFiller_eq s
  have hstale := hs₁
  rw [hfiller] at hstale
  have hpending : s₁.pending? = none := by
    refine pending?_of_dropStale? ?_ hstale
    exact fun k hk => Nat.lt_of_lt_of_le (h.stale k hk) hline
  obtain ⟨p, ps, rfl, -, hps⟩ := dropStale?_eq_some hstale
  dsimp only at hpending hps
  rw [h.outer] at hps
  cases hps
  subst hpending
  refine Frozen.next?_of_dropStale? hs₁ ?_ hs
  exact {
    count := by
      dsimp only
      rw [h.count, h.tokens]
      rfl
    tokens := ⟨[], by dsimp only; rw [h.tokens]; rfl, nofun⟩
    pending := nofun
    outer := nofun }

inductive FoldedProgress (rest : List Char) (s : Scan) : Prop
  | start {text : List Char} (hs : s = { cursor := { rest := text } }) (h : LeadsWord rest text)
  | folded {scalar : List Char} (h : Folded scalar s)
  | beyond {scalar : List Char} (hgap : HasGap scalar) (h : Frozen False [.scalar true scalar] s)

theorem FoldedProgress.next? (hrest : Continues rest) (h : FoldedProgress rest s)
    (hs : s.next? = some s') : FoldedProgress rest s' := by
  cases h with
  | start hstart h =>
    subst hstart
    obtain ⟨scalar, h⟩ := exists_folded_of_leadsWord h hrest hs
    exact .folded h
  | folded h => exact .beyond h.gap (h.next? hs)
  | beyond hgap h => exact .beyond hgap (h.next? hs)

theorem FoldedProgress.run (hrest : Continues rest) (h : FoldedProgress rest s) (n : Nat) :
    FoldedProgress rest (s.run n) :=
  run_of_next? (fun _ _ => FoldedProgress.next? hrest) h n

end Scan

end Yaml

end TemplateCheck
