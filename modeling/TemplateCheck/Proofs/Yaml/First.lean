import TemplateCheck.Proofs.Yaml.Brackets
import TemplateCheck.Proofs.Yaml.Frozen

/-!
This module contains what is read of a text that begins with JSON in brackets or quotes and goes on
with another node on a later line: the tokens of the first node stay together, and behind them comes
something that belongs to a document.
-/

namespace TemplateCheck

namespace Yaml

namespace Scan

def Whole (ts : List Token) : Prop :=
  (∃ t ts', ts = t :: ts' ∧ t.IsOpening ∧ Levels 0 1 ts') ∨ ∃ text, ts = [.scalar false text]

inductive StartsNode (x : Char) (r : List Char) : Prop
  | opening (hx : x = '[' ∨ x = '\x7b')
  | quote (hx : x = '"')
  | plain (hx : ∀ s : Scan, s.token? x r = s.plain?) (hcolon : x ≠ ':')

variable {s s' : Scan} {x : Char} {r : List Char}

theorem exists_token?_of_apart {g : List Char} (hmargins : s.margins = [])
    (houter : s.outerPending = []) (hx : Solid x) (hbegins : Begins x r)
    (hrest : s.cursor.rest = g ++ x :: r) (hg : ∀ y ∈ g, isGapChar y = true)
    (hkey : s.keyAllowed = true ∨ ∃ y ∈ g, isBreak y = true) (hs : s.next? = some s') :
    ∃ c p, c.rest = x :: r
      ∧ token? x r { s with cursor := c, keyAllowed := true, pending? := p } = some s' := by
  have hflow : s.inFlow = false := by simp [inFlow, houter]
  obtain ⟨s₁, hs₁⟩ := exists_of_next?_eq_some hs
  obtain ⟨c, k, hfiller, hc⟩ := skipFiller_eq hx hrest hg
  obtain ⟨p, ps, hs₁', -, hps⟩ := dropStale?_eq_some (hfiller ▸ hs₁)
  dsimp only at hps
  rw [houter] at hps
  cases hps
  subst hs₁'
  rcases hc with ⟨hc, hk⟩ | ⟨-, t, ht⟩
  . have hk : k = true := by
      apply hk
      rcases hkey with hkey | hkey
      . exact .inl hkey
      . exact .inr ⟨hflow, hkey⟩
    rw [next?_eq_token? hbegins hs₁ hmargins hc] at hs
    subst hk
    refine ⟨c, p, hc, ?_⟩
    rw [← houter] at hs
    exact hs
  . have htab : Begins '\t' t := ⟨by decide, by decide, by simp⟩
    rw [next?_eq_token? htab hs₁ hmargins ht] at hs
    contradiction

theorem exists_savePending?_of_keyAllowed {s₁ : Scan} (hkey : s.keyAllowed = true)
    (hs : s.savePending? = some s₁) :
    ∃ k : PendingKey, k.token = s.count ∧ k.line = s.cursor.line
      ∧ s₁ = { s with pending? := some k } := by
  rcases savePending?_eq_some hs with ⟨hfalse, -⟩ | h
  . rw [hkey] at hfalse
    contradiction
  . exact h

theorem frozen_addTo {c : Cursor} {t : Token} (hcount : s.count = s.tokens.length)
    (hpending : ∀ k, s.pending? = some k → s.count ≤ k.token)
    (houter : ∀ k, some k ∈ s.outerPending → s.count ≤ k.token)
    (ht : Reader.endsEmpty t = false) : Frozen True s.tokens.reverse (s.addTo t c) where
  count := congrArg (· + 1) hcount
  tokens := ⟨[t], by rw [addTo, add, List.reverse_cons], fun _ => ⟨t, rfl, ht⟩⟩
  pending := by
    rw [List.length_reverse, ← hcount]
    exact hpending
  outer := by
    rw [List.length_reverse, ← hcount]
    exact houter

theorem frozen_of_openFlow? {t : Token} (hcount : s.count = s.tokens.length)
    (houter : s.outerPending = []) (hkey : s.keyAllowed = true) (ht : t.IsOpening)
    (hs : s.openFlow? t = some s') : Frozen True s.tokens.reverse s' := by
  obtain ⟨s₁, hs₁, hs⟩ := Option.bind_eq_some_iff.mp hs
  cases hs
  obtain ⟨k, hk, -, rfl⟩ := exists_savePending?_of_keyAllowed hkey hs₁
  have hempty : Reader.endsEmpty t = false := by
    rcases ht with rfl | rfl
    . rfl
    . rfl
  refine frozen_addTo (s := { s with
    pending? := none
    outerPending := some k :: s.outerPending
    keyAllowed := true }) hcount (by simp) ?_ hempty
  intro k' hk'
  rw [houter, List.mem_singleton] at hk'
  cases hk'
  exact Nat.le_of_eq hk.symm

theorem frozen_of_savePending? {s₁ : Scan} {c : Cursor} {b : Bool} {plain : Bool}
    {text : List Char} (hcount : s.count = s.tokens.length) (houter : s.outerPending = [])
    (hkey : s.keyAllowed = true) (hs : s.savePending? = some s₁) :
    Frozen True s.tokens.reverse (addTo (.scalar plain text) c { s₁ with keyAllowed := b }) := by
  obtain ⟨k, hk, -, rfl⟩ := exists_savePending?_of_keyAllowed hkey hs
  refine frozen_addTo (s := { s with pending? := some k, keyAllowed := b }) hcount ?_ ?_ rfl
  . rintro k' ⟨⟩
    exact Nat.le_of_eq hk.symm
  . rw [houter]
    nofun

theorem frozen_of_token? (hcount : s.count = s.tokens.length) (houter : s.outerPending = [])
    (hkey : s.keyAllowed = true) (hx : StartsNode x r) (hs : s.token? x r = some s') :
    Frozen True s.tokens.reverse s' := by
  cases hx with
  | opening hx =>
    rcases hx with rfl | rfl
    . exact frozen_of_openFlow? hcount houter hkey (.inl rfl) hs
    . exact frozen_of_openFlow? hcount houter hkey (.inr rfl) hs
  | quote hx =>
    subst hx
    obtain ⟨s₁, hs₁, hs⟩ := Option.bind_eq_some_iff.mp hs
    obtain ⟨⟨t, c⟩, hread, hs⟩ := Option.bind_eq_some_iff.mp hs
    cases hs
    obtain ⟨plain, text, rfl⟩ := exists_scalar_of_named hread
    exact frozen_of_savePending? hcount houter hkey hs₁
  | plain hx _ =>
    rw [hx] at hs
    obtain ⟨s₁, hs₁, hs⟩ := Option.bind_eq_some_iff.mp hs
    obtain ⟨p, -, hs⟩ := Option.bind_eq_some_iff.mp hs
    cases hs
    exact frozen_of_savePending? hcount houter hkey hs₁

def Continues (rest : List Char) : Prop :=
  ∃ g x r, rest = g ++ x :: r ∧ (∀ y ∈ g, isGapChar y = true) ∧ (∃ y ∈ g, isBreak y = true)
    ∧ Solid x ∧ Begins x r ∧ StartsNode x r

theorem Closed.whole (h : Closed s) : Whole s.tokens.reverse := by
  rcases h.tokens with h | ⟨text, h⟩
  . exact .inl h
  . exact .inr ⟨text, by rw [h]; rfl⟩

theorem Closed.next? {rest : List Char} (h : Closed s) (hrest : s.cursor.rest = rest)
    (hcontinues : Continues rest) (hs : s.next? = some s') :
    Frozen True s.tokens.reverse s' := by
  obtain ⟨g, x, r, rfl, hg, hbreak, hx, hbegins, hstarts⟩ := hcontinues
  obtain ⟨c, p, -, htoken⟩ := exists_token?_of_apart h.margins h.outer hx hbegins hrest hg
    (.inr hbreak) hs
  exact frozen_of_token? (s := { s with cursor := c, keyAllowed := true, pending? := p }) h.count
    h.outer rfl hstarts htoken

inductive Leads (rest text : List Char) : Prop
  | brackets {g t : List Char} {x : Char} (htext : text = g ++ x :: t)
    (hg : ∀ y ∈ g, isGapChar y = true) (hx : x = '[' ∨ x = '\x7b') (ht : Json.Bracketed rest 1 t)
  | quotes {g u : List Char} (htext : text = g ++ '"' :: (u ++ '"' :: rest))
    (hg : ∀ y ∈ g, isGapChar y = true) (hu : Json.QuotedBody u)

theorem inside_of_openFlow? {rest : List Char} {t : Token} (htokens : s.tokens = [])
    (hcount : s.count = 0) (hmargins : s.margins = []) (houter : s.outerPending = [])
    (hkey : s.keyAllowed = true) (ht : t.IsOpening)
    (hrest : Json.Bracketed rest 1 (s.cursor.skip 1).rest) (hs : s.openFlow? t = some s') :
    Inside rest s' := by
  obtain ⟨s₁, hs₁, hs⟩ := Option.bind_eq_some_iff.mp hs
  cases hs
  obtain ⟨k, hk, -, rfl⟩ := exists_savePending?_of_keyAllowed hkey hs₁
  refine ⟨[], ?_, hrest⟩
  exact {
    count := by
      rw [addTo, add, htokens, hcount]
      rfl
    margins := hmargins
    tokens := ⟨t, [], by rw [addTo, add, htokens]; rfl, ht, .nil⟩
    outer := ⟨some k, by rw [addTo, add, houter]; rfl⟩
    marks := trivial }

theorem next?_of_leads {rest text : List Char} (h : Leads rest text)
    (hs : next? { cursor := { rest := text } } = some s') :
    Inside rest s' ∨ Closed s' ∧ s'.cursor.rest = rest := by
  cases h with
  | @brackets g t x htext hg hx ht =>
    have hmem : x ∈ ['[', ']', '\x7b', '\x7d', ',', ':', '"'] := by
      rcases hx with rfl | rfl
      . decide
      . decide
    obtain ⟨hsolid, hbegins⟩ := begins_of_mem hmem t
    obtain ⟨c, p, hc, htoken⟩ :=
      exists_token?_of_apart rfl rfl hsolid hbegins htext hg (.inl rfl) hs
    rw [← Cursor.rest_skip_one hc] at ht
    refine .inl ?_
    rcases hx with rfl | rfl
    . exact inside_of_openFlow? rfl rfl rfl rfl rfl (.inl rfl) ht htoken
    . exact inside_of_openFlow? rfl rfl rfl rfl rfl (.inr rfl) ht htoken
  | quotes htext hg hu =>
    obtain ⟨hsolid, hbegins⟩ := begins_of_mem (x := '"') (by decide) _
    obtain ⟨c, p, hc, htoken⟩ :=
      exists_token?_of_apart rfl rfl hsolid hbegins htext hg (.inl rfl) hs
    obtain ⟨s₁, hs₁, hs⟩ := Option.bind_eq_some_iff.mp htoken
    obtain ⟨⟨t, c'⟩, hread, hs⟩ := Option.bind_eq_some_iff.mp hs
    cases hs
    obtain ⟨k, -, -, rfl⟩ := exists_savePending?_of_keyAllowed rfl hs₁
    obtain ⟨⟨text', c''⟩, htext', hc'⟩ := Option.map_eq_some_iff.mp hread
    cases hc'
    refine .inr ⟨?_, Scalar.rest_of_readQuoted? hu (Cursor.rest_skip_one hc) htext'⟩
    exact {
      count := rfl
      margins := rfl
      tokens := .inr ⟨text', rfl⟩
      outer := rfl }

inductive Progress (rest : List Char) (s : Scan) : Prop
  | start {text : List Char} (hs : s = { cursor := { rest := text } }) (h : Leads rest text)
  | inside (h : Inside rest s)
  | behind (h : Closed s) (hrest : s.cursor.rest = rest)
  | beyond {front : List Token} (h : Frozen True front s) (hfront : Whole front)

theorem Progress.next? {rest : List Char} (hrest : Continues rest) (h : Progress rest s)
    (hs : s.next? = some s') : Progress rest s' := by
  cases h with
  | start hstart h =>
    subst hstart
    rcases next?_of_leads h hs with h | ⟨h, hrest⟩
    . exact .inside h
    . exact .behind h hrest
  | inside h =>
    rcases h.next? hs with h | ⟨h, hrest⟩
    . exact .inside h
    . exact .behind h hrest
  | behind h hcursor => exact .beyond (h.next? hcursor hrest hs) h.whole
  | beyond h hfront => exact .beyond (h.next? hs) hfront

theorem Progress.run {rest : List Char} (hrest : Continues rest) (h : Progress rest s) (n : Nat) :
    Progress rest (s.run n) :=
  run_of_next? (fun _ _ => Progress.next? hrest) h n

end Scan

end Yaml

end TemplateCheck
