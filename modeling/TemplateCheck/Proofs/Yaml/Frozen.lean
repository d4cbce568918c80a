import TemplateCheck.Proofs.Yaml.Step
import TemplateCheck.Yaml.Reader

/-!
This module contains why the first tokens of a YAML text stay what they are once the scanner is
behind them and none of the nodes in them can still turn out to be a key.
-/

namespace TemplateCheck

namespace Yaml

namespace Scan

/--
Whether the tokens begin with `front`, and no node in `front` may still turn out to be a key. Where
`more` holds, something of a document follows.
-/
structure Frozen (more : Prop) (front : List Token) (s : Scan) : Prop where
  count : s.count = s.tokens.length
  tokens : ∃ ts, s.tokens.reverse = front ++ ts
    ∧ (more → ∃ t ∈ ts.head?, Reader.endsEmpty t = false)
  pending : ∀ k, s.pending? = some k → front.length ≤ k.token
  outer : ∀ k, some k ∈ s.outerPending → front.length ≤ k.token

theorem mem_of_forall₂ {k : PendingKey} {ps ps' : List (Option PendingKey)}
    (h : List.Forall₂ (fun p p' => p' = none ∨ p' = p) ps ps') (hk : some k ∈ ps') :
    some k ∈ ps := by
  induction h with
  | nil => contradiction
  | cons hp _ ih =>
    rcases List.mem_cons.mp hk with rfl | hk
    . rcases hp with hp | rfl
      . contradiction
      . exact List.mem_cons_self
    . exact List.mem_cons_of_mem _ (ih hk)

namespace Frozen

variable {more : Prop} {front : List Token} {s s' : Scan}

theorem length_le (h : Frozen more front s) : front.length ≤ s.count := by
  obtain ⟨ts, hts, -⟩ := h.tokens
  have hlength := congrArg List.length hts
  rw [List.length_reverse, List.length_append, ← h.count] at hlength
  omega

theorem add (h : Frozen more front s) (t : Token) : Frozen more front (s.add t) where
  count := congrArg (· + 1) h.count
  tokens := by
    obtain ⟨ts, hts, hmore⟩ := h.tokens
    refine ⟨ts ++ [t], ?_, ?_⟩
    . rw [Scan.add, List.reverse_cons, hts, List.append_assoc]
    . intro h
      obtain ⟨t₀, ht₀, hempty⟩ := hmore h
      exact ⟨t₀, List.mem_head?_append_of_mem_head? ht₀, hempty⟩
  pending := h.pending
  outer := h.outer

theorem addTo (h : Frozen more front s) (t : Token) (c : Cursor) :
    Frozen more front (s.addTo t c) :=
  Frozen.add (s := { s with cursor := c }) { h with } t

theorem insert {n : Nat} {t : Token} (h : Frozen more front s) (hn : front.length ≤ n)
    (ht : Reader.endsEmpty t = false) : Frozen more front (s.insert n t) where
  count := by
    rw [length_insert]
    exact congrArg (· + 1) h.count
  tokens := by
    obtain ⟨ts, hts, hmore⟩ := h.tokens
    obtain ⟨i, rfl⟩ := Nat.exists_eq_add_of_le hn
    rw [reverse_tokens_insert h.count, hts, List.take_length_add_append,
      List.drop_length_add_append, List.append_assoc]
    refine ⟨_, rfl, ?_⟩
    intro h
    obtain ⟨t₀, ht₀, hempty⟩ := hmore h
    obtain ⟨ts, rfl⟩ := List.head?_eq_some_iff.mp ht₀
    cases i with
    | zero => exact ⟨t, rfl, ht⟩
    | succ i => exact ⟨t₀, rfl, hempty⟩
  pending := h.pending
  outer := h.outer

theorem openBlock {n : Nat} {t : Token} (h : Frozen more front s) (column : Nat)
    (hn : front.length ≤ n)
    (ht : Reader.endsEmpty t = false) : Frozen more front (s.openBlock column n t) := by
  unfold Scan.openBlock
  split
  . exact Frozen.insert (s := { s with margins := (column + 1) :: s.margins }) { h with } hn ht
  . exact h

theorem closeBlocks (h : Frozen more front s) (limit : Nat) :
    Frozen more front (s.closeBlocks limit) := by
  have hfold : ∀ (ns : List Nat) (s : Scan), Frozen more front s →
      Frozen more front (ns.foldl (fun s _ => s.add .blockEnd) s) := by
    intro ns
    induction ns with
    | nil => exact fun s h => h
    | cons n ns ih => exact fun s h => ih _ (h.add _)
  unfold Scan.closeBlocks
  split
  . exact h
  . exact hfold _ _ { h with }

theorem dropPending? (h : Frozen more front s) (hs : s.dropPending? = some s') :
    Frozen more front s' := by
  rw [dropPending?_eq_some hs]
  exact { h with pending := nofun }

theorem savePending? (h : Frozen more front s) (hs : s.savePending? = some s') :
    Frozen more front s' := by
  rcases savePending?_eq_some hs with ⟨-, rfl⟩ | ⟨k, hk, -, rfl⟩
  . exact h
  . refine { h with pending := ?_ }
    rintro k' ⟨⟩
    rw [hk]
    exact h.length_le

theorem dropStale? (h : Frozen more front s) (hs : s.dropStale? = some s') :
    Frozen more front s' := by
  obtain ⟨p, ps, rfl, hp, hps⟩ := dropStale?_eq_some hs
  refine { h with pending := ?_, outer := ?_ }
  . intro k hk
    rcases hp with rfl | rfl
    . contradiction
    . exact h.pending k hk
  . intro k hk
    exact h.outer k (mem_of_forall₂ hps hk)

theorem skipFiller (h : Frozen more front s) : Frozen more front s.skipFiller := by
  obtain ⟨c, k, heq, -⟩ := exists_skipFiller_eq s
  rw [heq]
  exact { h with }

theorem finish? (h : Frozen more front s) (hs : s.finish? = some s') : Frozen more front s' := by
  obtain ⟨s₁, hs₁, hs⟩ := Option.bind_eq_some_iff.mp hs
  cases hs
  exact ((h.closeBlocks 0).dropPending? hs₁).add _

theorem directive? (h : Frozen more front s) (hs : s.directive? = some s') :
    Frozen more front s' := by
  obtain ⟨s₁, hs₁, hs⟩ := Option.bind_eq_some_iff.mp hs
  obtain ⟨⟨t, c⟩, -, hs⟩ := Option.bind_eq_some_iff.mp hs
  cases hs
  apply Frozen.addTo
  exact { (h.closeBlocks 0).dropPending? hs₁ with }

theorem boundary? {t : Token} (h : Frozen more front s) (hs : s.boundary? t = some s') :
    Frozen more front s' := by
  obtain ⟨s₁, hs₁, hs⟩ := Option.bind_eq_some_iff.mp hs
  cases hs
  apply Frozen.addTo
  exact { (h.closeBlocks 0).dropPending? hs₁ with }

theorem openFlow? {t : Token} (h : Frozen more front s) (hs : s.openFlow? t = some s') :
    Frozen more front s' := by
  obtain ⟨s₁, hs₁, hs⟩ := Option.bind_eq_some_iff.mp hs
  cases hs
  have h₁ := h.savePending? hs₁
  apply Frozen.addTo
  refine { h₁ with pending := by simp, outer := ?_ }
  intro k hk
  rcases List.mem_cons.mp hk with hk | hk
  . exact h₁.pending k hk.symm
  . exact h₁.outer k hk

theorem closeFlow? {t : Token} (h : Frozen more front s) (hs : s.closeFlow? t = some s') :
    Frozen more front s' := by
  obtain ⟨s₁, hs₁, hs⟩ := Option.bind_eq_some_iff.mp hs
  cases hs
  have h₁ := h.dropPending? hs₁
  apply Frozen.addTo
  split
  . exact { h₁ with }
  . next p ps hps =>
    have houter : ∀ k, some k ∈ p :: ps → front.length ≤ k.token := by
      rw [← hps]
      exact h₁.outer
    refine { h₁ with pending := ?_, outer := ?_ }
    . rintro k rfl
      exact houter k List.mem_cons_self
    . exact fun k hk => houter k (List.mem_cons_of_mem _ hk)

theorem separator? (h : Frozen more front s) (hs : s.separator? = some s') :
    Frozen more front s' := by
  obtain ⟨s₁, hs₁, hs⟩ := Option.bind_eq_some_iff.mp hs
  cases hs
  apply Frozen.addTo
  exact { h.dropPending? hs₁ with }

theorem entry? (h : Frozen more front s) (hs : s.entry? = some s') : Frozen more front s' := by
  unfold Scan.entry? at hs
  split at hs
  . contradiction
  . obtain ⟨s₁, hs₁, hs⟩ := Option.bind_eq_some_iff.mp hs
    cases hs
    have hblock := h.openBlock s.cursor.column h.length_le (t := .blockSequence) rfl
    apply Frozen.addTo
    exact { hblock.dropPending? hs₁ with }

theorem key? (h : Frozen more front s) (hs : s.key? = some s') : Frozen more front s' := by
  unfold Scan.key? at hs
  split at hs
  . contradiction
  . obtain ⟨s₁, hs₁, hs⟩ := Option.bind_eq_some_iff.mp hs
    cases hs
    have hblock := h.openBlock s.cursor.column h.length_le (t := .blockMapping) rfl
    apply Frozen.addTo
    exact { hblock.dropPending? hs₁ with }

theorem value? (h : Frozen more front s) (hs : s.value? = some s') : Frozen more front s' := by
  unfold Scan.value? at hs
  dsimp only at hs
  split at hs
  . next k hk =>
    cases hs
    have hn := h.pending k hk
    have hblock := (h.insert hn (t := .key) rfl).openBlock k.column hn (t := .blockMapping) rfl
    apply Frozen.addTo
    exact { hblock with pending := by simp }
  . split at hs
    . contradiction
    . cases hs
      have hblock := h.openBlock s.cursor.column h.length_le (t := .blockMapping) rfl
      apply Frozen.addTo
      exact { hblock with }

theorem node? {read : Cursor → Option (Token × Cursor)} (h : Frozen more front s)
    (hs : s.node? read = some s') : Frozen more front s' := by
  obtain ⟨s₁, hs₁, hs⟩ := Option.bind_eq_some_iff.mp hs
  obtain ⟨⟨t, c⟩, -, hs⟩ := Option.bind_eq_some_iff.mp hs
  cases hs
  apply Frozen.addTo
  exact { h.savePending? hs₁ with }

theorem block? {literal : Bool} (h : Frozen more front s) (hs : s.block? literal = some s') :
    Frozen more front s' := by
  obtain ⟨s₁, hs₁, hs⟩ := Option.bind_eq_some_iff.mp hs
  obtain ⟨⟨text, c⟩, -, hs⟩ := Option.bind_eq_some_iff.mp hs
  cases hs
  apply Frozen.addTo
  exact { h.dropPending? hs₁ with }

theorem plain? (h : Frozen more front s) (hs : s.plain? = some s') : Frozen more front s' := by
  obtain ⟨s₁, hs₁, hs⟩ := Option.bind_eq_some_iff.mp hs
  obtain ⟨p, -, hs⟩ := Option.bind_eq_some_iff.mp hs
  cases hs
  apply Frozen.addTo
  exact { h.savePending? hs₁ with }

theorem token? {x : Char} {r : List Char} (h : Frozen more front s) (hs : s.token? x r = some s') :
    Frozen more front s' := by
  unfold Scan.token? at hs
  dsimp only at hs
  split at hs
  . exact h.openFlow? hs
  . exact h.openFlow? hs
  . exact h.closeFlow? hs
  . exact h.closeFlow? hs
  . exact h.separator? hs
  . exact h.node? hs
  . exact h.node? hs
  . exact h.node? hs
  . exact h.node? hs
  . exact h.node? hs
  . split at hs
    . exact h.entry? hs
    . exact h.plain? hs
  . split at hs
    . exact h.key? hs
    . exact h.plain? hs
  . split at hs
    . exact h.value? hs
    . exact h.plain? hs
  . split at hs
    . contradiction
    . exact h.block? hs
  . split at hs
    . contradiction
    . exact h.block? hs
  . split at hs
    . contradiction
    . exact h.plain? hs

theorem next?_of_dropStale? {s₁ : Scan} (hs₁ : s.skipFiller.dropStale? = some s₁)
    (h : Frozen more front s₁) (hs : s.next? = some s') : Frozen more front s' := by
  unfold Scan.next? at hs
  rw [hs₁, Option.bind_eq_bind, Option.bind_some] at hs
  have h₁ := h.closeBlocks (s₁.cursor.column + 1)
  dsimp only at hs
  split at hs
  . exact h₁.finish? hs
  . split at hs
    . exact h₁.directive? hs
    . split at hs
      . exact h₁.boundary? hs
      . split at hs
        . exact h₁.boundary? hs
        . exact h₁.token? hs

theorem next? (h : Frozen more front s) (hs : s.next? = some s') : Frozen more front s' := by
  obtain ⟨s₁, hs₁⟩ := exists_of_next?_eq_some hs
  exact next?_of_dropStale? hs₁ (h.skipFiller.dropStale? hs₁) hs

end Frozen

end Scan

end Yaml

end TemplateCheck
