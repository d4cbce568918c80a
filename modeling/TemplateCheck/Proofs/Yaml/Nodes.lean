import TemplateCheck.Proofs.Yaml.Level
import TemplateCheck.Yaml.Reader

/-!
This module contains which tokens a node in brackets takes: all up to the closing bracket, if the
reading succeeds.
-/

namespace TemplateCheck

namespace Yaml

/--
Whether tokens close so many open brackets, the last of them right in front of `post`. They may also
break off before, if nothing is left then.
-/
def Upto (post : List Token) (d : Nat) (ts : List Token) : Prop :=
  ∃ us e, ts = us ++ post ∧ Levels e d us ∧ (e = 0 ∨ post = [])

variable {post ts : List Token} {d : Nat}

theorem Upto.eq_of_zero (h : Upto post 0 ts) : ts = post := by
  obtain ⟨us, e, rfl, hlevels, -⟩ := h
  cases hlevels
  rfl

theorem Upto.cases {t : Token} (h : Upto post (d + 1) (t :: ts)) :
    t.IsOpening ∧ Upto post (d + 2) ts ∨ t.IsClosing ∧ Upto post d ts
      ∨ t.IsInner ∧ Upto post (d + 1) ts
      ∨ t = .key ∧ (∃ t' ts', ts = t' :: ts' ∧ (t'.IsFront ∨ t' = .key))
        ∧ Upto post (d + 1) ts := by
  obtain ⟨us, e, hts, hlevels, he⟩ := h
  cases hlevels with
  | nil =>
    rcases he with he | rfl
    . contradiction
    . contradiction
  | opening ht h =>
    obtain ⟨rfl, rfl⟩ := List.cons.inj hts
    exact .inl ⟨ht, _, e, rfl, h, he⟩
  | closing ht h =>
    obtain ⟨rfl, rfl⟩ := List.cons.inj hts
    exact .inr (.inl ⟨ht, _, e, rfl, h, he⟩)
  | inner ht h =>
    obtain ⟨rfl, rfl⟩ := List.cons.inj hts
    exact .inr (.inr (.inl ⟨ht, _, e, rfl, h, he⟩))
  | key ht h =>
    obtain ⟨rfl, rfl⟩ := List.cons.inj hts
    exact .inr (.inr (.inr ⟨rfl, ⟨_, _, rfl, ht⟩, _, e, rfl, h, he⟩))

theorem Upto.closing {t : Token} (h : Upto post (d + 1) (t :: ts)) (ht : t.IsClosing) :
    Upto post d ts := by
  rcases h.cases with ⟨ht', -⟩ | ⟨-, h⟩ | ⟨ht', -⟩ | ⟨rfl, -⟩
  . rcases ht with rfl | rfl <;> rcases ht' with h | h <;> contradiction
  . exact h
  . rcases ht with rfl | rfl <;> rcases ht' with h | h | ⟨_, _, h⟩ <;> contradiction
  . rcases ht with h | h <;> contradiction

theorem Upto.opening {t : Token} (h : Upto post (d + 1) (t :: ts)) (ht : t.IsOpening) :
    Upto post (d + 2) ts := by
  rcases h.cases with ⟨-, h⟩ | ⟨ht', -⟩ | ⟨ht', -⟩ | ⟨rfl, -⟩
  . exact h
  . rcases ht with rfl | rfl <;> rcases ht' with h | h <;> contradiction
  . rcases ht with rfl | rfl <;> rcases ht' with h | h | ⟨_, _, h⟩ <;> contradiction
  . rcases ht with h | h <;> contradiction

theorem Upto.inner {t : Token} (h : Upto post (d + 1) (t :: ts)) (ht : t.IsInner) :
    Upto post (d + 1) ts := by
  rcases h.cases with ⟨ht', -⟩ | ⟨ht', -⟩ | ⟨-, h⟩ | ⟨rfl, -⟩
  . rcases ht with rfl | rfl | ⟨_, _, rfl⟩ <;> rcases ht' with h | h <;> contradiction
  . rcases ht with rfl | rfl | ⟨_, _, rfl⟩ <;> rcases ht' with h | h <;> contradiction
  . exact h
  . rcases ht with h | h | ⟨_, _, h⟩ <;> contradiction

namespace Reader

variable {α β : Type} {r r' : Reading} {t : Token}

theorem bind_eq_some_iff {m : Reader α} {f : α → Reader β} {b : β} :
    (m >>= f) r = some (b, r') ↔ ∃ a r₁, m r = some (a, r₁) ∧ f a r₁ = some (b, r') := by
  change (m r).bind _ = _ ↔ _
  rw [Option.bind_eq_some_iff, Prod.exists]

theorem peek_eq_some (h : peek r = some (t, r')) : r' = r ∧ ∃ ts, r.tokens = t :: ts := by
  unfold peek at h
  rw [Option.map_eq_some_iff] at h
  obtain ⟨t', ht', h⟩ := h
  cases h
  obtain ⟨ts, hts⟩ := List.head?_eq_some_iff.mp ht'
  exact ⟨rfl, ts, hts⟩

theorem take_eq_some (h : take r = some (t, r')) : r.tokens = t :: r'.tokens := by
  obtain ⟨t', r₁, hpeek, hnext⟩ := bind_eq_some_iff.mp h
  obtain ⟨rfl, ts, hts⟩ := peek_eq_some hpeek
  change some (t', _) = some (t, r') at hnext
  cases hnext
  simp only [hts, List.tail_cons]

theorem discard_eq_some {m : Reader α} {u : Unit}
    (h : (discard m : Reader Unit) r = some (u, r')) : ∃ a, m r = some (a, r') := by
  have hdiscard : (discard m : Reader Unit) = m >>= fun _ => pure () := rfl
  rw [hdiscard] at h
  obtain ⟨a, r₁, hm, hnext⟩ := bind_eq_some_iff.mp h
  change some (_, r₁) = some (u, r') at hnext
  cases hnext
  exact ⟨a, hm⟩

theorem tokens_of_discard_take {u : Unit} (hts : r.tokens = t :: ts)
    (h : (discard take : Reader Unit) r = some (u, r')) : r'.tokens = ts := by
  obtain ⟨t', ht'⟩ := discard_eq_some h
  rw [take_eq_some ht'] at hts
  exact (List.cons.inj hts).2

theorem expect_eq_some {u : Unit} (h : expect t r = some (u, r')) : r.tokens = t :: r'.tokens := by
  obtain ⟨t', r₁, htake, hnext⟩ := bind_eq_some_iff.mp h
  rw [take_eq_some htake]
  split at hnext
  . contradiction
  . next ht =>
    cases hnext
    simpa using ht

theorem takeIf_eq_some {b : Bool} (h : takeIf t r = some (b, r')) :
    b = true ∧ r.tokens = t :: r'.tokens
      ∨ b = false ∧ r' = r ∧ ∃ t' ts, r.tokens = t' :: ts ∧ t' ≠ t := by
  obtain ⟨t', r₁, hpeek, hnext⟩ := bind_eq_some_iff.mp h
  obtain ⟨rfl, ts, hts⟩ := peek_eq_some hpeek
  split at hnext
  . next ht =>
    obtain ⟨u, r₂, hdiscard, hnext⟩ := bind_eq_some_iff.mp hnext
    cases hnext
    obtain rfl : t' = t := by simpa using ht
    rw [← tokens_of_discard_take hts hdiscard] at hts
    exact .inl ⟨rfl, hts⟩
  . next ht =>
    cases hnext
    exact .inr ⟨rfl, rfl, t', ts, hts, by simpa using ht⟩

def Keeps (post : List Token) (m : Reader α) : Prop :=
  ∀ ⦃d r a r'⦄, m r = some (a, r') → Upto post (d + 1) r.tokens → Upto post (d + 1) r'.tokens

def Leaves (post : List Token) (m : Reader α) : Prop :=
  ∀ ⦃d r a r'⦄, m r = some (a, r') → Upto post (d + 1) r.tokens → Upto post d r'.tokens

variable {m m' : Reader α} {f : α → Reader β}

theorem Keeps.pure (a : α) : Keeps post (Pure.pure a : Reader α) := by
  rintro d r _ _ ⟨⟩ hr
  exact hr

theorem Keeps.peek : Keeps post peek := by
  intro d r t r' h hr
  obtain ⟨rfl, -⟩ := peek_eq_some h
  exact hr

theorem Keeps.bind (hm : Keeps post m) (hf : ∀ a, Keeps post (f a)) : Keeps post (m >>= f) := by
  intro d r b r' h hr
  obtain ⟨a, r₁, hm', hf'⟩ := bind_eq_some_iff.mp h
  exact hf a hf' (hm hm' hr)

theorem Keeps.bind_leaves (hm : Keeps post m) (hf : ∀ a, Leaves post (f a)) :
    Leaves post (m >>= f) := by
  intro d r b r' h hr
  obtain ⟨a, r₁, hm', hf'⟩ := bind_eq_some_iff.mp h
  exact hf a hf' (hm hm' hr)

theorem Keeps.expect (ht : t.IsInner) : Keeps post (expect t) := by
  intro d r u r' h hr
  rw [expect_eq_some h] at hr
  exact hr.inner ht

theorem Keeps.takeIf (ht : t.IsInner) : Keeps post (takeIf t) := by
  intro d r b r' h hr
  rcases takeIf_eq_some h with ⟨-, hts⟩ | ⟨-, rfl, -⟩
  . rw [hts] at hr
    exact hr.inner ht
  . exact hr

theorem Keeps.unlessAt {read : Reader Node} (hread : Keeps post read) (stops : List Token) :
    Keeps post (unlessAt stops read) := by
  apply Keeps.peek.bind
  intro t
  split
  . exact .pure _
  . exact hread

theorem Keeps.valueBy {read : Reader Node} (hread : Keeps post read) :
    Keeps post (valueBy read) := by
  apply (Keeps.takeIf (.inr (.inl rfl))).bind
  intro b
  split
  . exact hread
  . exact .pure _

theorem Leaves.unless_takeIf {a : α} (ht : t.IsClosing) (hm : Leaves post m) :
    Leaves post (do if ← takeIf t then return a else m) := by
  intro d r b r' h hr
  obtain ⟨c, r₁, htake, hnext⟩ := bind_eq_some_iff.mp h
  rcases takeIf_eq_some htake with ⟨rfl, hts⟩ | ⟨rfl, rfl, -⟩
  . cases hnext
    rw [hts] at hr
    exact hr.closing ht
  . exact hm hnext hr

theorem Leaves.takeIf_key (hm : ∀ ⦃d r a r'⦄, m r = some (a, r') → Upto post (d + 1) r.tokens →
      (∃ t ts, r.tokens = t :: ts ∧ (t.IsFront ∨ t = .key)) → Upto post d r'.tokens)
    (hm' : Leaves post m') : Leaves post (do if ← takeIf .key then m else m') := by
  intro d r b r' h hr
  obtain ⟨c, r₁, htake, hnext⟩ := bind_eq_some_iff.mp h
  rcases takeIf_eq_some htake with ⟨rfl, hts⟩ | ⟨rfl, rfl, -⟩
  . rw [hts] at hr
    rcases hr.cases with ⟨ht, -⟩ | ⟨ht, -⟩ | ⟨ht, -⟩ | ⟨-, hfront, hr⟩
    . rcases ht with h | h <;> contradiction
    . rcases ht with h | h <;> contradiction
    . rcases ht with h | h | ⟨_, _, h⟩ <;> contradiction
    . exact hm hnext hr hfront
  . exact hm' hnext hr

theorem Leaves.separated {k : Unit → Reader α} {first : Bool} (hk : ∀ u, Leaves post (k u)) :
    Leaves post (if !first then expect .separator >>= k else k ()) := by
  split
  . exact (Keeps.expect (.inl rfl)).bind_leaves hk
  . exact hk ()

theorem Keeps.bind_map_leaves {m : Reader α} {rest : Reader (List β)} {g : α → List β → List β}
    (hm : Keeps post m) (hrest : Leaves post rest) :
    Leaves post (do let a ← m; return g a (← rest)) := by
  apply hm.bind_leaves
  intro a d r b r' h hr
  obtain ⟨bs, r₁, hrest', hnext⟩ := bind_eq_some_iff.mp h
  cases hnext
  exact hrest hrest' hr

variable {n : Nat}

theorem leaves_flowEntries_succ (hnode : Keeps post (node false false n))
    (hentries : Leaves post (flowEntries false n)) (first : Bool) :
    Leaves post (flowEntries first (n + 1)) := by
  rw [flowEntries]
  apply Leaves.unless_takeIf (.inr rfl)
  dsimp only
  apply Leaves.separated
  intro _
  apply Leaves.unless_takeIf (.inr rfl)
  apply Leaves.takeIf_key
  . intro d r es r' h hr _
    exact (hnode.unlessAt _).bind_leaves
      (fun _ => (hnode.unlessAt _).valueBy.bind_map_leaves hentries) h hr
  . exact hnode.bind_map_leaves hentries

theorem leaves_flowItems_succ (hnode : Keeps post (node false false n))
    (hitems : Leaves post (flowItems false n)) (first : Bool) :
    Leaves post (flowItems first (n + 1)) := by
  rw [flowItems]
  apply Leaves.unless_takeIf (.inl rfl)
  dsimp only
  apply Leaves.separated
  intro _
  apply Leaves.unless_takeIf (.inl rfl)
  apply Leaves.takeIf_key
  . intro d r es r' h hr hfront
    obtain ⟨t, r₁, hpeek, hnext⟩ := bind_eq_some_iff.mp h
    obtain ⟨rfl, ts, hts⟩ := peek_eq_some hpeek
    obtain ⟨t', ts', hts', ht⟩ := hfront
    obtain ⟨rfl, -⟩ := List.cons.inj (hts'.symm.trans hts)
    split at hnext
    . next hempty =>
      rcases ht with ((rfl | rfl) | ⟨_, _, rfl⟩) | rfl <;> simp at hempty
    . exact hnode.bind_leaves
        (fun _ => (hnode.unlessAt _).valueBy.bind_map_leaves hitems) hnext hr
  . exact hnode.bind_map_leaves hitems

theorem takeAnchor?_eq (hts : r.tokens = t :: ts) (ht : ∀ name, t ≠ .anchor name) :
    takeAnchor? r = some (none, r) := by
  unfold takeAnchor?
  change (peek r).bind _ = _
  unfold peek
  rw [hts]
  cases t with
  | anchor name => exact absurd rfl (ht name)
  | _ => rfl

theorem takeTag?_eq (hts : r.tokens = t :: ts) (ht : ∀ handle suffix, t ≠ .tag handle suffix) :
    takeTag? r = some (none, r) := by
  unfold takeTag?
  change (peek r).bind _ = _
  unfold peek
  rw [hts]
  cases t with
  | tag handle suffix => exact absurd rfl (ht handle suffix)
  | _ => rfl

theorem takeProperties_eq (hts : r.tokens = t :: ts) (hanchor : ∀ name, t ≠ .anchor name)
    (htag : ∀ handle suffix, t ≠ .tag handle suffix) :
    takeProperties r = some ((none, none), r) := by
  unfold takeProperties
  change (takeAnchor? r).bind _ = _
  rw [takeAnchor?_eq hts hanchor, Option.bind_some]
  change (takeTag? r).bind _ = _
  rw [takeTag?_eq hts htag]
  rfl

theorem ne_of_inBrackets (ht : t.IsOpening ∨ t.IsClosing ∨ t.IsInner ∨ t = .key) :
    (∀ name, t ≠ .alias name) ∧ (∀ name, t ≠ .anchor name)
      ∧ (∀ handle suffix, t ≠ .tag handle suffix)
      ∧ t ≠ .entry ∧ t ≠ .blockSequence ∧ t ≠ .blockMapping := by
  rcases ht with (rfl | rfl) | (rfl | rfl) | (rfl | rfl | ⟨_, _, rfl⟩) | rfl <;> simp

theorem node_eq_some {block bare : Bool} {a : Node} (hts : r.tokens = t :: ts)
    (ht : t.IsOpening ∨ t.IsClosing ∨ t.IsInner ∨ t = .key)
    (hnode : node block bare (n + 1) r = some (a, r')) :
    (∃ plain text, t = .scalar plain text ∧ a = .scalar none none plain text) ∧ r'.tokens = ts
      ∨ ∃ r₁, r₁.tokens = ts
        ∧ (t = .flowSequence ∧ (∃ items, flowItems true n r₁ = some (items, r'))
          ∨ t = .flowMapping ∧ ∃ entries, flowEntries true n r₁ = some (entries, r')) := by
  obtain ⟨halias, hanchor, htag, hentry, hsequence, hmapping⟩ := ne_of_inBrackets ht
  rw [node] at hnode
  obtain ⟨t₀, r₀, hpeek, h⟩ := bind_eq_some_iff.mp hnode
  obtain ⟨rfl, ts₀, hts₀⟩ := peek_eq_some hpeek
  obtain ⟨rfl, -⟩ := List.cons.inj (hts₀.symm.trans hts)
  split at h
  . exact absurd rfl (halias _)
  . obtain ⟨p, r₁, hp, h⟩ := bind_eq_some_iff.mp h
    rw [takeProperties_eq hts hanchor htag] at hp
    cases hp
    obtain ⟨t₁, r₁, hpeek₁, h⟩ := bind_eq_some_iff.mp h
    rw [hpeek] at hpeek₁
    cases hpeek₁
    split at h
    . next plain text _ =>
      obtain ⟨u, r₁, hdiscard, h⟩ := bind_eq_some_iff.mp h
      cases h
      exact .inl ⟨⟨plain, text, rfl, rfl⟩, tokens_of_discard_take hts hdiscard⟩
    . obtain ⟨u, r₁, hdiscard, h⟩ := bind_eq_some_iff.mp h
      obtain ⟨items, r₂, hitems, h⟩ := bind_eq_some_iff.mp h
      cases h
      exact .inr ⟨r₁, tokens_of_discard_take hts hdiscard, .inl ⟨rfl, items, hitems⟩⟩
    . obtain ⟨u, r₁, hdiscard, h⟩ := bind_eq_some_iff.mp h
      obtain ⟨entries, r₂, hentries, h⟩ := bind_eq_some_iff.mp h
      cases h
      exact .inr ⟨r₁, tokens_of_discard_take hts hdiscard, .inr ⟨rfl, entries, hentries⟩⟩
    . exact absurd rfl hentry
    . exact absurd rfl hsequence
    . exact absurd rfl hmapping
    . contradiction

theorem keeps_node_succ {block bare : Bool} (hitems : Leaves post (flowItems true n))
    (hentries : Leaves post (flowEntries true n)) : Keeps post (node block bare (n + 1)) := by
  intro d r a r' h hr
  cases hts : r.tokens with
  | nil =>
    rw [node] at h
    obtain ⟨t, r₁, hpeek, -⟩ := bind_eq_some_iff.mp h
    obtain ⟨-, ts, hts'⟩ := peek_eq_some hpeek
    rw [hts] at hts'
    contradiction
  | cons t ts =>
    rw [hts] at hr
    have ht : t.IsOpening ∨ t.IsClosing ∨ t.IsInner ∨ t = .key := by
      rcases hr.cases with h | h | h | h
      . exact .inl h.1
      . exact .inr (.inl h.1)
      . exact .inr (.inr (.inl h.1))
      . exact .inr (.inr (.inr h.1))
    rcases node_eq_some hts ht h with ⟨⟨plain, text, rfl, -⟩, htail⟩ | ⟨r₁, htail, hflow⟩
    . rw [htail]
      exact hr.inner (.inr (.inr ⟨plain, text, rfl⟩))
    . rcases hflow with ⟨rfl, items, h⟩ | ⟨rfl, entries, h⟩
      . exact hitems h (htail ▸ hr.opening (.inl rfl))
      . exact hentries h (htail ▸ hr.opening (.inr rfl))

theorem keeps_node (n : Nat) :
    (∀ block bare, Keeps post (node block bare n)) ∧ (∀ first, Leaves post (flowItems first n))
      ∧ ∀ first, Leaves post (flowEntries first n) := by
  induction n with
  | zero =>
    refine ⟨?_, ?_, ?_⟩
    . intro block bare d r a r' h
      rw [node] at h
      contradiction
    . intro first d r a r' h
      rw [flowItems] at h
      contradiction
    . intro first d r a r' h
      rw [flowEntries] at h
      contradiction
  | succ n ih =>
    obtain ⟨hnode, hitems, hentries⟩ := ih
    exact ⟨fun _ _ => keeps_node_succ (hitems true) (hentries true),
      leaves_flowItems_succ (hnode false false) (hitems false),
      leaves_flowEntries_succ (hnode false false) (hentries false)⟩

end Reader

end Yaml

end TemplateCheck
