import Mathlib.Data.List.Forall2
import TemplateCheck.Yaml.Scan

/-!
This module contains how many brackets are open between the tokens of a YAML text, and the places
among them that may still turn out to be keys.
-/

namespace TemplateCheck

namespace Yaml

namespace Token

def IsOpening (t : Token) : Prop :=
  t = .flowSequence ∨ t = .flowMapping

def IsClosing (t : Token) : Prop :=
  t = .flowSequenceEnd ∨ t = .flowMappingEnd

def IsInner (t : Token) : Prop :=
  t = .separator ∨ t = .value ∨ ∃ plain text, t = .scalar plain text

def IsFront (t : Token) : Prop :=
  t.IsOpening ∨ ∃ plain text, t = .scalar plain text

end Token

/--
Whether tokens, read with so many brackets open, leave `e` of them open, and none follows the one
that closes the last bracket. The mark of a key stands in front of a node or of another such mark.
-/
inductive Levels (e : Nat) : Nat → List Token → Prop
  | nil : Levels e e []
  | opening {d : Nat} {t : Token} {ts : List Token} (ht : t.IsOpening) (h : Levels e (d + 2) ts) :
    Levels e (d + 1) (t :: ts)
  | closing {d : Nat} {t : Token} {ts : List Token} (ht : t.IsClosing) (h : Levels e d ts) :
    Levels e (d + 1) (t :: ts)
  | inner {d : Nat} {t : Token} {ts : List Token} (ht : t.IsInner) (h : Levels e (d + 1) ts) :
    Levels e (d + 1) (t :: ts)
  | key {d : Nat} {t : Token} {ts : List Token} (ht : t.IsFront ∨ t = .key)
    (h : Levels e (d + 1) (t :: ts)) : Levels e (d + 1) (.key :: t :: ts)

namespace Levels

variable {d e f : Nat} {ts us : List Token}

theorem append (h : Levels e d ts) (h' : Levels f e us) : Levels f d (ts ++ us) := by
  induction h with
  | nil => exact h'
  | opening ht _ ih => exact .opening ht ih
  | closing ht _ ih => exact .closing ht ih
  | inner ht _ ih => exact .inner ht ih
  | key ht _ ih => exact .key ht ih

theorem insert_key (h : Levels e d ts) {i : Nat} {t : Token} (hi : ts[i]? = some t)
    (ht : t.IsFront) : Levels e d (ts.take i ++ .key :: ts.drop i) := by
  induction h generalizing i with
  | nil => contradiction
  | opening hopening h ih =>
    cases i with
    | zero =>
      cases hi
      exact .key (.inl ht) (.opening hopening h)
    | succ i => exact .opening hopening (ih hi)
  | closing hclosing h ih =>
    cases i with
    | zero =>
      cases hi
      exact .key (.inl ht) (.closing hclosing h)
    | succ i => exact .closing hclosing (ih hi)
  | inner hinner h ih =>
    cases i with
    | zero =>
      cases hi
      exact .key (.inl ht) (.inner hinner h)
    | succ i => exact .inner hinner (ih hi)
  | key hkey h ih =>
    cases i with
    | zero =>
      cases hi
      exact .key (.inl ht) (.key hkey h)
    | succ i =>
      cases i with
      | zero => exact .key (.inr rfl) (ih hi)
      | succ i => exact .key hkey (ih hi)

end Levels

def Marks (tokens : List Token) : Nat → List (Option PendingKey) → Prop
  | _, [] => True
  | n, none :: ps => Marks tokens n ps
  | n, some k :: ps => 0 < k.token ∧ k.token < n
    ∧ (∃ t, tokens[k.token]? = some t ∧ t.IsFront) ∧ Marks tokens k.token ps

namespace Marks

variable {tokens tokens' : List Token} {n n' : Nat} {ps ps' : List (Option PendingKey)}

theorem mono (hn : n ≤ n') (h : Marks tokens n ps) : Marks tokens n' ps := by
  induction ps with
  | nil => trivial
  | cons p ps ih =>
    cases p with
    | none => exact ih h
    | some k => exact ⟨h.1, by have := h.2.1; omega, h.2.2⟩

theorem congr (ht : ∀ i, i < n → tokens'[i]? = tokens[i]?) (h : Marks tokens n ps) :
    Marks tokens' n ps := by
  induction ps generalizing n with
  | nil => trivial
  | cons p ps ih =>
    cases p with
    | none => exact ih ht h
    | some k =>
      obtain ⟨hpos, hk, hfront, h⟩ := h
      refine ⟨hpos, hk, ?_, ih (fun i hi => ht i (by omega)) h⟩
      rw [ht k.token hk]
      exact hfront

theorem tail {p : Option PendingKey} (h : Marks tokens n (p :: ps)) : Marks tokens n ps := by
  cases p with
  | none => exact h
  | some k => exact h.2.2.2.mono (by have := h.2.1; omega)

theorem of_forall₂ (hps : List.Forall₂ (fun p p' => p' = none ∨ p' = p) ps ps')
    (h : Marks tokens n ps) : Marks tokens n ps' := by
  induction hps generalizing n with
  | nil => trivial
  | @cons p p' ps ps' hp _ ih =>
    rcases hp with rfl | rfl
    . exact ih h.tail
    . cases p' with
      | none => exact ih h
      | some k => exact ⟨h.1, h.2.1, h.2.2.1, ih h.2.2.2⟩

theorem cons_last {t : Token} {k : PendingKey} (hpos : 0 < tokens.length) (ht : t.IsFront)
    (hk : k.token = tokens.length) (h : Marks tokens tokens.length ps) :
    Marks (tokens ++ [t]) (tokens.length + 1) (some k :: ps) := by
  refine ⟨by omega, by omega, ⟨t, by simp [hk], ht⟩, ?_⟩
  rw [hk]
  apply h.congr
  intro i hi
  exact List.getElem?_append_left hi

theorem append {t : Token} (h : Marks tokens tokens.length ps) :
    Marks (tokens ++ [t]) (tokens.length + 1) ps := by
  apply (h.congr ?_).mono (Nat.le_succ _)
  intro i hi
  exact List.getElem?_append_left hi

end Marks

namespace Scan

theorem keep?_eq_some {c : Cursor} {p p' : Option PendingKey} (h : keep? c p = some p') :
    p' = none ∨ p' = p := by
  unfold keep? at h
  split at h
  . exact .inl (Option.some.inj h).symm
  . split at h
    . split at h
      . contradiction
      . exact .inl (Option.some.inj h).symm
    . exact .inr (Option.some.inj h).symm

theorem forall₂_of_mapM_keep? {c : Cursor} {ps ps' : List (Option PendingKey)}
    (h : ps.mapM (keep? c) = some ps') :
    List.Forall₂ (fun p p' => p' = none ∨ p' = p) ps ps' := by
  induction ps generalizing ps' with
  | nil =>
    cases h
    exact .nil
  | cons p ps ih =>
    rw [List.mapM_cons, Option.bind_eq_bind, Option.bind_eq_some_iff] at h
    obtain ⟨p', hp, h⟩ := h
    rw [Option.bind_eq_bind, Option.bind_eq_some_iff] at h
    obtain ⟨ps'', hps, h⟩ := h
    cases h
    exact .cons (keep?_eq_some hp) (ih hps)

theorem dropStale?_eq_some {s s' : Scan} (h : s.dropStale? = some s') :
    ∃ p ps, s' = { s with pending? := p, outerPending := ps } ∧ (p = none ∨ p = s.pending?)
      ∧ List.Forall₂ (fun p p' => p' = none ∨ p' = p) s.outerPending ps := by
  unfold dropStale? at h
  rw [Option.bind_eq_bind, Option.bind_eq_some_iff] at h
  obtain ⟨p, hp, h⟩ := h
  rw [Option.bind_eq_bind, Option.bind_eq_some_iff] at h
  obtain ⟨ps, hps, h⟩ := h
  cases h
  exact ⟨p, ps, rfl, keep?_eq_some hp, forall₂_of_mapM_keep? hps⟩

theorem pending?_of_dropStale? {s s' : Scan}
    (hstale : ∀ k, s.pending? = some k → k.line < s.cursor.line) (h : s.dropStale? = some s') :
    s'.pending? = none := by
  unfold dropStale? at h
  obtain ⟨p, hp, h⟩ := Option.bind_eq_some_iff.mp h
  obtain ⟨ps, -, h⟩ := Option.bind_eq_some_iff.mp h
  cases h
  unfold keep? at hp
  split at hp
  . exact (Option.some.inj hp).symm
  . next k hk =>
    rw [if_pos (by simp [hstale k hk])] at hp
    split at hp
    . contradiction
    . exact (Option.some.inj hp).symm

theorem dropPending?_eq_some {s s' : Scan} (h : s.dropPending? = some s') :
    s' = { s with pending? := none } := by
  unfold dropPending? at h
  split at h
  . contradiction
  . exact (Option.some.inj h).symm

theorem savePending?_eq_some {s s' : Scan} (h : s.savePending? = some s') :
    s.keyAllowed = false ∧ s' = s ∨ ∃ k : PendingKey, k.token = s.count ∧ k.line = s.cursor.line
      ∧ s' = { s with pending? := some k } := by
  unfold savePending? at h
  split at h
  . rw [Option.map_eq_some_iff] at h
    obtain ⟨s₁, hs₁, rfl⟩ := h
    rw [dropPending?_eq_some hs₁]
    exact .inr ⟨_, rfl, rfl, rfl⟩
  . next hkey => exact .inl ⟨by simpa using hkey, (Option.some.inj h).symm⟩

theorem closeBlocks_eq_self {s : Scan} (h : s.margins = []) (limit : Nat) :
    s.closeBlocks limit = s := by
  unfold closeBlocks
  split
  . rfl
  . rw [h]
    cases s
    cases h
    rfl

theorem length_insert (s : Scan) (n : Nat) (t : Token) :
    (s.insert n t).tokens.length = s.tokens.length + 1 := by
  rw [insert, List.length_append, List.length_cons, ← Nat.add_assoc, ← List.length_append,
    List.take_append_drop]

theorem reverse_tokens_insert {s : Scan} (hs : s.count = s.tokens.length) (n : Nat) (t : Token) :
    (s.insert n t).tokens.reverse = s.tokens.reverse.take n ++ t :: s.tokens.reverse.drop n := by
  unfold insert
  dsimp only
  rw [List.reverse_append, List.reverse_cons, List.append_assoc, List.singleton_append]
  rw [List.take_reverse, List.drop_reverse, ← hs]

end Scan

end Yaml

end TemplateCheck
