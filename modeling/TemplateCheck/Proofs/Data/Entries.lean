import TemplateCheck.Entries

/-!
This module contains the entries of a mapping with distinct keys, and what the entries that arise
from pairs are: a key stands where it arrived first, with the value that arrived last.
-/

namespace TemplateCheck

namespace Entries

variable {κ α β : Type} [DecidableEq κ]

theorem get?_eq_some_of_mem {es : Entries κ α}
    (hes : (keys es).Nodup) {k : κ} {v : α} (h : (k, v) ∈ es) : get? k es = some v := by
  induction es with
  | nil => contradiction
  | cons e es ih =>
    obtain ⟨k', v'⟩ := e
    unfold keys at hes ih
    rw [List.map_cons, List.nodup_cons] at hes
    unfold get?
    rw [List.mem_cons] at h
    cases h with
    | inl h =>
      cases h
      rw [if_pos rfl]
    | inr h =>
      have hne : k' ≠ k := by
        intro heq
        apply hes.1
        rw [List.mem_map]
        exact ⟨(k, v), h, heq.symm⟩
      rw [if_neg hne]
      exact ih hes.2 h

theorem mem_of_get?_eq_some {es : Entries κ α} {k : κ} {v : α}
    (h : get? k es = some v) : (k, v) ∈ es := by
  induction es with
  | nil => contradiction
  | cons e es ih =>
    obtain ⟨k', v'⟩ := e
    unfold get? at h
    split at h
    . next heq =>
      cases h
      rw [heq]
      exact List.mem_cons_self
    . exact List.mem_cons_of_mem _ (ih h)

theorem exists_get?_of_mem_keys {es : Entries κ α} {k : κ}
    (h : k ∈ keys es) : ∃ v, get? k es = some v := by
  induction es with
  | nil => contradiction
  | cons e es ih =>
    unfold get?
    split
    . exact ⟨e.2, rfl⟩
    . next hne =>
      unfold keys at h ih
      rw [List.map_cons, List.mem_cons] at h
      cases h with
      | inl h => exact absurd h.symm hne
      | inr h => exact ih h

theorem exists_insert_eq_append {es : Entries κ α} {k : κ} {v : α} (h : get? k es = some v)
    (w : α) :
    ∃ before after, es = before ++ (k, v) :: after
      ∧ insert k w es = before ++ (k, w) :: after := by
  induction es with
  | nil => contradiction
  | cons e es ih =>
    obtain ⟨k', v'⟩ := e
    unfold get? at h
    unfold insert
    split at h
    . next heq =>
      subst heq
      rw [Option.some.injEq] at h
      rw [if_pos rfl, h]
      exact ⟨[], es, rfl, rfl⟩
    . next hne =>
      obtain ⟨before, after, hes, hinsert⟩ := ih h
      rw [if_neg hne, hinsert, hes]
      exact ⟨(k', v') :: before, after, rfl, rfl⟩

theorem nodup_keys_insert (k : κ) (v : α) {es : Entries κ α} (hes : (keys es).Nodup) :
    (keys (insert k v es)).Nodup := by
  by_cases hk : k ∈ keys es
  . rw [keys_insert_of_mem hk]
    exact hes
  . rw [keys_insert_of_not_mem hk, List.nodup_append]
    refine ⟨hes, List.pairwise_singleton _ k, ?_⟩
    intro a ha b hb heq
    rw [List.mem_singleton] at hb
    rw [heq, hb] at ha
    contradiction

theorem mem_of_mem_insert {k : κ} {v : α} {es : Entries κ α} {e : κ × α}
    (h : e ∈ insert k v es) : e = (k, v) ∨ e ∈ es := by
  induction es with
  | nil => exact .inl (List.mem_singleton.mp h)
  | cons e' es ih =>
    unfold insert at h
    split at h
    . rw [List.mem_cons] at h
      cases h with
      | inl h => exact .inl h
      | inr h => exact .inr (List.mem_cons_of_mem _ h)
    . rw [List.mem_cons] at h
      cases h with
      | inl h =>
        rw [h]
        exact .inr List.mem_cons_self
      | inr h =>
        cases ih h with
        | inl h => exact .inl h
        | inr h => exact .inr (List.mem_cons_of_mem _ h)

theorem nodup_keys_ofPairs (pairs : List (κ × α)) : (keys (ofPairs pairs)).Nodup := by
  unfold ofPairs
  apply List.foldlRecOn pairs _ (motive := fun es => (keys es).Nodup)
  . exact List.nodup_nil
  . intro es hes p _
    exact nodup_keys_insert p.1 p.2 hes

theorem mem_of_mem_ofPairs {pairs : List (κ × α)} : ∀ e ∈ ofPairs pairs, e ∈ pairs := by
  unfold ofPairs
  apply List.foldlRecOn pairs _ (motive := fun es => ∀ e ∈ es, e ∈ pairs)
  . intro e he
    contradiction
  . intro es hes p hp e he
    cases mem_of_mem_insert he with
    | inl he =>
      rw [he]
      exact hp
    | inr he => exact hes e he

theorem map_insert (f : α → β) (k : κ) (v : α) (es : Entries κ α) :
    (insert k v es).map (fun e => (e.1, f e.2))
      = insert k (f v) (es.map fun e => (e.1, f e.2)) := by
  induction es with
  | nil => rfl
  | cons e es ih =>
    rw [List.map_cons, insert, insert]
    split
    . rfl
    . rw [List.map_cons, ih]

theorem map_ofPairs (f : α → β) (pairs : List (κ × α)) :
    (ofPairs pairs).map (fun e => (e.1, f e.2)) = ofPairs (pairs.map fun p => (p.1, f p.2)) := by
  unfold ofPairs
  rw [List.foldl_map, ← List.foldl_hom (f := List.map fun e : κ × α => (e.1, f e.2))]
  . rfl
  . intro es p
    exact (map_insert f p.1 p.2 es).symm

theorem keys_foldl_insert (pairs : List (κ × α)) (es : Entries κ α) :
    keys (pairs.foldl (fun es p => insert p.1 p.2 es) es)
      = keys es ++ ((keys pairs).removeAll (keys es)).eraseDups := by
  induction pairs generalizing es with
  | nil => exact (List.append_nil _).symm
  | cons p pairs ih =>
    have hkeys : keys (p :: pairs) = p.1 :: keys pairs := rfl
    rw [List.foldl_cons, ih, hkeys, List.cons_removeAll]
    by_cases hp : p.1 ∈ keys es
    . rw [keys_insert_of_mem hp, if_neg (by simpa using hp)]
    -- what arrives under a new key later on is not new then
    . have hrest : (keys pairs).removeAll (keys es ++ [p.1])
          = ((keys pairs).removeAll (keys es)).filter fun k => !k == p.1 := by
        unfold List.removeAll
        rw [List.filter_filter]
        apply List.filter_congr
        intro k _
        simp [Bool.and_comm, Bool.beq_eq_decide_eq]
      rw [keys_insert_of_not_mem hp, if_pos (by simpa using hp), List.eraseDups_cons, hrest]
      rw [List.append_assoc]
      rfl

theorem keys_ofPairs (pairs : List (κ × α)) : keys (ofPairs pairs) = (keys pairs).eraseDups := by
  have hall : (keys pairs).removeAll [] = keys pairs := by simp [List.removeAll]
  unfold ofPairs
  rw [keys_foldl_insert]
  exact congrArg List.eraseDups hall

def IsLast (k : κ) (v : α) (pairs : List (κ × α)) : Prop :=
  ∃ before after, pairs = before ++ (k, v) :: after ∧ k ∉ keys after

omit [DecidableEq κ] in
theorem isLast_cons_iff {k : κ} {v : α} {p : κ × α} {pairs : List (κ × α)} :
    IsLast k v (p :: pairs) ↔ (p = (k, v) ∧ k ∉ keys pairs) ∨ IsLast k v pairs := by
  constructor
  . intro ⟨before, after, hpairs, hafter⟩
    cases before with
    | nil =>
      rw [List.nil_append, List.cons.injEq] at hpairs
      rw [hpairs.2]
      exact .inl ⟨hpairs.1, hafter⟩
    | cons q before =>
      rw [List.cons_append, List.cons.injEq] at hpairs
      exact .inr ⟨before, after, hpairs.2, hafter⟩
  . intro h
    rcases h with ⟨hp, hk⟩ | ⟨before, after, hpairs, hafter⟩
    . rw [hp]
      exact ⟨[], pairs, rfl, hk⟩
    . rw [hpairs]
      exact ⟨p :: before, after, rfl, hafter⟩

theorem get?_foldl_insert_iff {pairs : List (κ × α)} {es : Entries κ α} {k : κ} {v : α} :
    get? k (pairs.foldl (fun es p => insert p.1 p.2 es) es) = some v
      ↔ IsLast k v pairs ∨ (k ∉ keys pairs ∧ get? k es = some v) := by
  induction pairs generalizing es with
  | nil => simp [IsLast, keys]
  | cons p pairs ih =>
    obtain ⟨k', w⟩ := p
    have hkeys : keys ((k', w) :: pairs) = k' :: keys pairs := rfl
    rw [List.foldl_cons, ih, isLast_cons_iff, hkeys, List.mem_cons, not_or, Prod.mk.injEq]
    by_cases hk : k = k'
    . rw [hk, get?_insert_self, Option.some.injEq]
      grind
    . rw [get?_insert_of_ne _ _ hk]
      grind

theorem mem_ofPairs_iff {pairs : List (κ × α)} {k : κ} {v : α} :
    (k, v) ∈ ofPairs pairs ↔ IsLast k v pairs := by
  constructor
  . intro h
    have hget := get?_eq_some_of_mem (nodup_keys_ofPairs pairs) h
    rcases get?_foldl_insert_iff.mp hget with hlast | ⟨_, hnone⟩
    . exact hlast
    . contradiction
  . intro hlast
    exact mem_of_get?_eq_some (get?_foldl_insert_iff.mpr (.inl hlast))

end Entries

end TemplateCheck
