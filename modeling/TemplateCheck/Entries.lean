/-!
This module contains the entries of a mapping: pairs of a key and a value in the order in which the
keys first arrived.
-/

namespace TemplateCheck

abbrev Entries (κ α : Type) := List (κ × α)

namespace Entries

variable {κ α β : Type} [DecidableEq κ]

/--
Enters a value under a key: a key that is there keeps its place and takes the new value, a new key
goes to the end.
-/
def insert (k : κ) (v : α) : Entries κ α → Entries κ α
  | [] => [(k, v)]
  | (k', v') :: es => if k' = k then (k, v) :: es else (k', v') :: insert k v es

def ofPairs (pairs : List (κ × α)) : Entries κ α :=
  pairs.foldl (fun es p => insert p.1 p.2 es) []

def get? (k : κ) : Entries κ α → Option α
  | [] => none
  | (k', v) :: es => if k' = k then some v else get? k es

def keys (es : Entries κ α) : List κ :=
  es.map Prod.fst

theorem keys_insert_of_mem {k : κ} {v : α} {es : Entries κ α} (h : k ∈ keys es) :
    keys (insert k v es) = keys es := by
  induction es with
  | nil => simp [keys] at h
  | cons e es ih =>
    obtain ⟨k', v'⟩ := e
    unfold insert
    split
    . simp_all [keys]
    . simp only [keys, List.map_cons, List.mem_cons] at h
      have : k ∈ keys es := by
        rcases h with h | h
        . exact absurd h.symm (by assumption)
        . exact h
      simp only [keys, List.map_cons] at ih ⊢
      rw [ih this]

theorem keys_insert_of_not_mem {k : κ} {v : α} {es : Entries κ α} (h : k ∉ keys es) :
    keys (insert k v es) = keys es ++ [k] := by
  induction es with
  | nil => rfl
  | cons e es ih =>
    obtain ⟨k', v'⟩ := e
    simp only [keys, List.map_cons, List.mem_cons, not_or] at h
    unfold insert
    rw [if_neg (fun he => h.1 he.symm)]
    simp only [keys, List.map_cons, List.cons_append] at ih ⊢
    rw [ih h.2]

theorem get?_insert_self (k : κ) (v : α) (es : Entries κ α) : get? k (insert k v es) = some v := by
  induction es with
  | nil => simp [insert, get?]
  | cons e es ih =>
    unfold insert
    split <;> simp_all [get?]

theorem get?_insert_of_ne {k k' : κ} (v : α) (es : Entries κ α) (h : k' ≠ k) :
    get? k' (insert k v es) = get? k' es := by
  induction es with
  | nil => simp [insert, get?, Ne.symm h]
  | cons e es ih =>
    unfold insert
    split
    . simp_all [get?, Ne.symm h]
    . simp only [get?, ih]

end Entries

end TemplateCheck
