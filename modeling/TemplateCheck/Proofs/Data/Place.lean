import Mathlib.Data.List.Nodup
import TemplateCheck.Data
import TemplateCheck.Proofs.Data.Entries

/-!
This module contains the places of a tree whose mappings have distinct keys: what lies at the end of
two ways behind one another, and that the nodes inside a node are those one step away.
-/

namespace TemplateCheck

namespace Branch

variable {α : Type}

theorem nodup_index (items : List α) :
    ((items.zipIdx.map fun x => (Branch.index x.2, x.1)).map Prod.fst).Nodup := by
  have hmap : (items.zipIdx.map fun x => (Branch.index x.2, x.1)).map Prod.fst
      = (List.range' 0 items.length).map .index := by
    rw [List.map_map, ← List.zipIdx_map_snd 0 items, List.map_map]
    rfl
  rw [hmap]
  apply List.Pairwise.map _ _ List.nodup_range'
  intro i j hij heq
  cases heq
  contradiction

theorem nodup_key {entries : List (String × α)} (h : (Entries.keys entries).Nodup) :
    ((entries.map fun e => (Branch.key e.1, e.2)).map Prod.fst).Nodup := by
  have hmap : (entries.map fun e => (Branch.key e.1, e.2)).map Prod.fst
      = (Entries.keys entries).map .key := by
    unfold Entries.keys
    rw [List.map_map, List.map_map]
    rfl
  rw [hmap]
  apply List.Pairwise.map _ _ h
  intro k l hkl heq
  cases heq
  contradiction

variable {β : Type}

theorem nodup_map_cons {b : Branch} {xs : List (Place × β)} (h : xs.Nodup) :
    (xs.map fun x => (b :: x.1, x.2)).Nodup := by
  apply List.Pairwise.map _ _ h
  intro x y hne heq
  rw [Prod.mk.injEq, List.cons.injEq] at heq
  exact hne (Prod.ext heq.1.2 heq.2)

theorem nodup_flatMap {bs : List (Branch × α)} {g : Branch × α → List (Place × β)}
    (hbs : (bs.map Prod.fst).Nodup) (hhead : ∀ b ∈ bs, ∀ x ∈ g b, x.1.head? = some b.1)
    (hg : ∀ b ∈ bs, (g b).Nodup) : (bs.flatMap g).Nodup := by
  rw [List.nodup_flatMap]
  refine ⟨hg, (List.pairwise_map.mp hbs).imp_of_mem ?_⟩
  intro b c hb hc hne x hxb hxc
  have heq := hhead c hc x hxc
  rw [hhead b hb x hxb, Option.some.injEq] at heq
  exact hne heq

end Branch

namespace Data

mutual

def keysDistinct : Data → Bool
  | .sequence items => keysDistinctItems items
  | .mapping entries => decide (Entries.keys entries).Nodup && keysDistinctEntries entries
  | _ => true

def keysDistinctItems : List Data → Bool
  | [] => true
  | d :: ds => d.keysDistinct && keysDistinctItems ds

def keysDistinctEntries : List (String × Data) → Bool
  | [] => true
  | (_, d) :: es => d.keysDistinct && keysDistinctEntries es

end

theorem at?_nil (d : Data) : d.at? [] = some d := by
  unfold at?
  rfl

theorem at?_cons (b : Branch) (p : Place) (d : Data) :
    d.at? (b :: p) = (d.step? b).bind (at? p) := by
  rw [at?]

theorem at?_append (p q : Place) (d : Data) : d.at? (p ++ q) = (d.at? p).bind (at? q) := by
  induction p generalizing d with
  | nil =>
    rw [List.nil_append, at?_nil]
    rfl
  | cons b p ih =>
    rw [List.cons_append, at?_cons, at?_cons, Option.bind_assoc]
    congr 1
    funext c
    exact ih c

theorem at?_concat (p : Place) (b : Branch) (d : Data) :
    d.at? (p ++ [b]) = (d.at? p).bind (step? b) := by
  rw [at?_append]
  congr 1
  funext c
  rw [at?_cons]
  cases c.step? b with
  | none => rfl
  | some e => exact at?_nil e

theorem isScalar_of_text?_eq_some {d : Data} {s : String} (h : d.text? = some s) :
    d.isScalar = true := by
  cases d with
  | sequence items => contradiction
  | mapping entries => contradiction
  | _ => rfl

theorem step?_eq_none_of_isScalar {d : Data} (hd : d.isScalar = true) (b : Branch) :
    d.step? b = none := by
  cases d with
  | sequence items => contradiction
  | mapping entries => contradiction
  | _ =>
    cases b with
    | key k => rfl
    | index i => rfl

theorem keysDistinct_of_isScalar {c : Data} (hc : c.isScalar = true) : c.keysDistinct = true := by
  cases c with
  | sequence items => contradiction
  | mapping entries => contradiction
  | _ => rfl

theorem keysDistinctItems_iff {ds : List Data} :
    keysDistinctItems ds = true ↔ ∀ d ∈ ds, d.keysDistinct = true := by
  induction ds with
  | nil => simp [keysDistinctItems]
  | cons d ds ih =>
    unfold keysDistinctItems
    rw [Bool.and_eq_true, ih, List.forall_mem_cons]

theorem keysDistinctEntries_iff {es : List (String × Data)} :
    keysDistinctEntries es = true ↔ ∀ e ∈ es, e.2.keysDistinct = true := by
  induction es with
  | nil => simp [keysDistinctEntries]
  | cons e es ih =>
    unfold keysDistinctEntries
    rw [Bool.and_eq_true, ih, List.forall_mem_cons]

theorem keysDistinct_mapping_iff {es : List (String × Data)} :
    (mapping es).keysDistinct = true
      ↔ (Entries.keys es).Nodup ∧ ∀ e ∈ es, e.2.keysDistinct = true := by
  rw [keysDistinct, Bool.and_eq_true, decide_eq_true_eq, keysDistinctEntries_iff]

theorem mem_branches_sequence {items : List Data} {b : Branch} {c : Data} :
    (b, c) ∈ (Data.sequence items).branches ↔ ∃ i, b = .index i ∧ items[i]? = some c := by
  unfold branches
  rw [List.mem_map]
  constructor
  . intro ⟨x, hx, heq⟩
    cases heq
    exact ⟨x.2, rfl, List.mem_zipIdx_iff_getElem?.mp hx⟩
  . intro ⟨i, hb, hi⟩
    subst hb
    exact ⟨(c, i), List.mem_zipIdx_iff_getElem?.mpr hi, rfl⟩

theorem mem_branches_mapping {entries : List (String × Data)} {b : Branch} {c : Data} :
    (b, c) ∈ (Data.mapping entries).branches ↔ ∃ k, b = .key k ∧ (k, c) ∈ entries := by
  unfold branches
  rw [List.mem_map]
  constructor
  . intro ⟨e, he, heq⟩
    cases heq
    exact ⟨e.1, rfl, he⟩
  . intro ⟨k, hb, hk⟩
    subst hb
    exact ⟨(k, c), hk, rfl⟩

theorem mem_branches_iff {d : Data} (hd : d.keysDistinct = true) {b : Branch} {c : Data} :
    (b, c) ∈ d.branches ↔ d.step? b = some c := by
  cases d with
  | sequence items =>
    rw [mem_branches_sequence]
    cases b with
    | key k => simp [step?]
    | index i => simp [step?]
  | mapping entries =>
    rw [keysDistinct_mapping_iff] at hd
    rw [mem_branches_mapping]
    cases b with
    | index i => simp [step?]
    | key k =>
      change (∃ k', Branch.key k = .key k' ∧ _) ↔ Entries.get? k entries = some c
      constructor
      . intro ⟨k', hk, hmem⟩
        cases hk
        exact Entries.get?_eq_some_of_mem hd.1 hmem
      . intro h
        exact ⟨k, rfl, Entries.mem_of_get?_eq_some h⟩
  | null => simp [branches, step?]
  | boolean v => simp [branches, step?]
  | number v => simp [branches, step?]
  | string v => simp [branches, step?]

theorem sizeOf_lt_of_mem_branches {d : Data} {b : Branch} {c : Data} (h : (b, c) ∈ d.branches) :
    sizeOf c < sizeOf d := by
  cases d with
  | sequence items =>
    obtain ⟨i, _, hi⟩ := mem_branches_sequence.mp h
    have := List.sizeOf_lt_of_mem (List.mem_of_getElem? hi)
    simp only [sequence.sizeOf_spec]
    omega
  | mapping entries =>
    obtain ⟨k, _, hk⟩ := mem_branches_mapping.mp h
    have := List.sizeOf_lt_of_mem hk
    simp only [Prod.mk.sizeOf_spec] at this
    simp only [mapping.sizeOf_spec]
    omega
  | _ => contradiction

theorem induction_branches {motive : Data → Prop}
    (h : ∀ d : Data, (∀ b c, (b, c) ∈ d.branches → motive c) → motive d) (d : Data) :
    motive d := by
  apply h
  intro b c hc
  have := sizeOf_lt_of_mem_branches hc
  exact induction_branches h c
termination_by sizeOf d

theorem nodup_branches {d : Data} (hd : d.keysDistinct = true) :
    (d.branches.map Prod.fst).Nodup := by
  cases d with
  | sequence items => exact Branch.nodup_index items
  | mapping entries =>
    rw [keysDistinct_mapping_iff] at hd
    exact Branch.nodup_key hd.1
  | _ => exact List.nodup_nil

theorem keysDistinct_of_mem_branches {d : Data} (hd : d.keysDistinct = true) {b : Branch}
    {c : Data} (h : (b, c) ∈ d.branches) : c.keysDistinct = true := by
  cases d with
  | sequence items =>
    obtain ⟨i, _, hi⟩ := mem_branches_sequence.mp h
    unfold keysDistinct at hd
    exact keysDistinctItems_iff.mp hd c (List.mem_of_getElem? hi)
  | mapping entries =>
    obtain ⟨k, _, hk⟩ := mem_branches_mapping.mp h
    rw [keysDistinct_mapping_iff] at hd
    exact hd.2 (k, c) hk
  | _ => contradiction

theorem keysDistinct_of_at? {d : Data} (hd : d.keysDistinct = true) {p : Place} {c : Data}
    (h : d.at? p = some c) : c.keysDistinct = true := by
  induction p generalizing d with
  | nil =>
    rw [at?_nil] at h
    cases h
    exact hd
  | cons b p ih =>
    rw [at?_cons, Option.bind_eq_some_iff] at h
    obtain ⟨e, he, h⟩ := h
    exact ih (keysDistinct_of_mem_branches hd ((mem_branches_iff hd).mpr he)) h

end Data

end TemplateCheck
