import TemplateCheck.Proofs.Data.Place

/-!
This module contains two relations between trees of data: one is contained in the other, which may
have more entries and more elements at the end of its sequences, and one is the other up to the
order of entries.
-/

namespace TemplateCheck

namespace Data

/--
Whether a tree is contained in another. A mapping may have more entries there, in any order, and a
sequence more elements behind its own.
-/
inductive Within : Data → Data → Prop where
  | scalar {d : Data} (hd : d.isScalar = true) : Within d d
  | sequence {xs ys : List Data} (hlength : xs.length ≤ ys.length)
      (hitems : ∀ (i : Nat) c c', xs[i]? = some c → ys[i]? = some c' → Within c c') :
      Within (.sequence xs) (.sequence ys)
  | mapping {es fs : List (String × Data)} (hkeys : Entries.keys es ⊆ Entries.keys fs)
      (hvalues : ∀ k c c', Entries.get? k es = some c → Entries.get? k fs = some c' →
        Within c c') :
      Within (.mapping es) (.mapping fs)

inductive Reordered : Data → Data → Prop where
  | scalar {d : Data} (hd : d.isScalar = true) : Reordered d d
  | sequence {xs ys : List Data} (hlength : xs.length = ys.length)
      (hitems : ∀ (i : Nat) c c', xs[i]? = some c → ys[i]? = some c' → Reordered c c') :
      Reordered (.sequence xs) (.sequence ys)
  | mapping {es fs : List (String × Data)} (hkeys : (Entries.keys es).Perm (Entries.keys fs))
      (hvalues : ∀ k c c', Entries.get? k es = some c → Entries.get? k fs = some c' →
        Reordered c c') :
      Reordered (.mapping es) (.mapping fs)

theorem Reordered.refl (d : Data) : d.Reordered d := by
  induction d using induction_branches with
  | h d ih =>
    cases d with
    | sequence xs =>
      apply Reordered.sequence rfl
      intro i c c' hc hc'
      rw [hc, Option.some.injEq] at hc'
      rw [← hc']
      exact ih (.index i) c (mem_branches_sequence.mpr ⟨i, rfl, hc⟩)
    | mapping es =>
      apply Reordered.mapping (List.Perm.refl _)
      intro k c c' hc hc'
      rw [hc, Option.some.injEq] at hc'
      rw [← hc']
      exact ih (.key k) c (mem_branches_mapping.mpr ⟨k, rfl, Entries.mem_of_get?_eq_some hc⟩)
    | _ => exact .scalar rfl

theorem Reordered.of_perm {es fs : List (String × Data)} (h : es.Perm fs)
    (hfs : (Entries.keys fs).Nodup) : (Data.mapping es).Reordered (.mapping fs) := by
  apply Reordered.mapping (h.map Prod.fst)
  intro k c c' hc hc'
  have hmem := h.subset (Entries.mem_of_get?_eq_some hc)
  rw [Entries.get?_eq_some_of_mem hfs hmem, Option.some.injEq] at hc'
  rw [← hc']
  exact .refl c

theorem Reordered.symm {d d' : Data} (h : d.Reordered d') : d'.Reordered d := by
  induction h with
  | scalar hd => exact .scalar hd
  | sequence hlength _ ih =>
    apply Reordered.sequence hlength.symm
    intro i c c' hc hc'
    exact ih i c' c hc' hc
  | mapping hkeys _ ih =>
    apply Reordered.mapping hkeys.symm
    intro k c c' hc hc'
    exact ih k c' c hc' hc

theorem Reordered.within {d d' : Data} (h : d.Reordered d') : d.Within d' := by
  induction h with
  | scalar hd => exact .scalar hd
  | sequence hlength _ ih => exact .sequence (Nat.le_of_eq hlength) ih
  | mapping hkeys _ ih => exact .mapping hkeys.subset ih

namespace Within

variable {d d' c : Data}

theorem eq_of_isScalar (h : d.Within d') (hd : d.isScalar = true) : d' = d := by
  cases h with
  | scalar _ => rfl
  | sequence _ _ => contradiction
  | mapping _ _ => contradiction

theorem text?_eq_some (h : d.Within d') {s : String} (hd : d.text? = some s) :
    d'.text? = some s := by
  rw [h.eq_of_isScalar (isScalar_of_text?_eq_some hd)]
  exact hd

theorem exists_step? (h : d.Within d') {b : Branch} (hb : d.step? b = some c) :
    ∃ c', d'.step? b = some c' ∧ c.Within c' := by
  cases h with
  | scalar hd =>
    rw [step?_eq_none_of_isScalar hd] at hb
    contradiction
  | @sequence xs ys hlength hitems =>
    cases b with
    | key k => contradiction
    | index i =>
      have hi : i < ys.length := by
        have := (List.getElem?_eq_some_iff.mp hb).1
        omega
      have hc' := List.getElem?_eq_getElem hi
      exact ⟨ys[i], hc', hitems i c ys[i] hb hc'⟩
  | @mapping es fs hkeys hvalues =>
    cases b with
    | index i => contradiction
    | key k =>
      have hk : k ∈ Entries.keys es :=
        List.mem_map_of_mem (Entries.mem_of_get?_eq_some hb)
      obtain ⟨c', hc'⟩ := Entries.exists_get?_of_mem_keys (hkeys hk)
      exact ⟨c', hc', hvalues k c c' hb hc'⟩

theorem exists_at? (h : d.Within d') {p : Place} (hp : d.at? p = some c) :
    ∃ c', d'.at? p = some c' ∧ c.Within c' := by
  induction p generalizing d d' with
  | nil =>
    rw [at?_nil] at hp
    cases hp
    exact ⟨d', at?_nil d', h⟩
  | cons b p ih =>
    rw [at?_cons, Option.bind_eq_some_iff] at hp
    obtain ⟨e, he, hp⟩ := hp
    obtain ⟨e', he', hwithin⟩ := h.exists_step? he
    rw [at?_cons, he']
    exact ih hwithin hp

end Within

end Data

end TemplateCheck
