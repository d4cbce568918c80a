import TemplateCheck.Proofs.Data.Entries
import TemplateCheck.Proofs.Template.Leaves

/-!
This module contains the places of a template, and what becomes of its leaves when another template
is put in one of them: those below the place make way for the leaves of the new template, and all
others stay as they are.
-/

namespace TemplateCheck

namespace Template

def step? : Branch → Template → Option Template
  | .key k, .mapping es => Entries.get? k es
  | .index i, .sequence ts => ts[i]?
  | _, _ => none

def at? : Place → Template → Option Template
  | [], t => some t
  | b :: p, t => (t.step? b).bind (at? p)

def replace : Template → Branch → Template → Template
  | .mapping es, .key k, new => .mapping (Entries.insert k new es)
  | .sequence ts, .index i, new => .sequence (ts.set i new)
  | t, _, _ => t

def put : Template → Place → Template → Template
  | _, [], new => new
  | t, b :: p, new =>
    match t.step? b with
    | some sub => t.replace b (sub.put p new)
    | none => t

def underPlace (p : Place) (leaves : List (Place × Leaf)) : List (Place × Leaf) :=
  leaves.map fun l => (p ++ l.1, l.2)

theorem under_underPlace (b : Branch) (p : Place) (ls : List (Place × Leaf)) :
    under b (underPlace p ls) = underPlace (b :: p) ls := by
  unfold under underPlace
  rw [List.map_map]
  rfl

theorem underPlace_nil (ls : List (Place × Leaf)) : underPlace [] ls = ls := by
  unfold underPlace
  simp

theorem at?_cons_eq_some_iff {b : Branch} {p : Place} {t sub : Template} :
    t.at? (b :: p) = some sub ↔ ∃ t', t.step? b = some t' ∧ t'.at? p = some sub := by
  rw [at?, Option.bind_eq_some_iff]

theorem at?_concat {p : Place} {b : Branch} {t : Template} :
    t.at? (p ++ [b]) = (t.at? p).bind (step? b) := by
  induction p generalizing t with
  | nil =>
    rw [List.nil_append, at?, at?, Option.bind_some]
    cases t.step? b with
    | none => rfl
    | some t' => rw [Option.bind_some, at?]
  | cons c p ih =>
    rw [List.cons_append, at?, at?, Option.bind_assoc]
    congr 1
    funext t'
    exact ih

theorem mem_branches_iff {t : Template} (ht : t.keysDistinct = true) {b : Branch}
    {t' : Template} : (b, t') ∈ t.branches ↔ t.step? b = some t' := by
  cases t with
  | wildcard => simp [branches, step?]
  | scalar s => simp [branches, step?]
  | sequence ts =>
    rw [mem_branches_sequence]
    cases b with
    | key k => simp [step?]
    | index i => simp [step?]
  | mapping es =>
    rw [mem_branches_mapping]
    cases b with
    | index i => simp [step?]
    | key k =>
      change (∃ k', Branch.key k = .key k' ∧ _) ↔ Entries.get? k es = some t'
      constructor
      . rintro ⟨k', hk, hmem⟩
        cases hk
        exact Entries.get?_eq_some_of_mem (keysDistinct_mapping_iff.mp ht).1 hmem
      . intro h
        exact ⟨k, rfl, Entries.mem_of_get?_eq_some h⟩

theorem put_cons {b : Branch} {t t' : Template} (h : t.step? b = some t') (p : Place)
    (new : Template) : t.put (b :: p) new = t.replace b (t'.put p new) := by
  rw [put, h]

theorem isContainer_of_step? {t sub : Template} {b : Branch} (h : t.step? b = some sub) :
    t.isContainer = true := by
  cases t with
  | sequence ts => rfl
  | mapping es => rfl
  | _ => cases b <;> contradiction

theorem isContainer_replace (t : Template) (b : Branch) (new : Template) :
    (t.replace b new).isContainer = t.isContainer := by
  cases t <;> cases b <;> rfl

theorem exists_branches_replace {t sub : Template} {b : Branch} (h : t.step? b = some sub)
    (new : Template) :
    ∃ before after, t.branches = before ++ (b, sub) :: after
      ∧ (t.replace b new).branches = before ++ (b, new) :: after := by
  cases t with
  | wildcard => cases b <;> contradiction
  | scalar s => cases b <;> contradiction
  | sequence ts =>
    cases b with
    | key k => contradiction
    | index i =>
      change ts[i]? = some sub at h
      obtain ⟨hi, hsub⟩ := List.getElem?_eq_some_iff.mp h
      obtain ⟨before, after, hts, hlength, hset⟩ : ∃ before after, ts = before ++ ts[i] :: after
          ∧ before.length = i ∧ ts.set i new = before ++ new :: after := List.exists_of_set hi
      rw [hsub] at hts
      rw [replace, branches, branches, hset, hts]
      -- the positions in front of the element do not depend on what stands there
      simp only [List.zipIdx_append, List.zipIdx_cons, List.map_append, List.map_cons]
      rw [Nat.zero_add, hlength]
      exact ⟨_, _, rfl, rfl⟩
  | mapping es =>
    cases b with
    | index i => contradiction
    | key k =>
      obtain ⟨before, after, hes, hinsert⟩ := Entries.exists_insert_eq_append h new
      rw [replace, branches, branches, hinsert, hes, List.map_append, List.map_append]
      exact ⟨_, _, rfl, rfl⟩

theorem exists_leaves_put {t sub : Template} {p : Place} (hp : t.at? p = some sub)
    (new : Template) :
    ∃ before after, t.leaves = before ++ underPlace p sub.leaves ++ after
      ∧ (t.put p new).leaves = before ++ underPlace p new.leaves ++ after := by
  induction p generalizing t with
  | nil =>
    rw [at?, Option.some.injEq] at hp
    rw [hp, underPlace_nil, underPlace_nil, put]
    exact ⟨[], [], by simp, by simp⟩
  | cons b p ih =>
    obtain ⟨t', hb, hp⟩ := at?_cons_eq_some_iff.mp hp
    obtain ⟨before, after, hleaves, hput⟩ := ih hp
    obtain ⟨front, back, hbranches, hreplace⟩ := exists_branches_replace hb (t'.put p new)
    have hcontainer := isContainer_of_step? hb
    have hcontainer' := (isContainer_replace t b (t'.put p new)).trans hcontainer
    rw [put_cons hb, leaves_eq hcontainer, leaves_eq hcontainer', hbranches, hreplace]
    simp only [List.flatMap_append, List.flatMap_cons]
    rw [hleaves, hput, ← under_underPlace, ← under_underPlace]
    refine ⟨front.flatMap (fun b => under b.1 b.2.leaves) ++ under b before,
      under b after ++ back.flatMap fun b => under b.1 b.2.leaves, ?_, ?_⟩
    all_goals
      unfold under
      simp only [List.map_append, List.append_assoc]

theorem positionsFit_iff {t : Template} :
    t.positionsFit = true
      ↔ ∀ b ∈ t.branches, b.1.fits = true ∧ b.2.positionsFit = true := by
  constructor
  . intro ht b hb
    exact fits_of_mem_branches ht hb
  . intro h
    cases t with
    | wildcard => rfl
    | scalar s => rfl
    | sequence ts =>
      rw [positionsFit, Bool.and_eq_true, decide_eq_true_eq, positionsFitItems_iff]
      constructor
      . apply Nat.le_of_not_lt
        intro hi
        -- the element behind the last position of 64 bits would have no position
        have hfits := (h (.index 0x10000000000000000, ts[0x10000000000000000])
          (mem_branches_sequence.mpr ⟨_, rfl, List.getElem?_eq_getElem hi⟩)).1
        contradiction
      . intro t ht
        obtain ⟨i, hi⟩ := List.mem_iff_getElem?.mp ht
        exact (h (.index i, t) (mem_branches_sequence.mpr ⟨i, rfl, hi⟩)).2
    | mapping es =>
      rw [positionsFit, positionsFitEntries_iff]
      intro e he
      exact (h (.key e.1, e.2) (mem_branches_mapping.mpr ⟨e.1, rfl, he⟩)).2

theorem positionsFit_replace {t new : Template} (ht : t.positionsFit = true)
    (hnew : new.positionsFit = true) {b : Branch} {sub : Template} (hb : t.step? b = some sub) :
    (t.replace b new).positionsFit = true := by
  obtain ⟨before, after, hbranches, hreplace⟩ := exists_branches_replace hb new
  rw [positionsFit_iff, hbranches, List.forall_mem_append, List.forall_mem_cons] at ht
  rw [positionsFit_iff, hreplace, List.forall_mem_append, List.forall_mem_cons]
  exact ⟨ht.1, ⟨ht.2.1.1, hnew⟩, ht.2.2⟩

theorem positionsFit_of_step? {t sub : Template} (ht : t.positionsFit = true) {b : Branch}
    (hb : t.step? b = some sub) : sub.positionsFit = true := by
  obtain ⟨before, after, hbranches, _⟩ := exists_branches_replace hb sub
  rw [positionsFit_iff, hbranches, List.forall_mem_append, List.forall_mem_cons] at ht
  exact ht.2.1.2

theorem positionsFit_put {t new : Template} (ht : t.positionsFit = true)
    (hnew : new.positionsFit = true) (p : Place) : (t.put p new).positionsFit = true := by
  induction p generalizing t with
  | nil => exact hnew
  | cons b p ih =>
    cases hb : t.step? b with
    | none =>
      rw [put, hb]
      exact ht
    | some sub =>
      rw [put_cons hb]
      exact positionsFit_replace ht (ih (positionsFit_of_step? ht hb)) hb

end Template

end TemplateCheck
