import TemplateCheck.Proofs.Data.Place
import TemplateCheck.Proofs.Template.Leaves

/-!
This module contains that a template in which nothing is empty can be told from its leaves: the
leaves below one step stand together, and no other leaf is below that step.
-/

namespace TemplateCheck

namespace Template

inductive NowhereEmpty : Template → Prop where
  | wildcard : NowhereEmpty .wildcard
  | scalar (s : String) : NowhereEmpty (.scalar s)
  | sequence {items : List Template} (hne : items ≠ []) (h : ∀ t ∈ items, NowhereEmpty t) :
      NowhereEmpty (.sequence items)
  | mapping {entries : List (String × Template)} (hne : entries ≠ [])
      (h : ∀ e ∈ entries, NowhereEmpty e.2) : NowhereEmpty (.mapping entries)

theorem NowhereEmpty.of_mem_branches {t : Template} (ht : t.NowhereEmpty) {b : Branch}
    {t' : Template} (hb : (b, t') ∈ t.branches) : t'.NowhereEmpty := by
  cases ht with
  | wildcard => contradiction
  | scalar s => contradiction
  | sequence _ h =>
    obtain ⟨i, _, hi⟩ := mem_branches_sequence.mp hb
    exact h t' (List.mem_of_getElem? hi)
  | mapping _ h =>
    obtain ⟨k, _, hk⟩ := mem_branches_mapping.mp hb
    exact h (k, t') hk

theorem under_eq_nil_iff {b : Branch} {ls : List (Place × Leaf)} : under b ls = [] ↔ ls = [] := by
  unfold under
  rw [List.map_eq_nil_iff]

theorem under_inj {b : Branch} {ls ms : List (Place × Leaf)} (h : under b ls = under b ms) :
    ls = ms := by
  refine (List.map_inj_right ?_).mp h
  intro l m hlm
  rw [Prod.mk.injEq, List.cons.injEq] at hlm
  exact Prod.ext hlm.1.2 hlm.2

theorem NowhereEmpty.leaves_ne_nil {t : Template} (ht : t.NowhereEmpty) : t.leaves ≠ [] := by
  induction ht with
  | wildcard => exact List.cons_ne_nil _ _
  | scalar s => exact List.cons_ne_nil _ _
  | @sequence items hne _ ih =>
    obtain ⟨t, ts, rfl⟩ := List.exists_cons_of_ne_nil hne
    unfold leaves leavesOfItems
    rw [Ne, List.append_eq_nil_iff, under_eq_nil_iff, not_and]
    intro h
    exact absurd h (ih t List.mem_cons_self)
  | @mapping entries hne _ ih =>
    obtain ⟨⟨k, t⟩, es, rfl⟩ := List.exists_cons_of_ne_nil hne
    unfold leaves leavesOfEntries
    rw [Ne, List.append_eq_nil_iff, under_eq_nil_iff, not_and]
    intro h
    exact absurd h (ih (k, t) List.mem_cons_self)

theorem nodup_branches {t : Template} (ht : t.keysDistinct = true) :
    (t.branches.map Prod.fst).Nodup := by
  cases t with
  | sequence items => exact Branch.nodup_index items
  | mapping entries => exact Branch.nodup_key (keysDistinct_mapping_iff.mp ht).1
  | _ => exact List.nodup_nil

theorem keysDistinct_of_mem_branches {t : Template} (ht : t.keysDistinct = true) {b : Branch}
    {t' : Template} (hb : (b, t') ∈ t.branches) : t'.keysDistinct = true := by
  cases t with
  | wildcard => contradiction
  | scalar s => contradiction
  | sequence items =>
    obtain ⟨i, _, hi⟩ := mem_branches_sequence.mp hb
    unfold keysDistinct at ht
    exact keysDistinctItems_iff.mp ht t' (List.mem_of_getElem? hi)
  | mapping entries =>
    obtain ⟨k, _, hk⟩ := mem_branches_mapping.mp hb
    exact (keysDistinct_mapping_iff.mp ht).2 (k, t') hk

theorem sizeOf_lt_of_mem_branches {t : Template} {b : Branch} {t' : Template}
    (hb : (b, t') ∈ t.branches) : sizeOf t' < sizeOf t := by
  cases t with
  | wildcard => contradiction
  | scalar s => contradiction
  | sequence items =>
    obtain ⟨i, _, hi⟩ := mem_branches_sequence.mp hb
    have := List.sizeOf_lt_of_mem (List.mem_of_getElem? hi)
    simp only [sequence.sizeOf_spec]
    omega
  | mapping entries =>
    obtain ⟨k, _, hk⟩ := mem_branches_mapping.mp hb
    have := List.sizeOf_lt_of_mem hk
    simp only [Prod.mk.sizeOf_spec] at this
    simp only [mapping.sizeOf_spec]
    omega

theorem induction_branches {motive : Template → Prop}
    (h : ∀ t : Template, (∀ b t', (b, t') ∈ t.branches → motive t') → motive t) (t : Template) :
    motive t := by
  apply h
  intro b t' hb
  have := sizeOf_lt_of_mem_branches hb
  exact induction_branches h t'
termination_by sizeOf t

theorem head?_of_mem_under {b : Branch} {ls : List (Place × Leaf)} {l : Place × Leaf}
    (hl : l ∈ under b ls) : l.1.head? = some b := by
  obtain ⟨m, _, rfl⟩ := List.mem_map.mp hl
  rfl

theorem nodup_leaves {t : Template} (ht : t.keysDistinct = true) : t.leaves.Nodup := by
  induction t using induction_branches with
  | h t ih =>
    cases hcontainer : t.isContainer with
    | false =>
      obtain ⟨leaf, rfl⟩ := exists_eq_template hcontainer
      rw [leaves_template]
      exact List.nodup_singleton _
    | true =>
      rw [leaves_eq hcontainer]
      apply Branch.nodup_flatMap (nodup_branches ht)
      . intro b _ l hl
        exact head?_of_mem_under hl
      . intro b hb
        exact Branch.nodup_map_cons (ih b.1 b.2 hb (keysDistinct_of_mem_branches ht hb))

def startsWith (b : Branch) (l : Place × Leaf) : Bool :=
  l.1.head? == some b

theorem filter_startsWith_under (b : Branch) (ls : List (Place × Leaf)) :
    (under b ls).filter (startsWith b) = under b ls := by
  rw [List.filter_eq_self]
  intro l hl
  unfold startsWith
  rw [head?_of_mem_under hl]
  exact beq_self_eq_true (some b)

theorem filter_startsWith_flatMap {b : Branch} {bs : List (Branch × Template)}
    (hb : b ∉ bs.map Prod.fst) :
    (bs.flatMap fun c => under c.1 c.2.leaves).filter (startsWith b) = [] := by
  rw [List.filter_eq_nil_iff]
  intro l hl hstart
  obtain ⟨c, hc, hl⟩ := List.mem_flatMap.mp hl
  have hcb : c.1 = b := by
    unfold startsWith at hstart
    rw [head?_of_mem_under hl] at hstart
    simpa using hstart
  rw [← hcb] at hb
  exact hb (List.mem_map_of_mem hc)

theorem exists_head_flatMap {b : Branch} {t : Template} (ht : t.leaves ≠ [])
    (bs : List (Branch × Template)) :
    ∃ l, (((b, t) :: bs).flatMap fun c => under c.1 c.2.leaves).head? = some l
      ∧ l.1.head? = some b := by
  obtain ⟨m, ms, hm⟩ := List.exists_cons_of_ne_nil ht
  rw [List.flatMap_cons, hm]
  exact ⟨_, rfl, rfl⟩

theorem flatMap_cons_ne_nil {b : Branch} {t : Template} (ht : t.leaves ≠ [])
    (bs : List (Branch × Template)) :
    (((b, t) :: bs).flatMap fun c => under c.1 c.2.leaves) ≠ [] := by
  intro hnil
  obtain ⟨l, hl, -⟩ := exists_head_flatMap (b := b) ht bs
  rw [hnil] at hl
  contradiction

section

variable {b c : Branch} {t u : Template} {bs cs : List (Branch × Template)}

theorem fst_eq_of_flatMap_eq (ht : t.leaves ≠ []) (hu : u.leaves ≠ [])
    (h : (((b, t) :: bs).flatMap fun x => under x.1 x.2.leaves)
      = ((c, u) :: cs).flatMap fun x => under x.1 x.2.leaves) : b = c := by
  obtain ⟨l, hl, hlb⟩ := exists_head_flatMap (b := b) ht bs
  obtain ⟨m, hm, hmc⟩ := exists_head_flatMap (b := c) hu cs
  rw [h, hm, Option.some.injEq] at hl
  rw [← hl, hmc, Option.some.injEq] at hlb
  exact hlb.symm

theorem leaves_eq_of_flatMap_eq (hb : b ∉ bs.map Prod.fst) (hc : b ∉ cs.map Prod.fst)
    (h : (((b, t) :: bs).flatMap fun x => under x.1 x.2.leaves)
      = ((b, u) :: cs).flatMap fun x => under x.1 x.2.leaves) : t.leaves = u.leaves := by
  have hfilter := congrArg (List.filter (startsWith b)) h
  rw [List.flatMap_cons, List.flatMap_cons, List.filter_append, List.filter_append] at hfilter
  rw [filter_startsWith_flatMap hb, filter_startsWith_flatMap hc] at hfilter
  rw [filter_startsWith_under, filter_startsWith_under] at hfilter
  rw [List.append_nil, List.append_nil] at hfilter
  exact under_inj hfilter

end

theorem branches_eq_of_flatMap_eq {bs cs : List (Branch × Template)}
    (hbs : (bs.map Prod.fst).Nodup) (hcs : (cs.map Prod.fst).Nodup)
    (hb : ∀ b ∈ bs, b.2.leaves ≠ []) (hc : ∀ c ∈ cs, c.2.leaves ≠ [])
    (hinj : ∀ b ∈ bs, ∀ c ∈ cs, b.2.leaves = c.2.leaves → b.2 = c.2)
    (h : (bs.flatMap fun b => under b.1 b.2.leaves) = cs.flatMap fun c => under c.1 c.2.leaves) :
    bs = cs := by
  induction bs generalizing cs with
  | nil =>
    cases cs with
    | nil => rfl
    | cons c cs => exact absurd h.symm (flatMap_cons_ne_nil (hc c List.mem_cons_self) cs)
  | cons b bs ih =>
    cases cs with
    | nil => exact absurd h (flatMap_cons_ne_nil (hb b List.mem_cons_self) bs)
    | cons c cs =>
      obtain ⟨b, t⟩ := b
      obtain ⟨c, u⟩ := c
      rw [List.forall_mem_cons] at hb hc
      -- the first leaf shows which step comes first on either side
      obtain rfl := fst_eq_of_flatMap_eq hb.1 hc.1 h
      rw [List.map_cons, List.nodup_cons] at hbs hcs
      -- and all leaves that begin with it are below it
      have hleaves := leaves_eq_of_flatMap_eq hbs.1 hcs.1 h
      have htu : t = u := hinj (b, t) List.mem_cons_self (b, u) List.mem_cons_self hleaves
      rw [List.flatMap_cons, List.flatMap_cons, hleaves, List.append_cancel_left_eq] at h
      rw [htu, ih hbs.2 hcs.2 hb.2 hc.2 _ h]
      intro b' hb' c' hc'
      exact hinj b' (List.mem_cons_of_mem _ hb') c' (List.mem_cons_of_mem _ hc')

theorem isContainer_of_leaves_eq {t t' : Template} (ht : t.isContainer = true)
    (h : t.leaves = t'.leaves) : t'.isContainer = true := by
  rw [← Bool.not_eq_false]
  intro ht'
  obtain ⟨leaf, rfl⟩ := exists_eq_template ht'
  have hmem : ([], leaf) ∈ t.leaves := by
    rw [h, leaves_template]
    exact List.mem_singleton_self _
  exact absurd rfl (ne_nil_of_mem_leaves ht hmem)

theorem eq_template_of_leaves_eq {t : Template} {leaf : Leaf} (h : t.leaves = [([], leaf)]) :
    t = leaf.template := by
  rw [← nil_mem_leaves_iff, h]
  exact List.mem_singleton_self _

theorem map_snd_branches_sequence (items : List Template) :
    (sequence items).branches.map Prod.snd = items := by
  unfold branches
  rw [List.map_map]
  exact List.zipIdx_map_fst 0 items

theorem entries_eq_of_branches_eq {es fs : List (String × Template)}
    (h : (mapping es).branches = (mapping fs).branches) : es = fs := by
  refine (List.map_inj_right ?_).mp h
  intro e f hef
  rw [Prod.mk.injEq, Branch.key.injEq] at hef
  exact Prod.ext hef.1 hef.2

theorem eq_of_branches_eq {t t' : Template} (hne : t.branches ≠ [])
    (h : t.branches = t'.branches) : t = t' := by
  obtain ⟨⟨b, s⟩, hb⟩ := List.exists_mem_of_ne_nil _ hne
  have hb' := hb
  rw [h] at hb'
  cases t with
  | wildcard => contradiction
  | scalar s => contradiction
  | sequence items =>
    obtain ⟨i, rfl, _⟩ := mem_branches_sequence.mp hb
    cases t' with
    | wildcard => contradiction
    | scalar s => contradiction
    | sequence items' =>
      rw [← map_snd_branches_sequence items, h, map_snd_branches_sequence]
    | mapping entries =>
      obtain ⟨k, hk, _⟩ := mem_branches_mapping.mp hb'
      contradiction
  | mapping entries =>
    obtain ⟨k, rfl, _⟩ := mem_branches_mapping.mp hb
    cases t' with
    | wildcard => contradiction
    | scalar s => contradiction
    | sequence items =>
      obtain ⟨i, hi, _⟩ := mem_branches_sequence.mp hb'
      contradiction
    | mapping entries' => rw [entries_eq_of_branches_eq h]

theorem eq_of_leaves_eq_of_isContainer {t t' : Template} (hcontainer : t.isContainer = true)
    (ht : t.NowhereEmpty) (ht' : t'.NowhereEmpty) (hkeys : t.keysDistinct = true)
    (hkeys' : t'.keysDistinct = true)
    (hinj : ∀ b s, (b, s) ∈ t.branches → ∀ s', s'.NowhereEmpty → s'.keysDistinct = true →
      s.leaves = s'.leaves → s = s')
    (h : t.leaves = t'.leaves) : t = t' := by
  have hne := ht.leaves_ne_nil
  have hcontainer' := isContainer_of_leaves_eq hcontainer h
  rw [leaves_eq hcontainer, leaves_eq hcontainer'] at h
  apply eq_of_branches_eq
  . intro hnil
    rw [leaves_eq hcontainer, hnil] at hne
    contradiction
  . apply branches_eq_of_flatMap_eq (nodup_branches hkeys) (nodup_branches hkeys') _ _ _ h
    . intro b hb
      exact (ht.of_mem_branches hb).leaves_ne_nil
    . intro c hc
      exact (ht'.of_mem_branches hc).leaves_ne_nil
    . intro b hb c hc heq
      have hkeys := keysDistinct_of_mem_branches hkeys' hc
      exact hinj b.1 b.2 hb c.2 (ht'.of_mem_branches hc) hkeys heq

theorem eq_of_leaves_eq {t t' : Template} (ht : t.NowhereEmpty) (ht' : t'.NowhereEmpty)
    (hkeys : t.keysDistinct = true) (hkeys' : t'.keysDistinct = true)
    (h : t.leaves = t'.leaves) : t = t' := by
  induction ht generalizing t' with
  | wildcard => exact (eq_template_of_leaves_eq h.symm).symm
  | scalar s => exact (eq_template_of_leaves_eq h.symm).symm
  | sequence hne hall ih =>
    apply eq_of_leaves_eq_of_isContainer rfl (.sequence hne hall) ht' hkeys hkeys' _ h
    intro b s hb s' hs' hkeys' heq
    have hkeys := keysDistinct_of_mem_branches hkeys hb
    obtain ⟨i, _, hi⟩ := mem_branches_sequence.mp hb
    exact ih s (List.mem_of_getElem? hi) hs' hkeys hkeys' heq
  | mapping hne hall ih =>
    apply eq_of_leaves_eq_of_isContainer rfl (.mapping hne hall) ht' hkeys hkeys' _ h
    intro b s hb s' hs' hkeys' heq
    have hkeys := keysDistinct_of_mem_branches hkeys hb
    obtain ⟨k, _, hk⟩ := mem_branches_mapping.mp hb
    exact ih (k, s) hk hs' hkeys hkeys' heq

end Template

end TemplateCheck
