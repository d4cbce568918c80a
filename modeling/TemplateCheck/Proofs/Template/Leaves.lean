import TemplateCheck.Data
import TemplateCheck.Decimal.Numeral
import TemplateCheck.Template.Visitor

/-!
This module contains the leaves of a template, each with its route: the keys and positions that lead
from the root to it.
-/

namespace TemplateCheck

def Leaf.template : Leaf → Template
  | .scalar text => .scalar text
  | .wildcard => .wildcard

def Branch.fits : Branch → Bool
  | .key _ => true
  | .index i => fitsWord i

namespace Template

def under (b : Branch) (leaves : List (Place × Leaf)) : List (Place × Leaf) :=
  leaves.map fun l => (b :: l.1, l.2)

mutual

def leaves : Template → List (Place × Leaf)
  | .wildcard => [([], .wildcard)]
  | .scalar text => [([], .scalar text)]
  | .sequence items => leavesOfItems 0 items
  | .mapping entries => leavesOfEntries entries

def leavesOfItems (i : Nat) : List Template → List (Place × Leaf)
  | [] => []
  | t :: ts => under (.index i) t.leaves ++ leavesOfItems (i + 1) ts

def leavesOfEntries : List (String × Template) → List (Place × Leaf)
  | [] => []
  | (k, t) :: es => under (.key k) t.leaves ++ leavesOfEntries es

end

mutual

def positionsFit : Template → Bool
  | .wildcard | .scalar _ => true
  | .sequence items => items.length ≤ 0x10000000000000000 && positionsFitItems items
  | .mapping entries => positionsFitEntries entries

def positionsFitItems : List Template → Bool
  | [] => true
  | t :: ts => t.positionsFit && positionsFitItems ts

def positionsFitEntries : List (String × Template) → Bool
  | [] => true
  | (_, t) :: es => t.positionsFit && positionsFitEntries es

end

mutual

def keysDistinct : Template → Bool
  | .wildcard | .scalar _ => true
  | .sequence items => keysDistinctItems items
  | .mapping entries => decide (Entries.keys entries).Nodup && keysDistinctEntries entries

def keysDistinctItems : List Template → Bool
  | [] => true
  | t :: ts => t.keysDistinct && keysDistinctItems ts

def keysDistinctEntries : List (String × Template) → Bool
  | [] => true
  | (_, t) :: es => t.keysDistinct && keysDistinctEntries es

end

def isContainer : Template → Bool
  | .sequence _ | .mapping _ => true
  | _ => false

theorem exists_eq_template {t : Template} (ht : t.isContainer = false) :
    ∃ leaf, t = Leaf.template leaf := by
  cases t with
  | wildcard => exact ⟨.wildcard, rfl⟩
  | scalar s => exact ⟨.scalar s, rfl⟩
  | sequence items => contradiction
  | mapping entries => contradiction

theorem leaves_template (leaf : Leaf) : leaf.template.leaves = [([], leaf)] := by
  cases leaf with
  | wildcard => rfl
  | scalar s => rfl

theorem isContainer_template (leaf : Leaf) : leaf.template.isContainer = false := by
  cases leaf with
  | wildcard => rfl
  | scalar s => rfl

theorem template_inj {leaf leaf' : Leaf} : leaf.template = leaf'.template ↔ leaf = leaf' := by
  cases leaf <;> cases leaf' <;> simp [Leaf.template]

theorem length_under (b : Branch) (ls : List (Place × Leaf)) : (under b ls).length = ls.length := by
  unfold under
  rw [List.length_map]

theorem mem_under {b : Branch} {ls : List (Place × Leaf)} {l : Place × Leaf} (hl : l ∈ ls) :
    (b :: l.1, l.2) ∈ under b ls := by
  exact List.mem_map.mpr ⟨l, hl, rfl⟩

mutual

theorem length_leaves (t : Template) : t.leaves.length = t.leafCount := by
  cases t with
  | wildcard => rfl
  | scalar text => rfl
  | sequence items =>
    unfold leaves leafCount
    apply length_leavesOfItems
  | mapping entries =>
    unfold leaves leafCount
    apply length_leavesOfEntries

theorem length_leavesOfItems (i : Nat) (ts : List Template) :
    (leavesOfItems i ts).length = leafCountItems ts := by
  cases ts with
  | nil => rfl
  | cons t ts =>
    unfold leavesOfItems leafCountItems
    rw [List.length_append, length_under]
    rw [length_leaves, length_leavesOfItems]

theorem length_leavesOfEntries (es : List (String × Template)) :
    (leavesOfEntries es).length = leafCountEntries es := by
  cases es with
  | nil => rfl
  | cons e es =>
    obtain ⟨k, t⟩ := e
    unfold leavesOfEntries leafCountEntries
    rw [List.length_append, length_under]
    rw [length_leaves, length_leavesOfEntries]

end

def branches : Template → List (Branch × Template)
  | .mapping es => es.map fun e => (.key e.1, e.2)
  | .sequence ts => ts.zipIdx.map fun x => (.index x.2, x.1)
  | _ => []

theorem mem_branches_sequence {ts : List Template} {b : Branch} {t : Template} :
    (b, t) ∈ (sequence ts).branches ↔ ∃ i, b = .index i ∧ ts[i]? = some t := by
  unfold branches
  rw [List.mem_map]
  constructor
  . intro ⟨x, hx, heq⟩
    cases heq
    exact ⟨x.2, rfl, List.mem_zipIdx_iff_getElem?.mp hx⟩
  . intro ⟨i, hb, hi⟩
    subst hb
    exact ⟨(t, i), List.mem_zipIdx_iff_getElem?.mpr hi, rfl⟩

theorem mem_branches_mapping {es : List (String × Template)} {b : Branch} {t : Template} :
    (b, t) ∈ (mapping es).branches ↔ ∃ k, b = .key k ∧ (k, t) ∈ es := by
  unfold branches
  rw [List.mem_map]
  constructor
  . intro ⟨e, he, heq⟩
    cases heq
    exact ⟨e.1, rfl, he⟩
  . intro ⟨k, hb, hk⟩
    subst hb
    exact ⟨(k, t), hk, rfl⟩

theorem branches_template (leaf : Leaf) : leaf.template.branches = [] := by
  cases leaf with
  | wildcard => rfl
  | scalar s => rfl

theorem leavesOfItems_eq (i : Nat) (ts : List Template) :
    leavesOfItems i ts = (ts.zipIdx i).flatMap fun x => under (.index x.2) x.1.leaves := by
  induction ts generalizing i with
  | nil => rfl
  | cons t ts ih =>
    rw [List.zipIdx_cons, List.flatMap_cons, ← ih]
    rfl

theorem leavesOfEntries_eq (es : List (String × Template)) :
    leavesOfEntries es = es.flatMap fun e => under (.key e.1) e.2.leaves := by
  induction es with
  | nil => rfl
  | cons e es ih =>
    rw [List.flatMap_cons, ← ih]
    rfl

theorem leaves_eq {t : Template} (ht : t.isContainer = true) :
    t.leaves = t.branches.flatMap fun b => under b.1 b.2.leaves := by
  cases t with
  | wildcard => contradiction
  | scalar text => contradiction
  | sequence items =>
    rw [leaves, branches, List.flatMap_map]
    exact leavesOfItems_eq 0 items
  | mapping entries =>
    rw [leaves, branches, List.flatMap_map]
    exact leavesOfEntries_eq entries

theorem ne_nil_of_mem_leaves {t : Template} (ht : t.isContainer = true) {l : Place × Leaf}
    (hl : l ∈ t.leaves) : l.1 ≠ [] := by
  rw [leaves_eq ht, List.mem_flatMap] at hl
  obtain ⟨b, _, hl⟩ := hl
  unfold under at hl
  rw [List.mem_map] at hl
  obtain ⟨m, _, rfl⟩ := hl
  exact List.cons_ne_nil b.1 m.1

theorem nil_mem_leaves_iff {t : Template} {leaf : Leaf} :
    ([], leaf) ∈ t.leaves ↔ t = leaf.template := by
  constructor
  . intro hl
    cases t with
    | wildcard =>
      cases List.mem_singleton.mp hl
      rfl
    | scalar s =>
      cases List.mem_singleton.mp hl
      rfl
    | sequence ts => exact absurd rfl (ne_nil_of_mem_leaves rfl hl)
    | mapping es => exact absurd rfl (ne_nil_of_mem_leaves rfl hl)
  . rintro rfl
    rw [leaves_template]
    exact List.mem_singleton_self _

theorem cons_mem_leaves_iff {t : Template} {b : Branch} {route : Place} {leaf : Leaf} :
    (b :: route, leaf) ∈ t.leaves ↔ ∃ t', (b, t') ∈ t.branches ∧ (route, leaf) ∈ t'.leaves := by
  cases ht : t.isContainer with
  | false =>
    obtain ⟨leaf', rfl⟩ := exists_eq_template ht
    rw [leaves_template, branches_template]
    simp
  | true =>
    rw [leaves_eq ht, List.mem_flatMap]
    constructor
    . rintro ⟨⟨c, t'⟩, hc, hl⟩
      obtain ⟨m, hm, heq⟩ := List.mem_map.mp hl
      cases heq
      exact ⟨t', hc, hm⟩
    . rintro ⟨t', hb, hl⟩
      exact ⟨(b, t'), hb, mem_under hl⟩

theorem positionsFitItems_iff {ts : List Template} :
    positionsFitItems ts = true ↔ ∀ t ∈ ts, t.positionsFit = true := by
  induction ts with
  | nil => simp [positionsFitItems]
  | cons t ts ih =>
    unfold positionsFitItems
    rw [Bool.and_eq_true, ih, List.forall_mem_cons]

theorem positionsFitEntries_iff {es : List (String × Template)} :
    positionsFitEntries es = true ↔ ∀ e ∈ es, e.2.positionsFit = true := by
  induction es with
  | nil => simp [positionsFitEntries]
  | cons e es ih =>
    unfold positionsFitEntries
    rw [Bool.and_eq_true, ih, List.forall_mem_cons]

theorem keysDistinctEntries_iff {es : List (String × Template)} :
    keysDistinctEntries es = true ↔ ∀ e ∈ es, e.2.keysDistinct = true := by
  induction es with
  | nil => simp [keysDistinctEntries]
  | cons e es ih =>
    unfold keysDistinctEntries
    rw [Bool.and_eq_true, ih, List.forall_mem_cons]

theorem keysDistinctItems_iff {ts : List Template} :
    keysDistinctItems ts = true ↔ ∀ t ∈ ts, t.keysDistinct = true := by
  induction ts with
  | nil => simp [keysDistinctItems]
  | cons t ts ih =>
    unfold keysDistinctItems
    rw [Bool.and_eq_true, ih, List.forall_mem_cons]

theorem keysDistinct_mapping_iff {es : List (String × Template)} :
    (mapping es).keysDistinct = true
      ↔ (Entries.keys es).Nodup ∧ ∀ e ∈ es, e.2.keysDistinct = true := by
  rw [keysDistinct, Bool.and_eq_true, decide_eq_true_eq, keysDistinctEntries_iff]

theorem fits_of_mem_branches {t : Template} (ht : t.positionsFit = true) {b : Branch}
    {t' : Template} (hb : (b, t') ∈ t.branches) : b.fits = true ∧ t'.positionsFit = true := by
  cases t with
  | wildcard => contradiction
  | scalar text => contradiction
  | sequence items =>
    rw [positionsFit, Bool.and_eq_true, decide_eq_true_eq, positionsFitItems_iff] at ht
    obtain ⟨i, rfl, hi⟩ := mem_branches_sequence.mp hb
    have hlt := (List.getElem?_eq_some_iff.mp hi).1
    constructor
    . unfold Branch.fits fitsWord
      rw [decide_eq_true_eq]
      omega
    . exact ht.2 t' (List.mem_of_getElem? hi)
  | mapping entries =>
    rw [positionsFit, positionsFitEntries_iff] at ht
    obtain ⟨k, rfl, hk⟩ := mem_branches_mapping.mp hb
    exact ⟨rfl, ht (k, t') hk⟩

theorem forall_mem_route {P : Template → Prop} {Q : Branch → Prop}
    (h : ∀ t, P t → ∀ b t', (b, t') ∈ t.branches → Q b ∧ P t') {t : Template} (ht : P t)
    {route : Place} {leaf : Leaf} (hl : (route, leaf) ∈ t.leaves) : ∀ b ∈ route, Q b := by
  induction route generalizing t with
  | nil => simp
  | cons b route ih =>
    obtain ⟨t', hb, hl⟩ := cons_mem_leaves_iff.mp hl
    obtain ⟨hQ, hP⟩ := h t ht b t' hb
    rw [List.forall_mem_cons]
    exact ⟨hQ, ih hP hl⟩

theorem fits_of_mem_leaves {t : Template} (ht : t.positionsFit = true) {l : Place × Leaf}
    (hl : l ∈ t.leaves) : l.1.all Branch.fits = true := by
  have hfits : ∀ t : Template, t.positionsFit = true → ∀ b t', (b, t') ∈ t.branches →
      b.fits = true ∧ t'.positionsFit = true := by
    intro t ht b t' hb
    exact fits_of_mem_branches ht hb
  rw [List.all_eq_true]
  exact forall_mem_route hfits ht hl

end Template

end TemplateCheck
