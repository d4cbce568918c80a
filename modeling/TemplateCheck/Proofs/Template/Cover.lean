import TemplateCheck.Proofs.Path.Agree
import TemplateCheck.Proofs.Path.Route

/-!
This module contains the candidates that a template covers: those of its shape that have at the
place of every leaf what the leaf wants. The paths of all leaves match such a candidate, whatever
was filled in for the wildcards.
-/

namespace TemplateCheck

namespace Template

mutual

def Covers : Template → Data → Prop
  | .wildcard, d => d.Meets .wildcard none
  | .scalar s, d => d.Meets (.scalar s) none
  | .sequence ts, .sequence ds => CoversItems ts ds
  | .mapping es, .mapping fs => CoversEntries es fs
  | _, _ => False

def CoversItems : List Template → List Data → Prop
  | [], [] => True
  | t :: ts, d :: ds => t.Covers d ∧ CoversItems ts ds
  | _, _ => False

def CoversEntries : List (String × Template) → List (String × Data) → Prop
  | [], [] => True
  | (k, t) :: es, (l, d) :: fs => k = l ∧ t.Covers d ∧ CoversEntries es fs
  | _, _ => False

end

mutual

def fill (f : Place → Data) : Template → Data → Data
  | .wildcard, _ => f []
  | .sequence ts, .sequence ds => .sequence (fillItems f 0 ts ds)
  | .mapping es, .mapping fs => .mapping (fillEntries f es fs)
  | _, d => d

def fillItems (f : Place → Data) (i : Nat) : List Template → List Data → List Data
  | t :: ts, d :: ds => fill (fun p => f (.index i :: p)) t d :: fillItems f (i + 1) ts ds
  | _, ds => ds

def fillEntries (f : Place → Data) :
    List (String × Template) → List (String × Data) → List (String × Data)
  | (k, t) :: es, (l, d) :: fs => (l, fill (fun p => f (.key k :: p)) t d) :: fillEntries f es fs
  | _, fs => fs

end

theorem exists_getElem?_of_coversItems {ts : List Template} {ds : List Data}
    (h : CoversItems ts ds) {i : Nat} {t : Template} (ht : ts[i]? = some t) :
    ∃ d, ds[i]? = some d ∧ t.Covers d := by
  induction ts generalizing ds i with
  | nil => contradiction
  | cons t' ts ih =>
    cases ds with
    | nil => contradiction
    | cons d ds =>
      unfold CoversItems at h
      cases i with
      | zero =>
        rw [List.getElem?_cons_zero, Option.some.injEq] at ht
        rw [← ht]
        exact ⟨d, rfl, h.1⟩
      | succ i =>
        rw [List.getElem?_cons_succ] at ht
        exact ih h.2 ht

theorem exists_mem_of_coversEntries {es : List (String × Template)} {fs : List (String × Data)}
    (h : CoversEntries es fs) {k : String} {t : Template} (ht : (k, t) ∈ es) :
    ∃ d, (k, d) ∈ fs ∧ t.Covers d := by
  induction es generalizing fs with
  | nil => contradiction
  | cons e es ih =>
    cases fs with
    | nil => contradiction
    | cons f fs =>
      unfold CoversEntries at h
      rw [List.mem_cons] at ht
      cases ht with
      | inl ht =>
        subst ht
        have hk : k = f.1 := h.1
        rw [hk]
        exact ⟨f.2, List.mem_cons_self, h.2.1⟩
      | inr ht =>
        obtain ⟨d, hd, hcovers⟩ := ih h.2.2 ht
        exact ⟨d, List.mem_cons_of_mem f hd, hcovers⟩

theorem exists_step?_of_covers {t : Template} {d : Data} (hd : d.keysDistinct = true)
    (h : t.Covers d) {b : Branch} {t' : Template} (hb : (b, t') ∈ t.branches) :
    ∃ c, d.step? b = some c ∧ t'.Covers c := by
  cases t with
  | wildcard => contradiction
  | scalar s => contradiction
  | sequence ts =>
    cases d with
    | sequence ds =>
      obtain ⟨i, rfl, hi⟩ := mem_branches_sequence.mp hb
      exact exists_getElem?_of_coversItems h hi
    | _ => contradiction
  | mapping es =>
    cases d with
    | mapping fs =>
      rw [Data.keysDistinct_mapping_iff] at hd
      obtain ⟨k, rfl, hk⟩ := mem_branches_mapping.mp hb
      obtain ⟨c, hc, hcovers⟩ := exists_mem_of_coversEntries h hk
      exact ⟨c, Entries.get?_eq_some_of_mem hd.1 hc, hcovers⟩
    | _ => contradiction

theorem exists_at?_of_covers {t : Template} {d : Data} (hd : d.keysDistinct = true)
    (h : t.Covers d) {route : Place} {leaf : Leaf} (hl : (route, leaf) ∈ t.leaves) :
    ∃ c, d.at? route = some c ∧ c.Meets leaf none := by
  induction route generalizing t d with
  | nil =>
    refine ⟨d, Data.at?_nil d, ?_⟩
    rw [nil_mem_leaves_iff.mp hl] at h
    cases leaf with
    | wildcard => exact h
    | scalar s => exact h
  | cons b route ih =>
    obtain ⟨t', hb, hl⟩ := cons_mem_leaves_iff.mp hl
    obtain ⟨d', hstep, hcovers⟩ := exists_step?_of_covers hd h hb
    have hd' := Data.keysDistinct_of_mem_branches hd ((Data.mem_branches_iff hd).mpr hstep)
    rw [Data.at?_cons, hstep]
    exact ih hd' hcovers hl

mutual

theorem covers_fill {t : Template} {d : Data} (h : t.Covers d) {f : Place → Data}
    (hf : ∀ p, (p, .wildcard) ∈ t.leaves → (f p).Meets .wildcard none) : t.Covers (fill f t d) := by
  cases t with
  | wildcard =>
    unfold fill Covers
    exact hf [] (List.mem_singleton.mpr rfl)
  | scalar s =>
    unfold fill
    exact h
  | sequence ts =>
    cases d with
    | sequence ds =>
      unfold fill Covers
      exact coversItems_fill h hf
    | _ => contradiction
  | mapping es =>
    cases d with
    | mapping fs =>
      unfold fill Covers
      exact coversEntries_fill h hf
    | _ => contradiction

theorem coversItems_fill {ts : List Template} {ds : List Data} (h : CoversItems ts ds)
    {f : Place → Data} {i : Nat}
    (hf : ∀ p, (p, .wildcard) ∈ leavesOfItems i ts → (f p).Meets .wildcard none) :
    CoversItems ts (fillItems f i ts ds) := by
  cases ts with
  | nil =>
    unfold fillItems
    exact h
  | cons t ts =>
    cases ds with
    | nil => contradiction
    | cons d ds =>
      unfold CoversItems at h
      unfold fillItems CoversItems
      unfold leavesOfItems at hf
      constructor
      . apply covers_fill h.1
        intro p hp
        exact hf _ (List.mem_append_left _ (mem_under hp))
      . apply coversItems_fill h.2
        intro p hp
        exact hf p (List.mem_append_right _ hp)

theorem coversEntries_fill {es : List (String × Template)} {fs : List (String × Data)}
    (h : CoversEntries es fs) {f : Place → Data}
    (hf : ∀ p, (p, .wildcard) ∈ leavesOfEntries es → (f p).Meets .wildcard none) :
    CoversEntries es (fillEntries f es fs) := by
  cases es with
  | nil =>
    unfold fillEntries
    exact h
  | cons e es =>
    cases fs with
    | nil => contradiction
    | cons e' fs =>
      unfold CoversEntries at h
      unfold fillEntries CoversEntries
      unfold leavesOfEntries at hf
      refine ⟨h.1, ?_, ?_⟩
      . apply covers_fill h.2.1
        intro p hp
        exact hf _ (List.mem_append_left _ (mem_under hp))
      . apply coversEntries_fill h.2.2
        intro p hp
        exact hf p (List.mem_append_right _ hp)

end

theorem keys_fillEntries (f : Place → Data) (es : List (String × Template))
    (fs : List (String × Data)) : Entries.keys (fillEntries f es fs) = Entries.keys fs := by
  induction fs generalizing es with
  | nil =>
    cases es with
    | nil => rfl
    | cons e es => rfl
  | cons e' fs ih =>
    cases es with
    | nil => rfl
    | cons e es =>
      unfold fillEntries Entries.keys
      rw [List.map_cons, List.map_cons]
      congr 1
      exact ih es

mutual

theorem keysDistinct_fill {t : Template} {d : Data} (hd : d.keysDistinct = true) {f : Place → Data}
    (hf : ∀ p, (p, .wildcard) ∈ t.leaves → (f p).keysDistinct = true) :
    (fill f t d).keysDistinct = true := by
  cases t with
  | wildcard =>
    unfold fill
    exact hf [] (List.mem_singleton.mpr rfl)
  | scalar s =>
    unfold fill
    exact hd
  | sequence ts =>
    cases d with
    | sequence ds =>
      unfold fill Data.keysDistinct
      exact keysDistinctItems_fill hd hf
    | _ =>
      unfold fill
      exact hd
  | mapping es =>
    cases d with
    | mapping fs =>
      unfold Data.keysDistinct at hd
      rw [Bool.and_eq_true, decide_eq_true_eq] at hd
      unfold fill Data.keysDistinct
      rw [Bool.and_eq_true, decide_eq_true_eq, keys_fillEntries]
      exact ⟨hd.1, keysDistinctEntries_fill hd.2 hf⟩
    | _ =>
      unfold fill
      exact hd

theorem keysDistinctItems_fill {ts : List Template} {ds : List Data}
    (hd : Data.keysDistinctItems ds = true) {f : Place → Data} {i : Nat}
    (hf : ∀ p, (p, .wildcard) ∈ leavesOfItems i ts → (f p).keysDistinct = true) :
    Data.keysDistinctItems (fillItems f i ts ds) = true := by
  cases ts with
  | nil =>
    unfold fillItems
    exact hd
  | cons t ts =>
    cases ds with
    | nil => rfl
    | cons d ds =>
      unfold Data.keysDistinctItems at hd
      rw [Bool.and_eq_true] at hd
      unfold leavesOfItems at hf
      unfold fillItems Data.keysDistinctItems
      rw [Bool.and_eq_true]
      constructor
      . apply keysDistinct_fill hd.1
        intro p hp
        exact hf _ (List.mem_append_left _ (mem_under hp))
      . apply keysDistinctItems_fill hd.2
        intro p hp
        exact hf p (List.mem_append_right _ hp)

theorem keysDistinctEntries_fill {es : List (String × Template)} {fs : List (String × Data)}
    (hd : Data.keysDistinctEntries fs = true) {f : Place → Data}
    (hf : ∀ p, (p, .wildcard) ∈ leavesOfEntries es → (f p).keysDistinct = true) :
    Data.keysDistinctEntries (fillEntries f es fs) = true := by
  cases es with
  | nil =>
    unfold fillEntries
    exact hd
  | cons e es =>
    cases fs with
    | nil => rfl
    | cons e' fs =>
      unfold Data.keysDistinctEntries at hd
      rw [Bool.and_eq_true] at hd
      unfold leavesOfEntries at hf
      unfold fillEntries Data.keysDistinctEntries
      rw [Bool.and_eq_true]
      constructor
      . apply keysDistinct_fill hd.1
        intro p hp
        exact hf _ (List.mem_append_left _ (mem_under hp))
      . apply keysDistinctEntries_fill hd.2
        intro p hp
        exact hf p (List.mem_append_right _ hp)

end

end Template

namespace Data

theorem Meets.of_none {leaf : Leaf} {d : Data} (h : d.Meets leaf none) (last? : Option Branch) :
    d.Meets leaf last? := by
  cases leaf with
  | wildcard => exact h
  | scalar s =>
    cases last? with
    | none => exact h
    | some b =>
      cases b with
      | key k => exact .inl h
      | index i => exact h

end Data

namespace Path

theorem selectsAny_ofLeaf_root {d : Data} (hd : d.keysDistinct = true) {leaf : Leaf}
    (h : d.Meets leaf none) : (ofLeaf ([], leaf)).selectsAny d = true := by
  cases leaf with
  | scalar s => exact (selectsAny_ofLeaf_root_iff hd s).mpr h
  | wildcard =>
    -- the step may begin anywhere, so it begins at the root
    apply (selectsAny_ofLeaf_wildcard_iff hd []).mpr
    exact ⟨[], [], d, by rw [Data.at?_nil]; rfl, .nil [], Data.at?_nil d, h⟩

theorem selectsAny_ofLeaf_of_at? {d : Data} (hd : d.keysDistinct = true) {route : Place}
    {c : Data} (hc : d.at? route = some c) {leaf : Leaf} (hmeets : c.Meets leaf none) :
    (ofLeaf (route, leaf)).selectsAny d = true := by
  by_cases hroute : route = []
  . subst hroute
    rw [Data.at?_nil, Option.some.injEq] at hc
    subst hc
    exact selectsAny_ofLeaf_root hd hmeets
  . rw [selectsAny_ofLeaf_iff hd hroute]
    -- the route leads from the root to the place that it names
    have hreaches := Data.reaches_of_at? (Data.at?_nil d) hc
    exact ⟨[], route, c, by rw [Data.at?_nil]; rfl, hreaches, hc, hmeets.of_none route.getLast?⟩

end Path

namespace Template

theorem selectsAny_of_covers {t : Template} {d : Data} (hd : d.keysDistinct = true)
    (h : t.Covers d) {l : Place × Leaf} (hl : l ∈ t.leaves) :
    (Path.ofLeaf l).selectsAny d = true := by
  obtain ⟨route, leaf⟩ := l
  obtain ⟨c, hc, hmeets⟩ := exists_at?_of_covers hd h hl
  exact Path.selectsAny_ofLeaf_of_at? hd hc hmeets

end Template

end TemplateCheck
