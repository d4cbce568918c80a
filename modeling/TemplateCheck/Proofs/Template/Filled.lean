import TemplateCheck.Proofs.Template.Cover
import TemplateCheck.Proofs.Validator.Verdict

/-!
This module contains the candidates that a template itself describes, with its own texts and with
anything whatever in the places of its wildcards, and when a strict validator accepts them.
-/

namespace TemplateCheck

def Leaf.toData (f : Place → Data) (p : Place) : Leaf → Data
  | .wildcard => f p
  | .scalar s => .string s

namespace Template

mutual

def toData (f : Place → Data) : Template → Data
  | .wildcard => f []
  | .scalar s => .string s
  | .sequence items => .sequence (toDataItems f 0 items)
  | .mapping entries => .mapping (toDataEntries f entries)

def toDataItems (f : Place → Data) (i : Nat) : List Template → List Data
  | [] => []
  | t :: ts => t.toData (fun p => f (.index i :: p)) :: toDataItems f (i + 1) ts

def toDataEntries (f : Place → Data) : List (String × Template) → List (String × Data)
  | [] => []
  | (k, t) :: es => (k, t.toData fun p => f (.key k :: p)) :: toDataEntries f es

end

theorem getElem?_toDataItems (f : Place → Data) (i : Nat) (ts : List Template) (j : Nat) :
    (toDataItems f i ts)[j]? = ts[j]?.map (toData fun p => f (.index (i + j) :: p)) := by
  induction ts generalizing i j with
  | nil => rfl
  | cons t ts ih =>
    unfold toDataItems
    cases j with
    | zero => rfl
    | succ j =>
      rw [List.getElem?_cons_succ, List.getElem?_cons_succ, ih]
      rw [Nat.add_assoc, Nat.add_comm 1 j]

theorem toDataEntries_eq (f : Place → Data) (es : List (String × Template)) :
    toDataEntries f es = es.map fun e => (e.1, e.2.toData fun p => f (.key e.1 :: p)) := by
  induction es with
  | nil => rfl
  | cons e es ih =>
    rw [List.map_cons, ← ih]
    rfl

theorem keys_toDataEntries (f : Place → Data) (es : List (String × Template)) :
    Entries.keys (toDataEntries f es) = Entries.keys es := by
  unfold Entries.keys
  rw [toDataEntries_eq, List.map_map]
  rfl

theorem step?_toData {t : Template} (ht : t.keysDistinct = true) (f : Place → Data) {b : Branch}
    {t' : Template} (hb : (b, t') ∈ t.branches) :
    t'.keysDistinct = true ∧ (t.toData f).step? b = some (t'.toData fun p => f (b :: p)) := by
  cases t with
  | wildcard => contradiction
  | scalar s => contradiction
  | sequence ts =>
    rw [keysDistinct, keysDistinctItems_iff] at ht
    obtain ⟨i, rfl, hi⟩ := mem_branches_sequence.mp hb
    refine ⟨ht t' (List.mem_of_getElem? hi), ?_⟩
    change (toDataItems f 0 ts)[i]? = _
    rw [getElem?_toDataItems, hi, Nat.zero_add]
    rfl
  | mapping es =>
    rw [keysDistinct_mapping_iff] at ht
    obtain ⟨k, rfl, hk⟩ := mem_branches_mapping.mp hb
    refine ⟨ht.2 (k, t') hk, ?_⟩
    change Entries.get? k (toDataEntries f es) = _
    apply Entries.get?_eq_some_of_mem
    . rw [keys_toDataEntries]
      exact ht.1
    . rw [toDataEntries_eq, List.mem_map]
      exact ⟨(k, t'), hk, rfl⟩

theorem at?_toData {t : Template} (ht : t.keysDistinct = true) (f : Place → Data) {route : Place}
    {leaf : Leaf} (hl : (route, leaf) ∈ t.leaves) :
    (t.toData f).at? route = some (leaf.toData f route) := by
  induction route generalizing t f with
  | nil =>
    rw [nil_mem_leaves_iff.mp hl]
    cases leaf with
    | wildcard => rfl
    | scalar s => rfl
  | cons b route ih =>
    obtain ⟨t', hb, hl⟩ := cons_mem_leaves_iff.mp hl
    obtain ⟨ht', hstep⟩ := step?_toData ht f hb
    rw [Data.at?_cons, hstep, Option.bind_some, ih ht' _ hl]
    cases leaf with
    | wildcard => rfl
    | scalar s => rfl

mutual

theorem keysDistinct_toData {t : Template} (ht : t.keysDistinct = true) {f : Place → Data}
    (hf : ∀ p, (p, .wildcard) ∈ t.leaves → (f p).keysDistinct = true) :
    (t.toData f).keysDistinct = true := by
  cases t with
  | wildcard =>
    unfold toData
    exact hf [] (List.mem_singleton.mpr rfl)
  | scalar s => rfl
  | sequence ts =>
    unfold toData Data.keysDistinct
    exact keysDistinctItems_toData ht hf
  | mapping es =>
    unfold keysDistinct at ht
    rw [Bool.and_eq_true, decide_eq_true_eq] at ht
    unfold toData Data.keysDistinct
    rw [Bool.and_eq_true, decide_eq_true_eq, keys_toDataEntries]
    exact ⟨ht.1, keysDistinctEntries_toData ht.2 hf⟩

theorem keysDistinctItems_toData {ts : List Template} (ht : keysDistinctItems ts = true)
    {f : Place → Data} {i : Nat}
    (hf : ∀ p, (p, .wildcard) ∈ leavesOfItems i ts → (f p).keysDistinct = true) :
    Data.keysDistinctItems (toDataItems f i ts) = true := by
  cases ts with
  | nil => rfl
  | cons t ts =>
    unfold keysDistinctItems at ht
    rw [Bool.and_eq_true] at ht
    unfold leavesOfItems at hf
    unfold toDataItems Data.keysDistinctItems
    rw [Bool.and_eq_true]
    constructor
    . apply keysDistinct_toData ht.1
      intro p hp
      exact hf _ (List.mem_append_left _ (mem_under hp))
    . apply keysDistinctItems_toData ht.2
      intro p hp
      exact hf p (List.mem_append_right _ hp)

theorem keysDistinctEntries_toData {es : List (String × Template)}
    (ht : keysDistinctEntries es = true) {f : Place → Data}
    (hf : ∀ p, (p, .wildcard) ∈ leavesOfEntries es → (f p).keysDistinct = true) :
    Data.keysDistinctEntries (toDataEntries f es) = true := by
  cases es with
  | nil => rfl
  | cons e es =>
    unfold keysDistinctEntries at ht
    rw [Bool.and_eq_true] at ht
    unfold leavesOfEntries at hf
    unfold toDataEntries Data.keysDistinctEntries
    rw [Bool.and_eq_true]
    constructor
    . apply keysDistinct_toData ht.1
      intro p hp
      exact hf _ (List.mem_append_left _ (mem_under hp))
    . apply keysDistinctEntries_toData ht.2
      intro p hp
      exact hf p (List.mem_append_right _ hp)

end

end Template

namespace Validator

/--
A strict validator accepts the candidate that its template describes if no empty container was put
in the place of a wildcard. An empty container lets the wildcard down, unless its route leads from
some place of the candidate to something else.
-/
theorem validateOne_toData {v : Validator} (hv : v.paths = []) (hstrict : v.strict = true)
    {t : Template} (ht : t.keysDistinct = true) (hfits : t.positionsFit = true) {f : Place → Data}
    (hf : ∀ p, (p, .wildcard) ∈ t.leaves → (f p).keysDistinct = true) :
    ∃ verdict, ((v.load t).validateOne Matcher.byPath (t.toData f)).run.run () = (.ok verdict, ())
      ∧ (verdict = true ↔ ∀ route, (route, .wildcard) ∈ t.leaves →
          ∃ p q c, ((t.toData f).at? p).isSome ∧ (t.toData f).Reaches route p q
            ∧ (t.toData f).at? q = some c ∧ (c.isScalar = true ∨ c.branches ≠ []))
      ∧ ((∀ p, (p, .wildcard) ∈ t.leaves → (f p).isScalar = true ∨ (f p).branches ≠ []) →
          verdict = true) := by
  have hd := Template.keysDistinct_toData ht hf
  have hscalar : ∀ route s, (route, .scalar s) ∈ t.leaves →
      (Path.ofLeaf (route, .scalar s)).selectsAny (t.toData f) = true := by
    intro route s hl
    exact Path.selectsAny_ofLeaf_of_at? hd (Template.at?_toData ht f hl)
      (Data.agrees_of_text?_eq rfl)
  refine ⟨_, validateOne_load hv hfits (t.toData f), ?_⟩
  rw [if_pos hstrict, List.all_eq_true]
  constructor
  . constructor
    . intro hall route hl
      exact (Path.selectsAny_ofLeaf_wildcard_iff hd route).mp (hall _ hl)
    . intro hwildcards
      rintro ⟨route, leaf⟩ hl
      cases leaf with
      | wildcard => exact (Path.selectsAny_ofLeaf_wildcard_iff hd route).mpr (hwildcards route hl)
      | scalar s => exact hscalar route s hl
  . intro hfilled
    rintro ⟨route, leaf⟩ hl
    cases leaf with
    | wildcard =>
      -- what was put in the place of the wildcard is not empty, and its route leads there
      exact Path.selectsAny_ofLeaf_of_at? hd (Template.at?_toData ht f hl) (hfilled route hl)
    | scalar s => exact hscalar route s hl

theorem validateOne_toData_filled :
    (((⟨{}, true, []⟩ : Validator).load
        (.mapping [("a", .wildcard), ("b", .sequence [.scalar "7", .wildcard])])).validateOne
      Matcher.byPath
        (.mapping [("a", .mapping [("c", .sequence [])]),
          ("b", .sequence [.string "7", .null])])).run.run () = (.ok true, ()) := by
  obtain ⟨verdict, hrun, _, haccepts⟩ := validateOne_toData (v := ⟨{}, true, []⟩) rfl rfl
    (t := .mapping [("a", .wildcard), ("b", .sequence [.scalar "7", .wildcard])]) rfl rfl
    (f := fun p => if p = [.key "a"] then .mapping [("c", .sequence [])] else .null)
    (by intro p _; split <;> rfl)
  have hverdict : verdict = true := by
    apply haccepts
    intro p _
    split
    . exact .inr (List.cons_ne_nil _ _)
    . exact .inl rfl
  rw [hverdict] at hrun
  exact hrun

theorem validateOne_toData_emptied :
    (Template.mapping [("a", .wildcard)]).toData (fun _ => .sequence [])
        = .mapping [("a", .sequence [])]
      ∧ (((⟨{}, true, []⟩ : Validator).load (.mapping [("a", .wildcard)])).validateOne
          Matcher.byPath (.mapping [("a", .sequence [])])).run.run () = (.ok false, ()) := by
  constructor
  . rfl
  . rw [validateOne_load rfl rfl]
    rfl

end Validator

end TemplateCheck
