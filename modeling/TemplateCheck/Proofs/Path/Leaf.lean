import TemplateCheck.Proofs.Compile.Leaves
import TemplateCheck.Proofs.Path.Reading

/-!
This module contains the path that a leaf of a template stands for, and that reading its text gives
just that path. So the reader of paths understands every compiled path.
-/

namespace TemplateCheck

def Branch.toStep (axis : Axis) : Branch → Step
  | .key k => ⟨axis, .key k, none⟩
  | .index i => ⟨axis, .anyChild, some (.index i)⟩

/--
The last step of the path of a leaf, which depends on the last step of its route: a scalar at the
root or in a sequence is the node itself, and a scalar in a mapping is what is inside the node.
-/
def Leaf.lastStep (leaf : Leaf) (last? : Option Branch) : Step :=
  match leaf, last? with
  | .wildcard, none => ⟨.descendantOrSelf, .anyChild, none⟩
  | .wildcard, some _ => ⟨.child, .anyChild, none⟩
  | .scalar s, some (.key _) => ⟨.child, .anyChild, some (.ofText s)⟩
  | .scalar s, _ => ⟨.child, .current, some (.ofText s)⟩

def Path.ofRoute : Place → Path
  | [] => []
  | b :: route => b.toStep .descendantOrSelf :: route.map (Branch.toStep .child)

def Path.ofLeaf (l : Place × Leaf) : Path :=
  ofRoute l.1 ++ [l.2.lastStep l.1.getLast?]

namespace Path

theorem readStep_eq_ok {s s₁ s₂ s₃ : List Char} {axis : Axis} {selector : Selector}
    {filter? : Option Filter} (haxis : readAxis s = .ok (axis, s₁))
    (hselector : readSelector s₁ = .ok (selector, s₂))
    (hfilter : readFilter? s₂ = .ok (filter?, s₃)) :
    readStep s = .ok (⟨axis, selector, filter?⟩, s₃) := by
  apply Outcome.bind_eq_ok_iff.mpr
  refine ⟨_, haxis, ?_⟩
  apply Outcome.bind_eq_ok_iff.mpr
  refine ⟨_, hselector, ?_⟩
  apply Outcome.bind_eq_ok_iff.mpr
  exact ⟨_, hfilter, rfl⟩

def slashes : Axis → List Char
  | .child => ['/']
  | .descendantOrSelf => ['/', '/']

theorem readAxis_slashes (axis : Axis) {c : Char} (hc : c ≠ '/') (s : List Char) :
    readAxis (slashes axis ++ c :: s) = .ok (axis, c :: s) := by
  apply Outcome.bind_eq_ok_iff.mpr
  cases axis with
  | descendantOrSelf => exact ⟨'/' :: c :: s, rfl, rfl⟩
  | child =>
    refine ⟨c :: s, rfl, ?_⟩
    split
    . next h =>
      cases h
      contradiction
    . rfl

theorem readStep_filter (axis : Axis) {c : Char} (hc : c ≠ '/') {selector : Selector}
    (hselector : ∀ s, readSelector (c :: s) = .ok (selector, s)) {s rest : List Char}
    {filter : Filter} (hfilter : readFilter s = .ok (filter, rest)) :
    readStep (slashes axis ++ c :: '[' :: s) = .ok (⟨axis, selector, some filter⟩, rest) := by
  apply readStep_eq_ok (readAxis_slashes axis hc ('[' :: s)) (hselector ('[' :: s))
  change (readFilter s).map _ = _
  rw [hfilter]
  rfl

theorem exists_keySegment_eq_cons (quoteAll : Bool) (k : List Char) :
    ∃ c s, keySegment quoteAll k = c :: s ∧ c ≠ '/' := by
  unfold keySegment
  split
  . next h =>
    unfold isPlainKey at h
    cases k with
    | nil => simp at h
    | cons c k =>
      refine ⟨c, k, rfl, ?_⟩
      intro hc
      subst hc
      simp [show isKeyChar '/' = false from rfl] at h
  . exact ⟨'"', _, rfl, by decide⟩

section Written

open Compile

variable (options : Options) (axis : Axis)

theorem readSelector_segmentText_key (k : String) (rest : List Char) :
    readSelector ((segmentText options (.key k)).toList ++ '/' :: rest)
      = .ok (.key k, '/' :: rest) := by
  unfold segmentText
  rw [String.toList_ofList, readSelector_keySegment _ _ rfl, String.ofList_toList]

theorem readStep_key (k : String) (rest : List Char) :
    readStep (slashes axis ++ ((segmentText options (.key k)).toList ++ '/' :: rest))
      = .ok ((Branch.key k).toStep axis, '/' :: rest) := by
  have hselector := readSelector_segmentText_key options k rest
  unfold segmentText at hselector ⊢
  rw [String.toList_ofList] at hselector ⊢
  obtain ⟨c, s, hs, hc⟩ := exists_keySegment_eq_cons options.quoteAllKeys k.toList
  rw [hs] at hselector ⊢
  exact readStep_eq_ok (readAxis_slashes axis hc (s ++ '/' :: rest)) hselector rfl

theorem toList_segmentText_index (i : Nat) (rest : List Char) :
    (segmentText options (.index i)).toList ++ rest
      = '*' :: '[' :: (" idx == ".toList ++ (Nat.toDigits 10 i ++ (" ]".toList ++ rest))) := by
  change ("*[ idx == " ++ i.repr ++ " ]").toList ++ rest = _
  simp only [String.toList_append, Nat.toList_repr, List.append_assoc]
  rfl

theorem readStep_index {i : Nat} (hi : fitsWord i = true) (rest : List Char) :
    readStep (slashes axis ++ ((segmentText options (.index i)).toList ++ '/' :: rest))
      = .ok ((Branch.index i).toStep axis, '/' :: rest) := by
  rw [toList_segmentText_index]
  exact readStep_filter axis (by decide) (fun _ => rfl) (readFilter_index hi ('/' :: rest))

theorem readStep_segment {b : Branch} (hb : b.fits = true) (rest : List Char) :
    readStep (slashes axis ++ ((segmentText options b).toList ++ '/' :: rest))
      = .ok (b.toStep axis, '/' :: rest) := by
  cases b with
  | key k => exact readStep_key options axis k rest
  | index i => exact readStep_index options axis hb rest

theorem toList_ending_scalar (slot : Slot) (s : String) :
    (ending slot (.scalar s)).toList
      = (ending.opening slot).toList ++ (comparison s.toList ++ (" ]".toList ++ [])) := by
  unfold ending
  simp only [String.toList_append, String.toList_ofList, List.append_assoc, List.append_nil]

theorem readStep_ending (b : Branch) (leaf : Leaf) :
    readStep (ending (slotOf b) leaf).toList = .ok (leaf.lastStep (some b), []) := by
  cases leaf with
  | wildcard =>
    change readStep "/*".toList = _
    rfl
  | scalar s =>
    have hfilter := readFilter_comparison s.toList []
    rw [String.ofList_toList] at hfilter
    rw [toList_ending_scalar]
    cases b with
    | key k =>
      change readStep ("/*[ value ".toList ++ _) = _
      exact readStep_filter .child (c := '*') (by decide) (fun _ => rfl) hfilter
    | index i =>
      change readStep ("/.[ value ".toList ++ _) = _
      exact readStep_filter .child (c := '.') (by decide) (fun _ => rfl) hfilter

end Written

theorem readSteps_cons {s rest : List Char} {step : Step}
    (h : readStep s = .ok (step, '/' :: rest)) :
    readSteps s = (readSteps ('/' :: rest)).map (step :: ·) := by
  rw [readSteps]
  split
  . next h' =>
    rw [h] at h'
    contradiction
  . next h' =>
    rw [h] at h'
    cases h'
    rfl

theorem readSteps_last {s : List Char} {step : Step} (h : readStep s = .ok (step, [])) :
    readSteps s = .ok [step] := by
  rw [readSteps]
  split
  . next h' =>
    rw [h] at h'
    contradiction
  . next h' =>
    rw [h] at h'
    cases h'
    rfl

section Written

open Compile

variable (options : Options)

theorem toList_routeText_cons (b : Branch) (route : Place) :
    (routeText options (b :: route)).toList
      = '/' :: ((segmentText options b).toList ++ (routeText options route).toList) := by
  rw [routeText, String.toList_append, String.toList_append]
  rfl

theorem exists_toList_ending_eq (b : Branch) (leaf : Leaf) :
    ∃ s, (ending (slotOf b) leaf).toList = '/' :: s := by
  cases leaf with
  | wildcard =>
    change ∃ s, "/*".toList = '/' :: s
    exact ⟨['*'], rfl⟩
  | scalar s =>
    rw [toList_ending_scalar]
    cases b with
    | key k =>
      change ∃ s', "/*[ value ".toList ++ _ = '/' :: s'
      exact ⟨_, rfl⟩
    | index i =>
      change ∃ s', "/.[ value ".toList ++ _ = '/' :: s'
      exact ⟨_, rfl⟩

theorem exists_toList_route_eq (route : Place) (b : Branch) (leaf : Leaf) :
    ∃ s, (routeText options route).toList ++ (ending (slotOf b) leaf).toList = '/' :: s := by
  cases route with
  | nil => exact exists_toList_ending_eq b leaf
  | cons c route =>
    rw [toList_routeText_cons]
    exact ⟨_, rfl⟩

theorem readSteps_route (b : Branch) (leaf : Leaf) {route : Place}
    (hfits : route.all Branch.fits = true) :
    readSteps ((routeText options route).toList ++ (ending (slotOf b) leaf).toList)
      = .ok (route.map (Branch.toStep .child) ++ [leaf.lastStep (some b)]) := by
  induction route with
  | nil => exact readSteps_last (readStep_ending b leaf)
  | cons c route ih =>
    rw [List.all_cons, Bool.and_eq_true] at hfits
    obtain ⟨s, hs⟩ := exists_toList_route_eq options route b leaf
    rw [toList_routeText_cons, List.cons_append, List.append_assoc, hs]
    change readSteps (slashes .child ++ ((segmentText options c).toList ++ '/' :: s)) = _
    rw [readSteps_cons (readStep_segment options .child hfits.1 s)]
    rw [← hs, ih hfits.2]
    rfl

theorem readAll_slash {s : List Char} (hs : s ≠ []) :
    readAll ('/' :: s) = readSteps ('/' :: s) := by
  change (if '/' :: s = ['/'] then .ok [] else readSteps ('/' :: s)) = _
  rw [if_neg]
  simpa using hs

theorem readAll_root (leaf : Leaf) :
    readAll ('/' :: (ending .root leaf).toList) = .ok (ofLeaf ([], leaf)) := by
  cases leaf with
  | wildcard =>
    change readAll ('/' :: "/*".toList) = _
    rw [readAll_slash (by decide)]
    exact readSteps_last rfl
  | scalar s =>
    have hfilter := readFilter_comparison s.toList []
    rw [String.ofList_toList] at hfilter
    rw [toList_ending_scalar]
    change readAll ('/' :: (".[ value ".toList ++ _)) = _
    rw [readAll_slash (by simp)]
    apply readSteps_last
    exact readStep_filter .child (c := '.') (by decide) (fun _ => rfl) hfilter

theorem getLast?_cons_eq (b : Branch) (route : Place) :
    ∃ last, (b :: route).getLast? = some last := by
  rw [List.getLast?_cons]
  exact ⟨_, rfl⟩

theorem readAll_leafText (l : Place × Leaf) (hfits : l.1.all Branch.fits = true) :
    readAll (leafText options "/" .root l).toList = .ok (ofLeaf l) := by
  obtain ⟨route, leaf⟩ := l
  unfold leafText
  rw [String.toList_append, String.toList_append]
  cases route with
  | nil => exact readAll_root leaf
  | cons b route =>
    obtain ⟨last, hlast⟩ := getLast?_cons_eq b route
    -- only the last step of the route decides how the text ends
    have hslot : slotAt .root (b :: route) = slotOf last := by
      unfold slotAt
      rw [hlast]
    rw [List.all_cons, Bool.and_eq_true] at hfits
    obtain ⟨s, hs⟩ := exists_toList_route_eq options route last leaf
    change readAll ('/' :: ((routeText options (b :: route)).toList ++ (ending _ leaf).toList)) = _
    rw [hslot, toList_routeText_cons, List.cons_append, List.append_assoc, hs]
    rw [readAll_slash (by simp)]
    change readSteps (slashes .descendantOrSelf ++ ((segmentText options b).toList ++ '/' :: s)) = _
    rw [readSteps_cons (readStep_segment options .descendantOrSelf hfits.1 s)]
    rw [← hs, readSteps_route options last leaf hfits.2]
    unfold ofLeaf
    rw [hlast]
    rfl

end Written

end Path

namespace Compile

theorem parse_leafText (options : Options) {t : Template} (ht : t.positionsFit = true)
    {l : Place × Leaf} (hl : l ∈ t.leaves) :
    Path.parse (leafText options "/" .root l) = .ok (Path.ofLeaf l) := by
  unfold Path.parse
  dsimp only
  rw [Path.readAll_leafText options l (Template.fits_of_mem_leaves ht hl)]
  rfl

theorem map_parse_paths (options : Options) {t : Template} (ht : t.positionsFit = true) :
    (compile options t).paths.map Path.parse = t.leaves.map fun l => .ok (Path.ofLeaf l) := by
  rw [compile_paths_eq, List.map_map]
  apply List.map_congr_left
  intro l hl
  exact parse_leafText options ht hl

theorem map_parse_paths_quotes :
    (Template.mapping [("a/b", .sequence [.scalar "it's", .scalar "-7"])]).positionsFit = true
      ∧ (compile {}
          (.mapping [("a/b", .sequence [.scalar "it's", .scalar "-7"])])).paths.map Path.parse
        = [.ok [⟨.descendantOrSelf, .key "a/b", none⟩, ⟨.child, .anyChild, some (.index 0)⟩,
            ⟨.child, .current, some (.textEq "it's")⟩],
          .ok [⟨.descendantOrSelf, .key "a/b", none⟩, ⟨.child, .anyChild, some (.index 1)⟩,
            ⟨.child, .current, some (.numberEq (.ofInt (-7)))⟩]] :=
  ⟨rfl, map_parse_paths {} rfl⟩

end Compile

end TemplateCheck
