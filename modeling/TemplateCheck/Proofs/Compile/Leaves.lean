import TemplateCheck.Compile
import TemplateCheck.Proofs.Template.Leaves

/-!
This module contains the form of the compiled paths: one for every leaf, made of the text of its
route and the text of its condition.
-/

namespace TemplateCheck

namespace Compile

def routeText (options : Options) : Place → String
  | [] => ""
  | b :: route => "/" ++ segmentText options b ++ routeText options route

def slotAt (slot : Slot) (route : Place) : Slot :=
  match route.getLast? with
  | none => slot
  | some b => slotOf b

def leafText (options : Options) (pre : String) (slot : Slot) (l : Place × Leaf) : String :=
  pre ++ routeText options l.1 ++ ending (slotAt slot l.1) l.2

theorem slotAt_cons (slot : Slot) (b : Branch) (route : Place) :
    slotAt slot (b :: route) = slotAt (slotOf b) route := by
  unfold slotAt
  rw [List.getLast?_cons]
  cases route.getLast? with
  | none => rfl
  | some c => rfl

theorem leafText_cons (options : Options) (pre : String) (slot : Slot) (b : Branch)
    (l : Place × Leaf) :
    leafText options pre slot (b :: l.1, l.2)
      = leafText options (pre ++ "/" ++ segmentText options b) (slotOf b) l := by
  unfold leafText
  rw [slotAt_cons]
  simp only [routeText, String.append_assoc]

theorem map_leafText_under (options : Options) (pre : String) (slot : Slot) (b : Branch)
    (ls : List (Place × Leaf)) :
    (Template.under b ls).map (leafText options pre slot)
      = ls.map (leafText options (pre ++ "/" ++ segmentText options b) (slotOf b)) := by
  unfold Template.under
  rw [List.map_map]
  apply List.map_congr_left
  intro l _
  apply leafText_cons

mutual

theorem plainPaths_eq_map (options : Options) (pre : String) (slot : Slot) (t : Template) :
    plainPaths options pre slot t = t.leaves.map (leafText options pre slot) := by
  cases t with
  | wildcard => simp [plainPaths, Template.leaves, leafText, routeText, slotAt]
  | scalar text => simp [plainPaths, Template.leaves, leafText, routeText, slotAt]
  | sequence items =>
    unfold plainPaths Template.leaves
    apply plainPathsOfItems_eq_map
  | mapping entries =>
    unfold plainPaths Template.leaves
    apply plainPathsOfEntries_eq_map

theorem plainPathsOfItems_eq_map (options : Options) (pre : String) (slot : Slot) (i : Nat)
    (ts : List Template) :
    plainPathsOfItems options (pre ++ "/") i ts
      = (Template.leavesOfItems i ts).map (leafText options pre slot) := by
  cases ts with
  | nil => rfl
  | cons t ts =>
    unfold plainPathsOfItems Template.leavesOfItems
    rw [List.map_append, map_leafText_under]
    rw [plainPaths_eq_map, plainPathsOfItems_eq_map options pre slot]
    rfl

theorem plainPathsOfEntries_eq_map (options : Options) (pre : String) (slot : Slot)
    (es : List (String × Template)) :
    plainPathsOfEntries options (pre ++ "/") es
      = (Template.leavesOfEntries es).map (leafText options pre slot) := by
  cases es with
  | nil => rfl
  | cons e es =>
    obtain ⟨k, t⟩ := e
    unfold plainPathsOfEntries Template.leavesOfEntries
    rw [List.map_append, map_leafText_under]
    rw [plainPaths_eq_map, plainPathsOfEntries_eq_map options pre slot]
    rfl

end

theorem compile_paths_eq (options : Options) (t : Template) :
    (compile options t).paths = t.leaves.map (leafText options "/" .root) := by
  rw [compile_eq_plain]
  apply plainPaths_eq_map

theorem length_paths (options : Options) (t : Template) :
    (compile options t).paths.length = t.leafCount := by
  rw [compile_paths_eq, List.length_map, Template.length_leaves]

end Compile

end TemplateCheck
