import TemplateCheck.Proofs.Compile.Asserted
import TemplateCheck.Proofs.Compile.Leaves
import TemplateCheck.Proofs.Template.Determined

/-!
This module contains what the counters of a compilation count, and that a compilation as a whole is
a plain recursion over the template.
-/

namespace TemplateCheck

namespace Template

mutual

def nodes : Template → List Template
  | .wildcard => [.wildcard]
  | .scalar text => [.scalar text]
  | .sequence items => .sequence items :: nodesOfItems items
  | .mapping entries => .mapping entries :: nodesOfEntries entries

def nodesOfItems : List Template → List Template
  | [] => []
  | t :: ts => t.nodes ++ nodesOfItems ts

def nodesOfEntries : List (String × Template) → List Template
  | [] => []
  | (_, t) :: es => t.nodes ++ nodesOfEntries es

end

def containerCount (ts : List Template) : Nat :=
  ts.countP isContainer

def memberCount (ts : List Template) : Nat :=
  ts.foldr (fun t n => t.branches.length + n) 0

theorem containerCount_append (ts us : List Template) :
    containerCount (ts ++ us) = containerCount ts + containerCount us :=
  List.countP_append

theorem memberCount_append (ts us : List Template) :
    memberCount (ts ++ us) = memberCount ts + memberCount us := by
  unfold memberCount
  induction ts with
  | nil => rw [List.nil_append, List.foldr_nil, Nat.zero_add]
  | cons t ts ih => rw [List.cons_append, List.foldr_cons, List.foldr_cons, ih, Nat.add_assoc]

theorem containerCount_cons {t : Template} (ht : t.isContainer = true) (ts : List Template) :
    containerCount (t :: ts) = containerCount ts + 1 :=
  List.countP_cons_of_pos ht

theorem memberCount_cons (t : Template) (ts : List Template) :
    memberCount (t :: ts) = t.branches.length + memberCount ts :=
  rfl

theorem length_branches_sequence (ts : List Template) :
    (sequence ts).branches.length = ts.length := by
  unfold branches
  rw [List.length_map, List.length_zipIdx]

theorem length_branches_mapping (es : List (String × Template)) :
    (mapping es).branches.length = es.length := by
  unfold branches
  rw [List.length_map]

mutual

theorem levels_eq (t : Template) :
    t.levels = containerCount t.nodes + memberCount t.nodes := by
  cases t with
  | wildcard => rfl
  | scalar text => rfl
  | sequence ts =>
    have := levelsOfItems_eq ts
    unfold levels nodes
    rw [containerCount_cons rfl, memberCount_cons, length_branches_sequence]
    omega
  | mapping es =>
    have := levelsOfEntries_eq es
    unfold levels nodes
    rw [containerCount_cons rfl, memberCount_cons, length_branches_mapping]
    omega

theorem levelsOfItems_eq (ts : List Template) :
    levelsOfItems ts
      = containerCount (nodesOfItems ts) + memberCount (nodesOfItems ts) + ts.length := by
  cases ts with
  | nil => rfl
  | cons t ts =>
    have := levels_eq t
    have := levelsOfItems_eq ts
    unfold levelsOfItems nodesOfItems
    rw [containerCount_append, memberCount_append, List.length_cons]
    omega

theorem levelsOfEntries_eq (es : List (String × Template)) :
    levelsOfEntries es
      = containerCount (nodesOfEntries es) + memberCount (nodesOfEntries es) + es.length := by
  cases es with
  | nil => rfl
  | cons e es =>
    obtain ⟨k, t⟩ := e
    have := levels_eq t
    have := levelsOfEntries_eq es
    unfold levelsOfEntries nodesOfEntries
    rw [containerCount_append, memberCount_append, List.length_cons]
    omega

end

theorem map_snd_branches_mapping (es : List (String × Template)) :
    (mapping es).branches.map Prod.snd = es.map Prod.snd := by
  unfold branches
  rw [List.map_map]
  rfl

theorem heightOfItems_eq (ts : List Template) :
    heightOfItems ts = ((ts.map height).max?.map (· + 1)).getD 0 := by
  induction ts with
  | nil => rfl
  | cons t ts ih =>
    unfold heightOfItems
    rw [ih, List.map_cons, List.max?_cons]
    cases (ts.map height).max? with
    | none => exact Nat.max_zero _
    | some n => exact Nat.add_max_add_right t.height n 1

theorem heightOfEntries_eq (es : List (String × Template)) :
    heightOfEntries es = heightOfItems (es.map Prod.snd) := by
  induction es with
  | nil => rfl
  | cons e es ih =>
    obtain ⟨k, t⟩ := e
    unfold heightOfEntries
    rw [ih]
    rfl

theorem height_eq (t : Template) :
    t.height = if t.isContainer
      then ((t.branches.map fun b => b.2.height).max?.map (· + 2)).getD 1 else 0 := by
  have hmap : (t.branches.map fun b => b.2.height) = (t.branches.map Prod.snd).map height := by
    rw [List.map_map]
    rfl
  have hsucc (m? : Option Nat) : (m?.map (· + 1)).getD 0 + 1 = (m?.map (· + 2)).getD 1 := by
    cases m? with
    | none => rfl
    | some n => rfl
  rw [hmap]
  cases t with
  | wildcard => rfl
  | scalar text => rfl
  | sequence ts =>
    rw [map_snd_branches_sequence, height, heightOfItems_eq]
    exact hsucc _
  | mapping es =>
    rw [map_snd_branches_mapping, height, heightOfEntries_eq, heightOfItems_eq]
    exact hsucc _

end Template

namespace Compile

open Template (containerCount memberCount)

/--
A compilation is a plain recursion over the template. No assertion stops it. Its paths are those of
the recursion that hands the text of the way so far down, so the text of every path is made of the
route of its own leaf; there is one for every leaf. The way goes down and up once for the root, once
for every container and once for every entry and element.
-/
theorem asserted?_eq_plain (options : Options) (t : Template) :
    asserted? options t = some (compile options t)
      ∧ compile options t = ⟨plainPaths options "/" .root t,
          ⟨1 + containerCount t.nodes + memberCount t.nodes,
            1 + containerCount t.nodes + memberCount t.nodes, 1 + t.height⟩⟩
      ∧ plainPaths options "/" .root t = t.leaves.map (leafText options "/" .root)
      ∧ (compile options t).paths.length = t.leafCount
      ∧ ∀ u : Template, u.height = if u.isContainer
          then ((u.branches.map fun b => b.2.height).max?.map (· + 2)).getD 1 else 0 := by
  refine ⟨asserted?_eq_some options t, ?_, plainPaths_eq_map options "/" .root t,
    length_paths options t, Template.height_eq⟩
  have hlevels : t.levels + 1 = 1 + containerCount t.nodes + memberCount t.nodes := by
    rw [Template.levels_eq]
    omega
  rw [compile_eq_plain, hlevels, Nat.add_comm t.height 1]

end Compile

end TemplateCheck
