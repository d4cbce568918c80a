import TemplateCheck.Proofs.Path.Leaf
import TemplateCheck.Proofs.Template.Determined

/-!
This module contains that nothing is lost when a template is compiled: no two steps, no two
conditions and so no two leaves are written alike, whatever characters their texts have.
-/

namespace TemplateCheck

namespace Path

theorem quoted_inj {q : Char} (hq : q = '\'' ∨ q = '"') {s s' : List Char}
    (h : Text.quoted q s = Text.quoted q s') : s = s' := by
  have hs := readString_quoted hq s []
  rw [h, readString_quoted hq s' [], Except.ok.injEq, Prod.mk.injEq] at hs
  exact hs.1.symm

theorem comparison_inj {s s' : List Char} (h : comparison s = comparison s') : s = s' := by
  unfold comparison at h
  split at h
  . split at h
    . simpa using h
    . simp at h
  . split at h
    . simp at h
    . simp only [List.cons.injEq, true_and] at h
      exact quoted_inj (.inl rfl) h

theorem toDigits_append_inj {i j : Nat} {c : Char} (hc : isNumeralChar c = false)
    {s s' : List Char} (h : Nat.toDigits 10 i ++ c :: s = Nat.toDigits 10 j ++ c :: s') :
    i = j ∧ s = s' := by
  have hi := readNumeral_append (all_isNumeralChar_toDigits i) Nat.toDigits_ne_nil hc s
  rw [h, readNumeral_append (all_isNumeralChar_toDigits j) Nat.toDigits_ne_nil hc s'] at hi
  rw [Except.ok.injEq, Prod.mk.injEq, List.cons.injEq] at hi
  refine ⟨?_, hi.2.2.symm⟩
  rw [← Nat.ofDigitChars_ten_toDigits (n := i), ← hi.1, Nat.ofDigitChars_ten_toDigits]

end Path

namespace Compile

open TemplateCheck.Path

variable (options : Options)

theorem segmentText_append_inj {b c : Branch} {s s' : List Char}
    (h : (segmentText options b).toList ++ '/' :: s
      = (segmentText options c).toList ++ '/' :: s') : b = c ∧ s = s' := by
  cases b with
  | key k =>
    have hread := readSelector_segmentText_key options k s
    rw [h] at hread
    cases c with
    | key l =>
      rw [readSelector_segmentText_key] at hread
      cases hread
      exact ⟨rfl, rfl⟩
    | index j =>
      rw [toList_segmentText_index] at hread
      cases hread
  | index i =>
    cases c with
    | key l =>
      have hread := readSelector_segmentText_key options l s'
      rw [← h, toList_segmentText_index] at hread
      cases hread
    | index j =>
      rw [toList_segmentText_index, toList_segmentText_index] at h
      rw [List.cons_inj_right, List.cons_inj_right, List.append_cancel_left_eq] at h
      obtain ⟨rfl, hs⟩ := toDigits_append_inj rfl h
      cases hs
      exact ⟨rfl, rfl⟩

theorem toList_ending_wildcard (slot : Slot) : (ending slot .wildcard).toList = ['/', '*'] := by
  change "/*".toList = _
  rfl

theorem two_lt_length_opening (slot : Slot) : 2 < (ending.opening slot).toList.length := by
  cases slot <;> decide

theorem ending_wildcard_ne (slot : Slot) (s : String) :
    (ending slot .wildcard).toList ≠ (ending slot (.scalar s)).toList := by
  rw [toList_ending_wildcard, toList_ending_scalar]
  intro h
  have hlength := congrArg List.length h
  have := two_lt_length_opening slot
  rw [List.length_append] at hlength
  change 2 = _ at hlength
  omega

theorem ending_inj {slot : Slot} {leaf leaf' : Leaf}
    (h : (ending slot leaf).toList = (ending slot leaf').toList) : leaf = leaf' := by
  cases leaf with
  | wildcard =>
    cases leaf' with
    | wildcard => rfl
    | scalar s => exact absurd h (ending_wildcard_ne slot s)
  | scalar s =>
    cases leaf' with
    | wildcard => exact absurd h.symm (ending_wildcard_ne slot s)
    | scalar s' =>
      rw [toList_ending_scalar, toList_ending_scalar, List.append_cancel_left_eq] at h
      rw [List.append_cancel_right_eq] at h
      rw [String.toList_inj.mp (comparison_inj h)]

theorem ending_ne_segment (slot : Slot) (leaf : Leaf) (b : Branch) (s : List Char) :
    (ending slot leaf).toList ≠ '/' :: ((segmentText options b).toList ++ '/' :: s) := by
  intro h
  cases b with
  | key k =>
    have hread : readSelector (ending slot leaf).toList.tail = .ok (.key k, '/' :: s) := by
      rw [h]
      exact readSelector_segmentText_key options k s
    cases leaf with
    | wildcard =>
      rw [toList_ending_wildcard] at hread
      cases hread
    | scalar s =>
      rw [toList_ending_scalar] at h hread
      cases slot with
      | element => simp [ending.opening, readSelector] at hread
      | value => simp [ending.opening, readSelector] at hread
      | key | root => simp [ending.opening] at h
  | index i =>
    -- the name of what is tested tells a position from a value
    have htake : (ending slot leaf).toList.take 5 = "/*[ i".toList := by
      rw [h, toList_segmentText_index]
      rfl
    cases leaf with
    | wildcard =>
      rw [toList_ending_wildcard] at htake
      contradiction
    | scalar s =>
      rw [toList_ending_scalar] at htake
      cases slot <;> simp [ending.opening] at htake

def wayText (slot : Slot) (l : Place × Leaf) : List Char :=
  (routeText options l.1).toList ++ (ending (slotAt slot l.1) l.2).toList

theorem toList_leafText (pre : String) (slot : Slot) (l : Place × Leaf) :
    (leafText options pre slot l).toList = pre.toList ++ wayText options slot l := by
  unfold leafText wayText
  rw [String.toList_append, String.toList_append, List.append_assoc]

theorem wayText_nil (slot : Slot) (leaf : Leaf) :
    wayText options slot ([], leaf) = (ending slot leaf).toList := by
  rfl

theorem exists_wayText_cons_eq (slot : Slot) (b : Branch) (route : Place) (leaf : Leaf) :
    ∃ s, wayText options (slotOf b) (route, leaf) = '/' :: s
      ∧ wayText options slot (b :: route, leaf)
        = '/' :: ((segmentText options b).toList ++ '/' :: s) := by
  obtain ⟨c, hc⟩ : ∃ c, slotAt (slotOf b) route = slotOf c := by
    unfold slotAt
    cases route.getLast? with
    | none => exact ⟨b, rfl⟩
    | some c => exact ⟨c, rfl⟩
  obtain ⟨s, hs⟩ := exists_toList_route_eq options route c leaf
  refine ⟨s, ?_, ?_⟩
  . unfold wayText
    rw [hc, hs]
  . unfold wayText
    rw [toList_routeText_cons, slotAt_cons, hc, List.cons_append, List.append_assoc, hs]

theorem wayText_inj {slot : Slot} {l l' : Place × Leaf}
    (h : wayText options slot l = wayText options slot l') : l = l' := by
  obtain ⟨route, leaf⟩ := l
  obtain ⟨route', leaf'⟩ := l'
  induction route generalizing slot route' with
  | nil =>
    cases route' with
    | nil => exact congrArg (Prod.mk []) (ending_inj h)
    | cons b route' =>
      obtain ⟨s, _, hs⟩ := exists_wayText_cons_eq options slot b route' leaf'
      rw [wayText_nil, hs] at h
      exact absurd h (ending_ne_segment options slot leaf b s)
  | cons b route ih =>
    obtain ⟨s, hway, hs⟩ := exists_wayText_cons_eq options slot b route leaf
    cases route' with
    | nil =>
      rw [wayText_nil, hs] at h
      exact absurd h.symm (ending_ne_segment options slot leaf' b s)
    | cons c route' =>
      obtain ⟨s', hway', hs'⟩ := exists_wayText_cons_eq options slot c route' leaf'
      rw [hs, hs', List.cons_inj_right] at h
      obtain ⟨rfl, rfl⟩ := segmentText_append_inj options h
      have hrest := ih route' (hway.trans hway'.symm)
      rw [Prod.mk.injEq] at hrest
      rw [hrest.1, hrest.2]

theorem leafText_inj {pre : String} {slot : Slot} {l l' : Place × Leaf}
    (h : leafText options pre slot l = leafText options pre slot l') : l = l' := by
  have hlist := congrArg String.toList h
  rw [toList_leafText, toList_leafText, List.append_cancel_left_eq] at hlist
  exact wayText_inj options hlist

/--
Different leaves never share a path, whatever characters are in the keys and texts on the way.
-/
theorem nodup_paths {t : Template} (hkeys : t.keysDistinct = true) :
    (compile options t).paths.Nodup := by
  rw [compile_paths_eq]
  apply List.Pairwise.map _ _ (Template.nodup_leaves hkeys)
  intro l l' hne heq
  exact hne (leafText_inj options heq)

theorem nodup_paths_quoted :
    (Template.mapping [("a", .mapping [("b", .scalar "x")]), ("a/b", .scalar "x"),
      ("\"a\"", .sequence [.scalar "x", .scalar "x", .wildcard]),
      ("c", .scalar "x' ]")]).keysDistinct = true
    ∧ (compile { quoteAllKeys := true } (.mapping [("a", .mapping [("b", .scalar "x")]),
      ("a/b", .scalar "x"), ("\"a\"", .sequence [.scalar "x", .scalar "x", .wildcard]),
      ("c", .scalar "x' ]")])).paths.Nodup := by
  have hkeys : (Template.mapping [("a", .mapping [("b", .scalar "x")]), ("a/b", .scalar "x"),
      ("\"a\"", .sequence [.scalar "x", .scalar "x", .wildcard]),
      ("c", .scalar "x' ]")]).keysDistinct = true := by
    decide
  exact ⟨hkeys, nodup_paths _ hkeys⟩

/--
Compilation is lossless: templates in which nothing is empty are the same if their paths are.
-/
theorem eq_of_paths_compile_eq {t t' : Template} (ht : t.NowhereEmpty) (ht' : t'.NowhereEmpty)
    (hkeys : t.keysDistinct = true) (hkeys' : t'.keysDistinct = true)
    (h : (compile options t).paths = (compile options t').paths) : t = t' := by
  rw [compile_paths_eq, compile_paths_eq, List.map_inj_right] at h
  . exact Template.eq_of_leaves_eq ht ht' hkeys hkeys' h
  . intro l l' hl
    exact leafText_inj options hl

theorem eq_of_paths_compile_eq_overwritten :
    (compile {} (.mapping [("b", .scalar "*"), ("a/b", .sequence [.wildcard, .scalar "5"])])).paths
        = ["//b/*[ value eq '*' ]", "//\"a/b\"/*[ idx == 0 ]/*",
          "//\"a/b\"/*[ idx == 1 ]/.[ value == 5 ]"]
      ∧ Template.mapping [("b", .scalar "*"), ("a/b", .sequence [.wildcard, .scalar "5"])]
        = .mapping (Entries.ofPairs [("b", .wildcard), ("a/b", .sequence [.wildcard, .scalar "5"]),
          ("b", .scalar "*")]) := by
  have hitems : (Template.sequence [.wildcard, .scalar "5"]).NowhereEmpty := by
    refine .sequence (List.cons_ne_nil _ _) (List.forall_mem_cons.mpr ⟨.wildcard, ?_⟩)
    exact List.forall_mem_singleton.mpr (.scalar "5")
  have hentries : (Template.mapping
      [("b", .scalar "*"), ("a/b", .sequence [.wildcard, .scalar "5"])]).NowhereEmpty := by
    refine .mapping (List.cons_ne_nil _ _) (List.forall_mem_cons.mpr ⟨.scalar "*", ?_⟩)
    exact List.forall_mem_singleton.mpr hitems
  refine ⟨by decide +kernel, ?_⟩
  exact eq_of_paths_compile_eq {} hentries hentries rfl rfl rfl

end Compile

end TemplateCheck
