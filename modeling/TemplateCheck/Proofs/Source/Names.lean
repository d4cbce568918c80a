import TemplateCheck.Source.Files

/-!
This module contains what the end of a file's name tells about the file.
-/

namespace TemplateCheck

namespace Source

theorem exists_splitOn_append {sep : Char} {suffix : List Char} (h : sep ∉ suffix)
    (s : List Char) : ∃ ps p, (s ++ suffix).splitOn sep = ps ++ [p ++ suffix] := by
  induction s with
  | nil => exact ⟨[], [], List.splitOn_eq_singleton h⟩
  | cons c s ih =>
    obtain ⟨ps, p, hs⟩ := ih
    rw [List.cons_append, List.splitOn_cons_eq_if_modifyHead, hs]
    split
    . exact ⟨[] :: ps, p, rfl⟩
    . cases ps with
      | nil => exact ⟨[], c :: p, rfl⟩
      | cons q ps => exact ⟨(c :: q) :: ps, p, rfl⟩

theorem exists_lastPart?_eq {name : String} {suffix : List Char} (hname : suffix <:+ name.toList)
    (hslash : '/' ∉ suffix) (hlength : 1 < suffix.length) :
    ∃ p, lastPart? name = some (p ++ suffix) := by
  obtain ⟨s, hs⟩ := hname
  obtain ⟨ps, p, hparts⟩ := exists_splitOn_append hslash s
  refine ⟨p, ?_⟩
  have hpart : 1 < (p ++ suffix).length := by
    rw [List.length_append]
    omega
  have hkept : p ++ suffix ≠ [] ∧ p ++ suffix ≠ ['.'] := by
    constructor
    . intro h
      rw [h] at hpart
      contradiction
    . intro h
      rw [h] at hpart
      contradiction
  unfold lastPart? parts
  rw [← hs, hparts, List.filter_append]
  simp [hkept]

theorem reverse_append_jsonl (s : List Char) :
    (s ++ ".jsonl".toList).reverse = 'l' :: 'n' :: 'o' :: 's' :: 'j' :: '.' :: s.reverse :=
  List.reverse_append

theorem isCompressed_of_jsonl {name : String} (h : ".jsonl".toList <:+ name.toList) :
    isCompressed name = false := by
  obtain ⟨p, hp⟩ := exists_lastPart?_eq h (by decide) (by decide)
  unfold isCompressed extension?
  rw [hp, Option.bind_eq_bind, Option.bind_some]
  dsimp only
  rw [reverse_append_jsonl]
  split
  . rfl
  . split
    . rfl
    . rfl

theorem isJsonLines_of_jsonl {name : String} (h : ".jsonl".toList <:+ name.toList) :
    isJsonLines name = true := by
  obtain ⟨p, hp⟩ := h
  unfold isJsonLines
  rw [← hp, reverse_append_jsonl]
  rfl

end Source

end TemplateCheck
