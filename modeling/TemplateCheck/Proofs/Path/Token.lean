import Mathlib.Data.List.Basic
import TemplateCheck.Path.Parse
import TemplateCheck.Proofs.Text.Quoted

/-!
This module contains what the readers of the smallest parts of a path take off the front of a text.
A part that is a run of characters of one class ends in front of a character outside the class.
-/

namespace TemplateCheck

namespace Text

variable {p : Char → Bool}

def StopsAt (p : Char → Bool) (s : List Char) : Prop :=
  ∀ c ∈ s.head?, p c = false

theorem stopsAt_cons_iff {c : Char} {s : List Char} : StopsAt p (c :: s) ↔ p c = false := by
  unfold StopsAt
  simp

theorem stopsAt_dropWhile (s : List Char) : StopsAt p (s.dropWhile p) := by
  intro c hc
  have hhead := List.head?_dropWhile_not p s
  rw [hc] at hhead
  exact hhead

theorem takeWhile_append_of_stopsAt {a b : List Char} (ha : a.all p = true) (hb : StopsAt p b) :
    (a ++ b).takeWhile p = a := by
  rw [List.all_eq_true] at ha
  rw [List.takeWhile_append_of_pos ha]
  cases b with
  | nil => exact List.append_nil a
  | cons c b =>
    have hc := stopsAt_cons_iff.mp hb
    rw [List.takeWhile_cons_of_neg (by simp [hc]), List.append_nil]

theorem dropWhile_append_of_stopsAt {a b : List Char} (ha : a.all p = true) (hb : StopsAt p b) :
    (a ++ b).dropWhile p = b := by
  rw [List.all_eq_true] at ha
  rw [List.dropWhile_append_of_pos ha]
  cases b with
  | nil => rfl
  | cons c b =>
    have hc := stopsAt_cons_iff.mp hb
    rw [List.dropWhile_cons_of_neg (by simp [hc])]

theorem takeWhile_dropWhile_eq_iff {s a b : List Char} :
    s.takeWhile p = a ∧ s.dropWhile p = b ↔ s = a ++ b ∧ a.all p = true ∧ StopsAt p b := by
  constructor
  . rintro ⟨rfl, rfl⟩
    exact ⟨List.takeWhile_append_dropWhile.symm, List.all_takeWhile, stopsAt_dropWhile s⟩
  . rintro ⟨rfl, ha, hb⟩
    exact ⟨takeWhile_append_of_stopsAt ha hb, dropWhile_append_of_stopsAt ha hb⟩

theorem exists_mem_of_inRanges {ranges : List (Nat × Nat)} {n : Nat}
    (h : inRanges ranges n = true) : ∃ r ∈ ranges, r.1 ≤ n ∧ n ≤ r.2 := by
  unfold inRanges at h
  rw [List.any_eq_true] at h
  obtain ⟨r, hr, hn⟩ := h
  rw [Bool.and_eq_true, decide_eq_true_eq, decide_eq_true_eq] at hn
  exact ⟨r, hr, hn⟩

def blanks : List Char :=
  blankRanges.flatMap fun r => (List.range' r.1 (r.2 + 1 - r.1)).map Char.ofNat

theorem mem_blanks_of_isBlank {c : Char} (h : isBlank c = true) : c ∈ blanks := by
  obtain ⟨r, hr, hn⟩ := exists_mem_of_inRanges h
  unfold blanks
  rw [List.mem_flatMap]
  refine ⟨r, hr, ?_⟩
  rw [List.mem_map]
  refine ⟨c.toNat, ?_, Char.ofNat_toNat c⟩
  rw [List.mem_range'_1]
  omega

theorem stopsAt_blank_append (hp : ∀ c, isBlank c = true → p c = false) {w s : List Char}
    (hw : allBlank w = true) (hs : StopsAt p s) : StopsAt p (w ++ s) := by
  cases w with
  | nil => exact hs
  | cons c w =>
    unfold allBlank at hw
    rw [List.all_cons, Bool.and_eq_true] at hw
    exact stopsAt_cons_iff.mpr (hp c hw.1)

end Text

namespace Path

open Text

theorem isKeyChar_eq_false_of_isBlank {c : Char} (h : isBlank c = true) : isKeyChar c = false := by
  have hall : (blanks.all fun c => !isKeyChar c) = true := by decide +kernel
  rw [List.all_eq_true] at hall
  simpa using hall c (mem_blanks_of_isBlank h)

theorem isNumeralChar_eq_false_of_isBlank {c : Char} (h : isBlank c = true) :
    isNumeralChar c = false := by
  have hall : (blanks.all fun c => !isNumeralChar c) = true := by decide +kernel
  rw [List.all_eq_true] at hall
  simpa using hall c (mem_blanks_of_isBlank h)

theorem isBlank_eq_false {c : Char} (h : isNumeralChar c = true) : isBlank c = false := by
  rw [Bool.eq_false_iff]
  intro hc
  rw [isNumeralChar_eq_false_of_isBlank hc] at h
  contradiction

theorem isNumeralChar_of_isDigit {c : Char} (h : c.isDigit = true) : isNumeralChar c = true := by
  unfold isNumeralChar
  rw [h]
  rfl

theorem all_isNumeralChar_of_all_isDigit {s : List Char} (h : s.all Char.isDigit = true) :
    s.all isNumeralChar = true := by
  rw [List.all_eq_true] at h ⊢
  intro c hc
  exact isNumeralChar_of_isDigit (h c hc)

variable {s rest : List Char}

theorem stopsAt_isBlank_numeral (hne : s ≠ []) (hs : s.all isNumeralChar = true) :
    StopsAt isBlank (s ++ rest) := by
  cases s with
  | nil => contradiction
  | cons c s =>
    rw [List.all_cons, Bool.and_eq_true] at hs
    exact stopsAt_cons_iff.mpr (isBlank_eq_false hs.1)

theorem stopsAt_isBlank_name (h : isPlainKey s = true) : StopsAt isBlank (s ++ rest) := by
  unfold isPlainKey at h
  cases s with
  | nil => simp at h
  | cons c s =>
    simp only [List.all_cons, Bool.and_eq_true] at h
    apply stopsAt_cons_iff.mpr
    rw [Bool.eq_false_iff]
    intro hc
    have := isKeyChar_eq_false_of_isBlank hc
    simp [this] at h

theorem readChar_eq_ok_iff {c : Char} : readChar c s = .ok rest ↔ s = c :: rest := by
  cases s with
  | nil => simp [readChar]
  | cons d s =>
    unfold readChar
    by_cases hd : d = c
    . simp [hd]
    . simp [hd]

theorem readWord_eq_ok_iff {word : String} :
    readWord word s = .ok rest ↔ s = word.toList ++ rest := by
  unfold readWord
  rw [eq_comm (a := s), ← List.isPrefixOf?_eq_some_iff_append_eq]
  split
  . next h => simp [h]
  . next h =>
    rw [h]
    split <;> simp

theorem skipBlank_eq_iff {t : List Char} :
    skipBlank s = t ↔ ∃ w, s = w ++ t ∧ allBlank w = true ∧ StopsAt isBlank t := by
  unfold skipBlank allBlank
  constructor
  . intro h
    exact ⟨_, takeWhile_dropWhile_eq_iff.mp ⟨rfl, h⟩⟩
  . intro ⟨w, h⟩
    exact (takeWhile_dropWhile_eq_iff.mpr h).2

theorem skipBlank_append {w : List Char} (hw : allBlank w = true) (hs : StopsAt isBlank s) :
    skipBlank (w ++ s) = s :=
  skipBlank_eq_iff.mpr ⟨w, rfl, hw, hs⟩

theorem readRun_eq_ok_iff {p : Char → Bool} {fault : Fault} {text : List Char} :
    (if (s.takeWhile p).isEmpty then .error fault else .ok (s.takeWhile p, s.dropWhile p))
        = Except.ok (text, rest)
      ↔ text ≠ [] ∧ s = text ++ rest ∧ text.all p = true ∧ StopsAt p rest := by
  rw [← takeWhile_dropWhile_eq_iff]
  split
  . next h =>
    simp only [reduceCtorEq, false_iff, not_and]
    rintro hne rfl
    simp [hne] at h
  . next h =>
    simp only [Except.ok.injEq, Prod.mk.injEq]
    constructor
    . rintro ⟨rfl, rfl⟩
      simpa using h
    . exact And.right

theorem readNumeral_eq_ok_iff {text : List Char} :
    readNumeral s = .ok (text, rest)
      ↔ text ≠ [] ∧ s = text ++ rest ∧ text.all isNumeralChar = true
        ∧ StopsAt isNumeralChar rest :=
  readRun_eq_ok_iff

theorem readName_eq_ok_iff {name : List Char} :
    readName s = .ok (name, rest)
      ↔ s = name ++ rest ∧ isPlainKey name = true ∧ StopsAt isKeyChar rest := by
  have hplain : isPlainKey name = true ↔ name ≠ [] ∧ name.all isKeyChar = true := by
    unfold isPlainKey
    simp
  rw [hplain, and_assoc, ← and_left_comm]
  exact readRun_eq_ok_iff

theorem readString_eq_ok_iff {text : List Char} :
    readString s = .ok (text, rest)
      ↔ ∃ q u, (q = '\'' ∨ q = '"') ∧ s = q :: (u ++ q :: rest) ∧ Spells q u text := by
  constructor
  . intro h
    unfold readString at h
    split at h
    . contradiction
    . next q s =>
      split at h
      . next hq =>
        split at h
        . next hread =>
          cases h
          obtain ⟨u, hs, hspells⟩ := exists_spells_of_readQuoted hread
          exact ⟨q, u, hq, by rw [hs], hspells⟩
        . contradiction
        . contradiction
      . contradiction
  . intro ⟨q, u, hq, hs, hspells⟩
    have hb : q ≠ '\\' := by
      rcases hq with rfl | rfl <;> decide
    rw [hs, readString, if_pos hq, readQuoted_of_spells hb hspells]

end Path

end TemplateCheck
