import TemplateCheck.Proofs.Path.Condition

/-!
This module contains what the readers of the parts of a path make of the written form of a part,
with some text behind it.
-/

namespace TemplateCheck

def Filter.ofText (text : String) : Filter :=
  match Path.looksLikeNumber text.toList, Binary64.read? text.toList with
  | true, some x => .numberEq x
  | _, _ => .textEq text

namespace Path

theorem readNumeral_append {s : List Char} (hs : s.all isNumeralChar = true) (hne : s ≠ [])
    {c : Char} (hc : isNumeralChar c = false) (rest : List Char) :
    readNumeral (s ++ c :: rest) = .ok (s, c :: rest) :=
  readNumeral_eq_ok_iff.mpr ⟨hne, rfl, hs, Text.stopsAt_cons_iff.mpr hc⟩

theorem readName_append {s : List Char} (hs : isPlainKey s = true) {c : Char}
    (hc : isKeyChar c = false) (rest : List Char) :
    readName (s ++ c :: rest) = .ok (s, c :: rest) :=
  readName_eq_ok_iff.mpr ⟨rfl, hs, Text.stopsAt_cons_iff.mpr hc⟩

theorem readString_quoted {q : Char} (hq : q = '\'' ∨ q = '"') (s rest : List Char) :
    readString (Text.quoted q s ++ rest) = .ok (s, rest) := by
  apply readString_eq_ok_iff.mpr
  refine ⟨q, Text.escape q s, hq, ?_, Text.spells_escape s⟩
  unfold Text.quoted
  rw [List.cons_append, List.append_assoc, List.singleton_append]

theorem readSelector_of_isKeyChar {c : Char} (hc : isKeyChar c = true) (s : List Char) :
    readSelector (c :: s)
      = (readName (c :: s)).map fun (name, rest) => (.key (String.ofList name), rest) := by
  unfold readSelector
  split
  . contradiction
  . next h =>
    cases h
    contradiction
  . next h =>
    cases h
    contradiction
  . next h =>
    cases h
    contradiction
  . rfl

theorem readSelector_keySegment (quoteAll : Bool) (k : List Char) {c : Char}
    (hc : isKeyChar c = false) (rest : List Char) :
    readSelector (keySegment quoteAll k ++ c :: rest)
      = .ok (.key (String.ofList k), c :: rest) := by
  unfold keySegment
  split
  . next h =>
    rw [Bool.and_eq_true] at h
    have hread := readName_append h.2 hc rest
    cases k with
    | nil => exact absurd h.2 Bool.false_ne_true
    | cons d k =>
      have hd : isKeyChar d = true := by
        have := h.2
        unfold isPlainKey at this
        simp only [List.all_cons, Bool.and_eq_true] at this
        exact this.2.1
      rw [List.cons_append] at hread ⊢
      rw [readSelector_of_isKeyChar hd, hread]
      rfl
  . change (readString (Text.quoted '"' k ++ c :: rest)).map _ = _
    rw [readString_quoted (.inr rfl)]
    rfl

theorem all_isDigit_toDigits (i : Nat) : (Nat.toDigits 10 i).all Char.isDigit = true := by
  rw [List.all_eq_true]
  intro c hc
  exact Numeral.isDigit_of_mem_toDigits hc

theorem all_isNumeralChar_toDigits (i : Nat) :
    (Nat.toDigits 10 i).all isNumeralChar = true :=
  all_isNumeralChar_of_all_isDigit (all_isDigit_toDigits i)

theorem spells_index {i : Nat} (hi : fitsWord i = true) :
    Filter.Spells ("idx == ".toList ++ Nat.toDigits 10 i) (.index i) := by
  have hvalue : Nat.ofDigitChars 10 (Nat.toDigits 10 i) 0 = i := Nat.ofDigitChars_ten_toDigits
  have hspells : Filter.Spells
      ("idx".toList ++ [' '] ++ "==".toList ++ [' '] ++ [] ++ Nat.toDigits 10 i)
      (.index (Nat.ofDigitChars 10 (Nat.toDigits 10 i) 0)) := by
    apply Filter.Spells.index rfl rfl (.inl rfl) Nat.toDigits_ne_nil (all_isDigit_toDigits i)
    rw [hvalue]
    simpa [fitsWord] using hi
  rw [hvalue] at hspells
  exact hspells

theorem spells_comparison (s : List Char) :
    Filter.Spells ("value ".toList ++ comparison s) (.ofText (String.ofList s)) := by
  have htext : (String.ofList s).toList = s := String.toList_ofList
  unfold comparison Filter.ofText
  rw [htext]
  split
  . next hs =>
    have hread := hs
    unfold looksLikeNumber at hread
    rw [Bool.and_eq_true, Bool.and_eq_true] at hread
    obtain ⟨x, hx⟩ := Option.isSome_iff_exists.mp hread.2
    rw [hs, hx]
    change Filter.Spells ("value".toList ++ [' '] ++ "==".toList ++ [' '] ++ s) _
    exact .numberEq rfl rfl hread.1.2 hx
  . next hs =>
    rw [Bool.not_eq_true] at hs
    rw [hs]
    change Filter.Spells
      ("value".toList ++ [' '] ++ "eq".toList ++ [' '] ++ ['\''] ++ Text.escape '\'' s ++ ['\'']) _
    exact .textEq rfl (by decide) rfl (.inl rfl) (Text.spells_escape s)

theorem readFilter_between_blanks {u : List Char} {filter : Filter} (hu : Filter.Spells u filter)
    (rest : List Char) :
    readFilter (' ' :: (u ++ (" ]".toList ++ rest))) = .ok (filter, rest) := by
  change readFilter ([' '] ++ (u ++ ([' '] ++ ']' :: rest))) = _
  exact readFilter_of_spells rfl hu rfl

theorem readFilter_index {i : Nat} (hi : fitsWord i = true) (rest : List Char) :
    readFilter (" idx == ".toList ++ (Nat.toDigits 10 i ++ (" ]".toList ++ rest)))
      = .ok (.index i, rest) := by
  have hread := readFilter_between_blanks (spells_index hi) rest
  rw [List.append_assoc] at hread
  exact hread

theorem readFilter_comparison (s rest : List Char) :
    readFilter (" value ".toList ++ (comparison s ++ (" ]".toList ++ rest)))
      = .ok (.ofText (String.ofList s), rest) := by
  have hread := readFilter_between_blanks (spells_comparison s) rest
  rw [List.append_assoc] at hread
  exact hread

end Path

end TemplateCheck
