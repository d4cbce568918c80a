import TemplateCheck.Proofs.Path.Token

/-!
This module contains the texts that stand in brackets for a condition, and that the reader of a
condition accepts just these and gives the condition that they stand for.
-/

namespace TemplateCheck

open Text

inductive Filter.Spells : List Char → Filter → Prop where
  | index {w v sign digits : List Char} (hw : allBlank w = true) (hv : allBlank v = true)
      (hsign : sign = [] ∨ sign = ['+']) (hne : digits ≠ [])
      (hdigits : digits.all Char.isDigit = true)
      (hfits : Nat.ofDigitChars 10 digits 0 < 0x10000000000000000) :
      Spells ("idx".toList ++ w ++ "==".toList ++ v ++ sign ++ digits)
        (.index (Nat.ofDigitChars 10 digits 0))
  | numberEq {w v numeral : List Char} {x : Binary64} (hw : allBlank w = true)
      (hv : allBlank v = true) (hnumeral : numeral.all Path.isNumeralChar = true)
      (hx : Binary64.read? numeral = some x) :
      Spells ("value".toList ++ w ++ "==".toList ++ v ++ numeral) (.numberEq x)
  | textEq {w v u text : List Char} {q : Char} (hw : allBlank w = true) (hne : w ≠ [])
      (hv : allBlank v = true) (hq : q = '\'' ∨ q = '"') (hu : Text.Spells q u text) :
      Spells ("value".toList ++ w ++ "eq".toList ++ v ++ [q] ++ u ++ [q])
        (.textEq (String.ofList text))

namespace Path

variable {s rest : List Char}

theorem withoutPlus_eq_iff {digits : List Char} (h : digits.all Char.isDigit = true) :
    (if s.head? = some '+' then s.tail else s) = digits
      ↔ ∃ sign, (sign = [] ∨ sign = ['+']) ∧ s = sign ++ digits := by
  constructor
  . intro hs
    split at hs
    . next hhead =>
      cases s with
      | nil => contradiction
      | cons c s =>
        cases hhead
        exact ⟨['+'], .inr rfl, by rw [← hs]; rfl⟩
    . exact ⟨[], .inl rfl, hs⟩
  . rintro ⟨sign, rfl | rfl, rfl⟩
    . apply if_neg
      intro hhead
      rw [List.all_eq_true] at h
      have := h '+' (List.mem_of_head? hhead)
      contradiction
    . rfl

theorem position?_eq_some_iff {i : Nat} :
    position? s = some i
      ↔ ∃ digits sign, digits ≠ [] ∧ digits.all Char.isDigit = true
        ∧ Nat.ofDigitChars 10 digits 0 < 0x10000000000000000 ∧ Nat.ofDigitChars 10 digits 0 = i
        ∧ (sign = [] ∨ sign = ['+']) ∧ s = sign ++ digits := by
  have hvalue : ∀ digits, Numeral.natOfDigits digits = Nat.ofDigitChars 10 digits 0 :=
    fun _ => rfl
  unfold position? fitsWord
  constructor
  . intro h
    generalize hs : (if s.head? = some '+' then s.tail else s) = digits at h
    simp only [Option.ite_none_right_eq_some, Bool.and_eq_true, decide_eq_true_eq, hvalue] at h
    obtain ⟨⟨⟨hne, hdigits⟩, hfits⟩, hi⟩ := h
    obtain ⟨sign, hsign⟩ := (withoutPlus_eq_iff hdigits).mp hs
    exact ⟨digits, sign, by simpa using hne, hdigits, hfits, by simpa using hi, hsign⟩
  . rintro ⟨digits, sign, hne, hdigits, hfits, rfl, hsign⟩
    rw [(withoutPlus_eq_iff hdigits).mpr ⟨sign, hsign⟩]
    simpa [hne, hdigits, hvalue] using hfits

theorem isNumeralChar_of_position? {text : List Char} {i : Nat} (h : position? text = some i) :
    text.all isNumeralChar = true := by
  obtain ⟨digits, sign, -, hdigits, -, -, hsign, rfl⟩ := position?_eq_some_iff.mp h
  have hall := all_isNumeralChar_of_all_isDigit hdigits
  rcases hsign with rfl | rfl
  . exact hall
  . exact hall

theorem readWord_bind_eq_ok_iff {word : String}
    {read : List Char → Except Fault (List Char × List Char)}
    {k : List Char × List Char → Except Fault (Filter × List Char)} {r : Filter × List Char} :
    (readWord word s >>= fun s => read (skipBlank s) >>= k) = .ok r
      ↔ ∃ v t p, s = word.toList ++ (v ++ t) ∧ allBlank v = true ∧ StopsAt isBlank t
        ∧ read t = .ok p ∧ k p = .ok r := by
  simp only [Outcome.bind_eq_ok_iff, readWord_eq_ok_iff]
  constructor
  . intro ⟨s', hs, p, hread, hk⟩
    obtain ⟨v, hs', hv, hstop⟩ := skipBlank_eq_iff.mp (rfl : skipBlank s' = skipBlank s')
    exact ⟨v, skipBlank s', p, by rw [hs, ← hs'], hv, hstop, hread, hk⟩
  . intro ⟨v, t, p, hs, hv, hstop, hread, hk⟩
    exact ⟨v ++ t, hs, p, by rw [skipBlank_append hv hstop, hread], hk⟩

theorem readNumeralTest_eq_ok_iff {k : List Char × List Char → Except Fault (Filter × List Char)}
    {r : Filter × List Char} :
    (readWord "==" s >>= fun s => readNumeral (skipBlank s) >>= k) = .ok r
      ↔ ∃ v text t, s = "==".toList ++ (v ++ (text ++ t)) ∧ allBlank v = true ∧ text ≠ []
        ∧ text.all isNumeralChar = true ∧ StopsAt isNumeralChar t ∧ k (text, t) = .ok r := by
  rw [readWord_bind_eq_ok_iff]
  constructor
  . intro ⟨v, t, ⟨text, t'⟩, hs, hv, _, hread, hk⟩
    obtain ⟨hne, rfl, htext, hstop⟩ := readNumeral_eq_ok_iff.mp hread
    exact ⟨v, text, t', hs, hv, hne, htext, hstop, hk⟩
  . intro ⟨v, text, t, hs, hv, hne, htext, hstop, hk⟩
    exact ⟨v, text ++ t, (text, t), hs, hv, stopsAt_isBlank_numeral hne htext,
      readNumeral_eq_ok_iff.mpr ⟨hne, rfl, htext, hstop⟩, hk⟩

theorem readStringTest_eq_ok_iff {k : List Char × List Char → Except Fault (Filter × List Char)}
    {r : Filter × List Char} :
    (readWord "eq" s >>= fun s => readString (skipBlank s) >>= k) = .ok r
      ↔ ∃ v q u text t, s = "eq".toList ++ (v ++ ([q] ++ (u ++ ([q] ++ t)))) ∧ allBlank v = true
        ∧ (q = '\'' ∨ q = '"') ∧ Text.Spells q u text ∧ k (text, t) = .ok r := by
  rw [readWord_bind_eq_ok_iff]
  constructor
  . intro ⟨v, t, ⟨text, t'⟩, hs, hv, _, hread, hk⟩
    obtain ⟨q, u, hq, rfl, hu⟩ := readString_eq_ok_iff.mp hread
    exact ⟨v, q, u, text, t', hs, hv, hq, hu, hk⟩
  . intro ⟨v, q, u, text, t, hs, hv, hq, hu, hk⟩
    have hstop : StopsAt isBlank (q :: (u ++ q :: t)) := by
      rcases hq with rfl | rfl
      . exact stopsAt_cons_iff.mpr rfl
      . exact stopsAt_cons_iff.mpr rfl
    exact ⟨v, q :: (u ++ q :: t), (text, t), hs, hv, hstop,
      readString_eq_ok_iff.mpr ⟨q, u, hq, rfl, hu⟩, hk⟩

theorem readIndexTest_eq_ok_iff {filter : Filter} :
    readIndexTest s = .ok (filter, rest)
      ↔ ∃ v text i, s = "==".toList ++ (v ++ (text ++ rest)) ∧ allBlank v = true ∧ text ≠ []
        ∧ text.all isNumeralChar = true ∧ StopsAt isNumeralChar rest ∧ position? text = some i
        ∧ filter = .index i := by
  unfold readIndexTest
  rw [readNumeralTest_eq_ok_iff]
  constructor
  . rintro ⟨v, text, t, hs, hv, hne, htext, hstop, hk⟩
    dsimp only at hk
    split at hk
    . next i hi =>
      cases hk
      exact ⟨v, text, i, hs, hv, hne, htext, hstop, hi, rfl⟩
    . contradiction
  . intro ⟨v, text, i, hs, hv, hne, htext, hstop, hi, hfilter⟩
    refine ⟨v, text, rest, hs, hv, hne, htext, hstop, ?_⟩
    dsimp only
    rw [hi, hfilter]

theorem readValueTest_eq_ok_iff {filter : Filter} :
    readValueTest s = .ok (filter, rest)
      ↔ (∃ v text x, s = "==".toList ++ (v ++ (text ++ rest)) ∧ allBlank v = true ∧ text ≠ []
          ∧ text.all isNumeralChar = true ∧ StopsAt isNumeralChar rest
          ∧ Binary64.read? text = some x ∧ filter = .numberEq x)
        ∨ (∃ v q u text, s = "eq".toList ++ (v ++ ([q] ++ (u ++ ([q] ++ rest))))
          ∧ allBlank v = true ∧ (q = '\'' ∨ q = '"') ∧ Text.Spells q u text
          ∧ filter = .textEq (String.ofList text)) := by
  unfold readValueTest
  constructor
  . intro h
    split at h
    . obtain ⟨v, text, t, hs, hv, hne, htext, hstop, hk⟩ := readNumeralTest_eq_ok_iff.mp h
      dsimp only at hk
      split at hk
      . next x hx =>
        cases hk
        exact .inl ⟨v, text, x, hs, hv, hne, htext, hstop, hx, rfl⟩
      . contradiction
    . obtain ⟨v, q, u, text, t, hs, hv, hq, hu, hk⟩ := readStringTest_eq_ok_iff.mp h
      cases hk
      exact .inr ⟨v, q, u, text, hs, hv, hq, hu, rfl⟩
  . rintro (⟨v, text, x, hs, hv, hne, htext, hstop, hx, hfilter⟩
      | ⟨v, q, u, text, hs, hv, hq, hu, hfilter⟩)
    . rw [if_pos (by rw [hs]; rfl), readNumeralTest_eq_ok_iff]
      refine ⟨v, text, rest, hs, hv, hne, htext, hstop, ?_⟩
      dsimp only
      rw [hx, hfilter]
    . rw [if_neg (by rw [hs]; simp), readStringTest_eq_ok_iff]
      exact ⟨v, q, u, text, rest, hs, hv, hq, hu, by rw [hfilter]⟩

theorem exists_spells_of_readTest {subject w : List Char} {filter : Filter}
    (hw : allBlank w = true) (hstop : StopsAt isKeyChar (w ++ s))
    (h : readTest subject s = .ok (filter, rest)) :
    ∃ u, s = u ++ rest ∧ Filter.Spells (subject ++ (w ++ u)) filter := by
  unfold readTest at h
  split at h
  . next hsubject =>
    obtain ⟨v, text, i, hs, hv, -, -, -, hi, rfl⟩ := readIndexTest_eq_ok_iff.mp h
    obtain ⟨digits, sign, hne, hdigits, hfits, rfl, hsign, rfl⟩ := position?_eq_some_iff.mp hi
    have hspells := Filter.Spells.index hw hv hsign hne hdigits hfits
    refine ⟨"==".toList ++ (v ++ (sign ++ digits)), by rw [hs]; simp, ?_⟩
    simpa [hsubject] using hspells
  . split at h
    . next hsubject =>
      obtain ⟨v, numeral, x, hs, hv, -, hnumeral, -, hx, rfl⟩ | ⟨v, q, u, text, hs, hv, hq, hu, rfl⟩
        := readValueTest_eq_ok_iff.mp h
      . have hspells := Filter.Spells.numberEq hw hv hnumeral hx
        refine ⟨"==".toList ++ (v ++ numeral), by rw [hs]; simp, ?_⟩
        simpa [hsubject] using hspells
      . -- right behind the name, `eq` would have been read as a part of it
        have hne : w ≠ [] := by
          rintro rfl
          rw [hs] at hstop
          have := stopsAt_cons_iff.mp hstop
          contradiction
        have hspells := Filter.Spells.textEq hw hne hv hq hu
        refine ⟨"eq".toList ++ (v ++ ([q] ++ (u ++ [q]))), by rw [hs]; simp, ?_⟩
        simpa [hsubject] using hspells
    . contradiction

theorem exists_spells_of_readFilter {filter : Filter} (h : readFilter s = .ok (filter, rest)) :
    ∃ w u w', s = w ++ (u ++ (w' ++ ']' :: rest)) ∧ allBlank w = true ∧ Filter.Spells u filter
      ∧ allBlank w' = true := by
  obtain ⟨⟨subject, s₁⟩, hname, h⟩ := Outcome.bind_eq_ok_iff.mp h
  obtain ⟨⟨filter', s₂⟩, htest, h⟩ := Outcome.bind_eq_ok_iff.mp h
  obtain ⟨s₃, hchar, h⟩ := Outcome.bind_eq_ok_iff.mp h
  cases h
  obtain ⟨hs₀, -, hstop⟩ := readName_eq_ok_iff.mp hname
  obtain ⟨w, hs, hw, -⟩ := skipBlank_eq_iff.mp hs₀
  obtain ⟨v, hs₁, hv, -⟩ := skipBlank_eq_iff.mp (rfl : skipBlank s₁ = skipBlank s₁)
  rw [hs₁] at hstop
  obtain ⟨u, hu, hspells⟩ := exists_spells_of_readTest hv hstop htest
  obtain ⟨w', hs₂, hw', -⟩ := skipBlank_eq_iff.mp (readChar_eq_ok_iff.mp hchar)
  refine ⟨w, subject ++ (v ++ u), w', ?_, hw, hspells, hw'⟩
  calc s
    _ = w ++ (subject ++ s₁) := hs
    _ = w ++ (subject ++ (v ++ (u ++ s₂))) := by rw [hs₁, hu]
    _ = w ++ (subject ++ (v ++ (u ++ (w' ++ ']' :: rest)))) := by rw [hs₂]
    _ = _ := by simp only [List.append_assoc]

theorem readFilter_of_readTest {w subject v t w' : List Char} {filter : Filter}
    (hw : allBlank w = true) (hsubject : isPlainKey subject = true) (hv : allBlank v = true)
    (hkey : StopsAt isKeyChar (v ++ t)) (hblank : StopsAt isBlank t) (hw' : allBlank w' = true)
    (htest : readTest subject t = .ok (filter, w' ++ ']' :: rest)) :
    readFilter (w ++ (subject ++ (v ++ t))) = .ok (filter, rest) := by
  apply Outcome.bind_eq_ok_iff.mpr
  refine ⟨(subject, v ++ t), ?_, ?_⟩
  . rw [skipBlank_append hw (stopsAt_isBlank_name hsubject)]
    exact readName_eq_ok_iff.mpr ⟨rfl, hsubject, hkey⟩
  apply Outcome.bind_eq_ok_iff.mpr
  refine ⟨(filter, w' ++ ']' :: rest), ?_, ?_⟩
  . rw [skipBlank_append hv hblank]
    exact htest
  apply Outcome.bind_eq_ok_iff.mpr
  refine ⟨rest, ?_, rfl⟩
  rw [skipBlank_append hw' (stopsAt_cons_iff.mpr rfl)]
  exact readChar_eq_ok_iff.mpr rfl

theorem readTest_index : readTest "idx".toList s = readIndexTest s :=
  if_pos rfl

theorem readTest_value : readTest "value".toList s = readValueTest s := by
  unfold readTest
  rw [if_neg (by decide), if_pos rfl]

theorem stopsAt_isKeyChar_equals {v : List Char} (hv : allBlank v = true) (t : List Char) :
    StopsAt isKeyChar (v ++ ("==".toList ++ t)) :=
  stopsAt_blank_append (fun _ => isKeyChar_eq_false_of_isBlank) hv (stopsAt_cons_iff.mpr rfl)

theorem stopsAt_isKeyChar_blank {v : List Char} (hv : allBlank v = true) (hne : v ≠ [])
    (t : List Char) : StopsAt isKeyChar (v ++ t) := by
  cases v with
  | nil => contradiction
  | cons c v =>
    unfold allBlank at hv
    rw [List.all_cons, Bool.and_eq_true] at hv
    exact stopsAt_cons_iff.mpr (isKeyChar_eq_false_of_isBlank hv.1)

theorem readFilter_of_spells {w u w' : List Char} {filter : Filter} (hw : allBlank w = true)
    (hu : Filter.Spells u filter) (hw' : allBlank w' = true) :
    readFilter (w ++ (u ++ (w' ++ ']' :: rest))) = .ok (filter, rest) := by
  have hstop : StopsAt isNumeralChar (w' ++ ']' :: rest) :=
    stopsAt_blank_append (fun _ => isNumeralChar_eq_false_of_isBlank) hw' (stopsAt_cons_iff.mpr rfl)
  have hequals : ∀ t, StopsAt isBlank ("==".toList ++ t) := fun _ => stopsAt_cons_iff.mpr rfl
  have heq : ∀ t, StopsAt isBlank ("eq".toList ++ t) := fun _ => stopsAt_cons_iff.mpr rfl
  cases hu with
  | @index v v' sign digits hv hv' hsign hne hdigits hfits =>
    have hi := position?_eq_some_iff.mpr ⟨digits, sign, hne, hdigits, hfits, rfl, hsign, rfl⟩
    simp only [List.append_assoc]
    apply readFilter_of_readTest hw rfl hv (stopsAt_isKeyChar_equals hv _) (hequals _) hw'
    rw [readTest_index, readIndexTest_eq_ok_iff]
    refine ⟨v', sign ++ digits, _, by simp, hv', by simp [hne], ?_, hstop, hi, rfl⟩
    exact isNumeralChar_of_position? hi
  | @numberEq v v' numeral x hv hv' hnumeral hx =>
    have hne : numeral ≠ [] := by
      rintro rfl
      contradiction
    simp only [List.append_assoc]
    apply readFilter_of_readTest hw rfl hv (stopsAt_isKeyChar_equals hv _) (hequals _) hw'
    rw [readTest_value, readValueTest_eq_ok_iff]
    exact .inl ⟨v', numeral, x, rfl, hv', hne, hnumeral, hstop, hx, rfl⟩
  | @textEq v v' u text q hv hne hv' hq hu =>
    simp only [List.append_assoc]
    apply readFilter_of_readTest hw rfl hv (stopsAt_isKeyChar_blank hv hne _) (heq _) hw'
    rw [readTest_value, readValueTest_eq_ok_iff]
    exact .inr ⟨v', q, u, text, rfl, hv', hq, hu, rfl⟩

end Path

end TemplateCheck
