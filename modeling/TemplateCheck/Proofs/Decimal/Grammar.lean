import TemplateCheck.Proofs.Decimal.Literal

/-!
This module contains the grammar of decimal numerals and of the words for values that are not
finite, and that the texts of the grammar are just those that can be read.
-/

namespace TemplateCheck

open Text

namespace Numeral

inductive IsSign : List Char → Prop where
  | none : IsSign []
  | plus : IsSign ['+']
  | minus : IsSign ['-']

structure IsDigits (s : List Char) : Prop where
  ne_nil : s ≠ []
  all_isDigit : s.all Char.isDigit = true

inductive IsMantissa : List Char → Prop where
  | whole {ds : List Char} (hds : IsDigits ds) : IsMantissa ds
  | point {ds fs : List Char} (hds : IsDigits ds) (hfs : fs.all Char.isDigit = true) :
    IsMantissa (ds ++ '.' :: fs)
  | fraction {fs : List Char} (hfs : IsDigits fs) : IsMantissa ('.' :: fs)

inductive IsPower : List Char → Prop where
  | none : IsPower []
  | power {mark : Char} {sign ds : List Char} (hmark : mark = 'e' ∨ mark = 'E')
      (hsign : IsSign sign) (hds : IsDigits ds) : IsPower (mark :: (sign ++ ds))

inductive IsLiteral : List Char → Prop where
  | intro {sign m p : List Char} (hsign : IsSign sign) (hm : IsMantissa m) (hp : IsPower p) :
    IsLiteral (sign ++ (m ++ p))

variable {s sign ds fs p : List Char}

theorem exists_isSign_takeSign (s : List Char) :
    ∃ sign, IsSign sign ∧ s = sign ++ (takeSign s).2 := by
  unfold takeSign
  split
  . exact ⟨['-'], .minus, rfl⟩
  . exact ⟨['+'], .plus, rfl⟩
  . exact ⟨[], .none, rfl⟩

theorem takeSign_append (hsign : IsSign sign) (hs : ∀ c ∈ s.head?, c ≠ '+' ∧ c ≠ '-') :
    (takeSign (sign ++ s)).2 = s := by
  cases hsign with
  | plus => rfl
  | minus => rfl
  | none =>
    rw [List.nil_append]
    unfold takeSign
    split
    . have := hs '-' rfl
      simp at this
    . have := hs '+' rfl
      simp at this
    . rfl

theorem IsDigits.ne_sign (h : IsDigits ds) : ∀ c ∈ ds.head?, c ≠ '+' ∧ c ≠ '-' := by
  intro c hc
  have hdigit := List.all_eq_true.mp h.all_isDigit c (List.mem_of_head? hc)
  constructor
  . rintro rfl
    contradiction
  . rintro rfl
    contradiction

theorem IsMantissa.ne_sign {m : List Char} (h : IsMantissa m) :
    ∀ c ∈ (m ++ p).head?, c ≠ '+' ∧ c ≠ '-' := by
  have hdigits {ds t : List Char} (hds : IsDigits ds) :
      ∀ c ∈ (ds ++ t).head?, c ≠ '+' ∧ c ≠ '-' := by
    intro c hc
    rw [List.head?_append_of_ne_nil _ hds.ne_nil] at hc
    exact hds.ne_sign c hc
  cases h with
  | whole hds => exact hdigits hds
  | point hds hfs =>
    rw [List.append_assoc]
    exact hdigits hds
  | fraction hfs =>
    intro c hc
    cases hc
    decide

theorem IsPower.stopsAt (h : IsPower p) : StopsAt Char.isDigit p := by
  cases h with
  | none => nofun
  | power hmark _ _ =>
    rcases hmark with rfl | rfl
    . exact stopsAt_cons_iff.mpr rfl
    . exact stopsAt_cons_iff.mpr rfl

theorem exists_readExponent?_iff : (∃ e, readExponent? s = some e) ↔ IsPower s := by
  constructor
  . intro ⟨e, h⟩
    unfold readExponent? at h
    split at h
    . exact .none
    . next c s =>
      rw [Option.ite_none_right_eq_some, Bool.or_eq_true, beq_iff_eq, beq_iff_eq] at h
      obtain ⟨hmark, h⟩ := h
      dsimp only at h
      rw [Option.ite_none_right_eq_some, Bool.and_eq_true] at h
      obtain ⟨⟨hne, hall⟩, -⟩ := h
      obtain ⟨sign, hsign, hs⟩ := exists_isSign_takeSign s
      rw [hs]
      exact .power hmark hsign ⟨by simpa using hne, hall⟩
  . intro h
    cases h with
    | none => exact ⟨0, rfl⟩
    | @power mark sign ds hmark hsign hds =>
      have hmark' : (mark == 'e' || mark == 'E') = true := by
        rw [Bool.or_eq_true, beq_iff_eq, beq_iff_eq]
        exact hmark
      have hne : ds.isEmpty = false := by
        simpa using hds.ne_nil
      unfold readExponent?
      dsimp only
      rw [if_pos hmark', takeSign_append hsign hds.ne_sign, hne, hds.all_isDigit]
      exact ⟨_, rfl⟩

theorem IsPower.ne_point (h : IsPower p) (t : List Char) : p ≠ '.' :: t := by
  cases h with
  | none => simp
  | power hmark _ _ =>
    rcases hmark with rfl | rfl
    . simp
    . simp

theorem IsMantissa.of_point (hds : ds.all Char.isDigit = true) (hfs : fs.all Char.isDigit = true)
    (hne : ds ≠ [] ∨ fs ≠ []) : IsMantissa (ds ++ '.' :: fs) := by
  by_cases hnil : ds = []
  . subst hnil
    exact .fraction ⟨hne.resolve_left (not_not_intro rfl), hfs⟩
  . exact .point ⟨hnil, hds⟩ hfs

theorem exists_run (s : List Char) :
    ∃ ds t, s = ds ++ t ∧ ds.all Char.isDigit = true ∧ StopsAt Char.isDigit t :=
  ⟨_, _, takeWhile_dropWhile_eq_iff.mp ⟨rfl, rfl⟩⟩

theorem exists_readUnsigned?_point_iff (hds : ds.all Char.isDigit = true)
    (hfs : fs.all Char.isDigit = true) (hp : StopsAt Char.isDigit p) :
    (∃ r, readUnsigned? (ds ++ '.' :: (fs ++ p)) = some r)
      ↔ (ds ≠ [] ∨ fs ≠ []) ∧ IsPower p := by
  have hstop : StopsAt Char.isDigit ('.' :: (fs ++ p)) := stopsAt_cons_iff.mpr rfl
  unfold readUnsigned?
  simp only [takeWhile_append_of_stopsAt hds hstop, dropWhile_append_of_stopsAt hds hstop,
    takeWhile_append_of_stopsAt hfs hp, dropWhile_append_of_stopsAt hfs hp,
    Option.ite_none_left_eq_some, Option.map_eq_some_iff, ← exists_readExponent?_iff]
  simp [or_iff_not_imp_left]

theorem exists_readUnsigned?_whole_iff (hds : ds.all Char.isDigit = true)
    (hp : StopsAt Char.isDigit p) (hpoint : ∀ t, p ≠ '.' :: t) :
    (∃ r, readUnsigned? (ds ++ p) = some r) ↔ ds ≠ [] ∧ IsPower p := by
  unfold readUnsigned?
  rw [takeWhile_append_of_stopsAt hds hp, dropWhile_append_of_stopsAt hds hp]
  dsimp only
  split
  . next t => exact absurd rfl (hpoint t)
  . simp [Option.ite_none_left_eq_some, ← exists_readExponent?_iff]

theorem exists_readUnsigned?_iff :
    (∃ r, readUnsigned? s = some r) ↔ ∃ m p, s = m ++ p ∧ IsMantissa m ∧ IsPower p := by
  constructor
  . intro h
    obtain ⟨ds, t, rfl, hds, hstop⟩ := exists_run s
    by_cases hpoint : ∃ u, t = '.' :: u
    . obtain ⟨u, rfl⟩ := hpoint
      obtain ⟨fs, p, rfl, hfs, hp⟩ := exists_run u
      obtain ⟨hne, hpower⟩ := (exists_readUnsigned?_point_iff hds hfs hp).mp h
      exact ⟨ds ++ '.' :: fs, p, by simp, .of_point hds hfs hne, hpower⟩
    . rw [not_exists] at hpoint
      obtain ⟨hne, hpower⟩ := (exists_readUnsigned?_whole_iff hds hstop hpoint).mp h
      exact ⟨ds, t, rfl, .whole ⟨hne, hds⟩, hpower⟩
  . rintro ⟨m, p, rfl, hm, hp⟩
    have hstop := hp.stopsAt
    cases hm with
    | whole hds =>
      exact (exists_readUnsigned?_whole_iff hds.all_isDigit hstop hp.ne_point).mpr ⟨hds.ne_nil, hp⟩
    | point hds hfs =>
      rw [List.append_assoc]
      exact (exists_readUnsigned?_point_iff hds.all_isDigit hfs hstop).mpr ⟨.inl hds.ne_nil, hp⟩
    | @fraction fs hfs =>
      have hempty : ([] : List Char).all Char.isDigit = true := rfl
      exact (exists_readUnsigned?_point_iff hempty hfs.all_isDigit hstop).mpr ⟨.inr hfs.ne_nil, hp⟩

theorem exists_read?_iff : (∃ n, read? s = some n) ↔ IsLiteral s := by
  have hunsigned : (∃ n, read? s = some n) ↔ ∃ r, readUnsigned? (takeSign s).2 = some r := by
    unfold read?
    simp
  rw [hunsigned, exists_readUnsigned?_iff]
  constructor
  . intro ⟨m, p, hs, hm, hp⟩
    obtain ⟨sign, hsign, heq⟩ := exists_isSign_takeSign s
    rw [heq, hs]
    exact .intro hsign hm hp
  . rintro ⟨hsign, hm, hp⟩
    exact ⟨_, _, takeSign_append hsign hm.ne_sign, hm, hp⟩

end Numeral

namespace Binary64

open Numeral (IsSign IsLiteral takeSign_append exists_isSign_takeSign)

inductive IsWord : List Char → Prop where
  | intro {sign word : List Char} (hsign : IsSign sign)
      (hword : (word.map Char.toLower = "inf".toList ∨ word.map Char.toLower = "infinity".toList)
        ∨ word.map Char.toLower = "nan".toList) : IsWord (sign ++ word)

variable {s : List Char}

theorem exists_ofWord?_iff :
    (∃ x, ofWord? s = some x)
      ↔ (s.map Char.toLower = "inf".toList ∨ s.map Char.toLower = "infinity".toList)
        ∨ s.map Char.toLower = "nan".toList := by
  have hword (word : String) :
      (String.ofList (s.map Char.toLower) == word) = true
        ↔ s.map Char.toLower = word.toList := by
    rw [beq_iff_eq, ← String.toList_inj, String.toList_ofList]
  unfold ofWord?
  simp only [Bool.or_eq_true, hword]
  split
  . next h => exact ⟨fun _ => .inl h, fun _ => ⟨_, rfl⟩⟩
  . next h =>
    split
    . next hnan => exact ⟨fun _ => .inr hnan, fun _ => ⟨_, rfl⟩⟩
    . next hnan => exact ⟨nofun, fun hor => absurd hor (not_or_intro h hnan)⟩

theorem toLower_of_ofWord? {c : Char} {x : Binary64} (h : ofWord? (c :: s) = some x) :
    c.toLower = 'i' ∨ c.toLower = 'n' := by
  rcases exists_ofWord?_iff.mp ⟨x, h⟩ with (hword | hword) | hword
  . exact .inl (List.head_eq_of_cons_eq hword)
  . exact .inl (List.head_eq_of_cons_eq hword)
  . exact .inr (List.head_eq_of_cons_eq hword)

theorem ne_sign_of_ofWord? {x : Binary64} (h : ofWord? s = some x) :
    ∀ c ∈ s.head?, c ≠ '+' ∧ c ≠ '-' := by
  intro c hc
  cases s with
  | nil => contradiction
  | cons d s =>
    cases hc
    have hletter := toLower_of_ofWord? h
    constructor
    . rintro rfl
      exact absurd hletter (by decide)
    . rintro rfl
      exact absurd hletter (by decide)

theorem exists_read?_iff : (∃ x, read? s = some x) ↔ IsLiteral s ∨ IsWord s := by
  rw [← Numeral.exists_read?_iff]
  have hword : (∃ x, ofWord? (Numeral.takeSign s).2 = some x) ↔ IsWord s := by
    constructor
    . intro h
      obtain ⟨sign, hsign, hs⟩ := exists_isSign_takeSign s
      rw [hs]
      exact .intro hsign (exists_ofWord?_iff.mp h)
    . rintro ⟨hsign, hword⟩
      obtain ⟨x, hx⟩ := exists_ofWord?_iff.mpr hword
      rw [takeSign_append hsign (ne_sign_of_ofWord? hx)]
      exact ⟨x, hx⟩
  rw [← hword]
  unfold read?
  split
  . next n hn => simp [hn]
  . next hn => simp [hn]

end Binary64

namespace Path

/--
The texts that read as numbers are the decimal numerals, and each of them is taken off the front of
a path as it is, if no character follows that may stand in a numeral. It can be read: the texts
that can are the numerals and the words for values that are not finite.
-/
theorem looksLikeNumber_iff_isLiteral (s : List Char) :
    (looksLikeNumber s = true ↔ Numeral.IsLiteral s)
      ∧ ((∃ x, Binary64.read? s = some x) ↔ Numeral.IsLiteral s ∨ Binary64.IsWord s)
      ∧ (looksLikeNumber s = true → (∃ x, Binary64.read? s = some x)
        ∧ ∀ rest, (∀ c ∈ rest.head?, c.isDigit = false ∧ c ∉ ['+', '-', '.', 'e', 'E']) →
          readNumeral (s ++ rest) = .ok (s, rest)) := by
  refine ⟨looksLikeNumber_iff.trans Numeral.exists_read?_iff, Binary64.exists_read?_iff, ?_⟩
  intro h
  unfold looksLikeNumber at h
  rw [Bool.and_eq_true, Bool.and_eq_true] at h
  obtain ⟨⟨hany, hall⟩, hread⟩ := h
  refine ⟨Option.isSome_iff_exists.mp hread, fun rest hrest => ?_⟩
  have hne : s ≠ [] := by
    rintro rfl
    contradiction
  have hstop : StopsAt isNumeralChar rest := by
    intro c hc
    obtain ⟨hdigit, hmark⟩ := hrest c hc
    unfold isNumeralChar
    simp only [List.mem_cons, List.not_mem_nil, or_false, not_or] at hmark
    simp [hdigit, hmark]
  exact readNumeral_eq_ok_iff.mpr ⟨hne, rfl, hall, hstop⟩

theorem looksLikeNumber_iff_isLiteral_signs :
    looksLikeNumber "-.5E+10".toList = true
      ∧ (∃ x, Binary64.read? "-.5E+10".toList = some x)
      ∧ (∀ c ∈ " ]".toList.head?, c.isDigit = false ∧ c ∉ ['+', '-', '.', 'e', 'E'])
      ∧ readNumeral "-.5E+10 ]".toList = .ok ("-.5E+10".toList, " ]".toList) := by
  have h : looksLikeNumber "-.5E+10".toList = true := by decide
  have hrest : ∀ c ∈ " ]".toList.head?, c.isDigit = false ∧ c ∉ ['+', '-', '.', 'e', 'E'] := by
    rintro c ⟨⟩
    decide
  obtain ⟨hread, hrun⟩ := (looksLikeNumber_iff_isLiteral "-.5E+10".toList).2.2 h
  exact ⟨h, hread, hrest, hrun " ]".toList hrest⟩

end Path

end TemplateCheck
