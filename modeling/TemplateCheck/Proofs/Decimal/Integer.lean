import Mathlib.Algebra.Group.Nat.Defs
import Mathlib.Data.List.TakeWhile
import TemplateCheck.Proofs.Decimal.Literal
import TemplateCheck.Proofs.Path.Reading

/-!
This module contains what becomes of an integer that is written as a text and read as a floating
point value: the value nearest to it. Integers of at most 53 binary digits keep their value, so none
of them is taken for another integer.
-/

namespace TemplateCheck

namespace Numeral

theorem takeSign_toDigits (n : Nat) :
    takeSign (Nat.toDigits 10 n) = (false, Nat.toDigits 10 n) := by
  unfold takeSign
  split
  . next h =>
    have hc := isDigit_of_mem_toDigits (n := n) (h ▸ List.mem_cons_self)
    contradiction
  . next h =>
    have hc := isDigit_of_mem_toDigits (n := n) (h ▸ List.mem_cons_self)
    contradiction
  . rfl

theorem readUnsigned?_toDigits (n : Nat) : readUnsigned? (Nat.toDigits 10 n) = some (n, 0) := by
  have hdigit : ∀ c ∈ Nat.toDigits 10 n, c.isDigit = true := fun _ => isDigit_of_mem_toDigits
  have htake : (Nat.toDigits 10 n).takeWhile Char.isDigit = Nat.toDigits 10 n :=
    List.takeWhile_eq_self_iff.mpr hdigit
  have hdrop : (Nat.toDigits 10 n).dropWhile Char.isDigit = [] :=
    List.dropWhile_eq_nil_iff.mpr hdigit
  have hvalue : natOfDigits (Nat.toDigits 10 n) = n := Nat.ofDigitChars_ten_toDigits
  unfold readUnsigned?
  rw [htake, hdrop]
  dsimp only
  rw [hvalue]
  simp [readExponent?]

theorem read?_toString (i : Int) :
    read? (toString i).toList = some ⟨decide (i < 0), i.natAbs, 0⟩ := by
  rw [Int.toString_eq_repr, Int.repr_eq_if]
  unfold read?
  by_cases hi : 0 ≤ i
  . have hnat : i.toNat = i.natAbs := by omega
    have hsign : decide (i < 0) = false := decide_eq_false (by omega)
    rw [if_pos hi, Nat.toList_repr, takeSign_toDigits, hnat, hsign]
    dsimp only
    rw [readUnsigned?_toDigits]
    rfl
  . have hnat : (-i).toNat = i.natAbs := by omega
    have hsign : decide (i < 0) = true := decide_eq_true (by omega)
    rw [if_neg hi, String.toList_append, Nat.toList_repr, hnat, hsign]
    change (readUnsigned? (Nat.toDigits 10 i.natAbs)).map _ = _
    rw [readUnsigned?_toDigits]
    rfl

end Numeral

namespace Binary64

theorem ofDecimal_zero_exponent {n : Nat} (hn : (Nat.toDigits 10 n).length ≤ 309)
    (negative : Bool) :
    ofDecimal negative n 0 = ofRatio negative n 1 := by
  unfold ofDecimal
  dsimp only
  split
  . next h =>
    have hpos : 0 < (Nat.toDigits 10 n).length := Nat.length_toDigits_pos
    have hzero : n = 0 := by
      simp only [Bool.or_eq_true, decide_eq_true_eq] at h
      omega
    unfold ofRatio
    rw [if_pos hzero]
  . rw [if_neg (by omega)]
    change ofRatio negative (n * 1) 1 = _
    rw [Nat.mul_one]

theorem length_toDigits_of_fitsSigned {i : Int} (hi : fitsSigned i = true) :
    (Nat.toDigits 10 i.natAbs).length ≤ 20 := by
  unfold fitsSigned at hi
  rw [Bool.and_eq_true, decide_eq_true_eq, decide_eq_true_eq] at hi
  rw [Nat.length_toDigits_le_iff (by decide) (by decide)]
  omega

theorem read?_toString {i : Int} (hi : fitsSigned i = true) :
    read? (toString i).toList = some (ofInt i) := by
  have hlength := length_toDigits_of_fitsSigned hi
  rw [read?_of_numeral (Numeral.read?_toString i)]
  change some (ofDecimal (decide (i < 0)) i.natAbs 0) = _
  rw [ofDecimal_zero_exponent (by omega)]
  rfl

theorem unitExponent_one {n : Nat} (hn : n ≠ 0) : unitExponent n 1 = (n.log2 : Int) - 52 := by
  have hlog : (1 : Nat).log2 = 0 := rfl
  have hestimate : max ((n.log2 : Int) - ((1 : Nat).log2 : Int) - 53) (-1074)
      = (n.log2 : Int) - 53 := by
    rw [hlog]
    omega
  -- the first estimate always leaves one binary digit too many
  have hlarge : 2 * hiddenBit * 2 ^ (n.log2 - 53) ≤ n * 2 ^ (53 - n.log2) := by
    have hpow : 53 + (n.log2 - 53) = n.log2 + (53 - n.log2) := by omega
    calc 2 * hiddenBit * 2 ^ (n.log2 - 53)
      _ = 2 ^ (53 + (n.log2 - 53)) := by rw [Nat.pow_add]; rfl
      _ = 2 ^ n.log2 * 2 ^ (53 - n.log2) := by rw [hpow, Nat.pow_add]
      _ ≤ n * 2 ^ (53 - n.log2) := Nat.mul_le_mul_right _ (Nat.log2_self_le hn)
  unfold unitExponent scaled
  rw [hestimate]
  have hneg : (-((n.log2 : Int) - 53)).toNat = 53 - n.log2 := by omega
  have hpos : ((n.log2 : Int) - 53).toNat = n.log2 - 53 := by omega
  dsimp only
  rw [hneg, hpos, Nat.one_mul, if_neg]
  . omega
  . rw [Nat.not_lt]
    exact (Nat.le_div_iff_mul_le (Nat.two_pow_pos _)).mpr hlarge

theorem roundHalfEven_one (n : Nat) : roundHalfEven n 1 = n := by
  unfold roundHalfEven
  rw [Nat.div_one, Nat.mod_one]
  rfl

theorem div_le_roundHalfEven (n d : Nat) : n / d ≤ roundHalfEven n d := by
  unfold roundHalfEven
  dsimp only
  split
  . exact Nat.le_succ _
  . exact Nat.le_refl _

theorem ofRatio_one {n : Nat} (hn : n ≠ 0) (negative : Bool) :
    ofRatio negative n 1 =
      (let m := roundHalfEven (n * 2 ^ (52 - n.log2)) (2 ^ (n.log2 - 52))
      let (m, e) := if m = 2 * hiddenBit then (hiddenBit, (n.log2 : Int) - 52 + 1)
        else (m, (n.log2 : Int) - 52)
      if 971 < e then .infinite negative else .finite negative m e) := by
  have hneg : (-((n.log2 : Int) - 52)).toNat = 52 - n.log2 := by omega
  have hpos : ((n.log2 : Int) - 52).toNat = n.log2 - 52 := by omega
  unfold ofRatio
  rw [if_neg hn, unitExponent_one hn]
  unfold scaled
  dsimp only
  rw [hneg, hpos, Nat.one_mul]
  rfl

theorem ofRatio_of_lt {n : Nat} (hn : n ≠ 0) (hlt : n < 2 ^ 53) (negative : Bool) :
    ofRatio negative n 1 = .finite negative (n * 2 ^ (52 - n.log2)) ((n.log2 : Int) - 52) := by
  have hlog : n.log2 < 53 := (Nat.log2_lt hn).mpr hlt
  have hunit : n.log2 - 52 = 0 := by omega
  have hfull : n * 2 ^ (52 - n.log2) < 2 * hiddenBit := by
    have hpow : n.log2 + 1 + (52 - n.log2) = 53 := by omega
    calc n * 2 ^ (52 - n.log2)
      _ < 2 ^ (n.log2 + 1) * 2 ^ (52 - n.log2) :=
        Nat.mul_lt_mul_of_pos_right Nat.lt_log2_self (Nat.two_pow_pos _)
      _ = 2 ^ 53 := by rw [← Nat.pow_add, hpow]
  rw [ofRatio_one hn, hunit, Nat.pow_zero, roundHalfEven_one]
  dsimp only
  rw [if_neg (Nat.ne_of_lt hfull)]
  dsimp only
  rw [if_neg (by omega)]

theorem pos_of_ofRatio_eq_finite {n : Nat} (hge : 2 ^ 53 ≤ n) {negative s : Bool} {m : Nat}
    {e : Int} (h : ofRatio negative n 1 = .finite s m e) : 0 < m ∧ 0 < e := by
  have hn : n ≠ 0 := by omega
  have hlog : 53 ≤ n.log2 := by
    rw [← Nat.not_lt, Nat.log2_lt hn]
    omega
  have hunit : 52 - n.log2 = 0 := by omega
  have hround : 0 < roundHalfEven n (2 ^ (n.log2 - 52)) := by
    apply Nat.lt_of_lt_of_le _ (div_le_roundHalfEven _ _)
    apply Nat.div_pos _ (Nat.two_pow_pos _)
    exact Nat.le_trans (Nat.pow_le_pow_right (by decide) (by omega)) (Nat.log2_self_le hn)
  rw [ofRatio_one hn, hunit, Nat.pow_zero, Nat.mul_one] at h
  dsimp only at h
  split at h
  . dsimp only at h
    split at h
    . contradiction
    . cases h
      exact ⟨by decide, by omega⟩
  . dsimp only at h
    split at h
    . contradiction
    . cases h
      exact ⟨hround, by omega⟩

theorem ofInt_cases (i : Int) :
    (i = 0 ∧ ofInt i = zero false)
      ∨ (i ≠ 0 ∧ i.natAbs < 2 ^ 53 ∧ ofInt i = .finite (decide (i < 0))
          (i.natAbs * 2 ^ (52 - i.natAbs.log2)) ((i.natAbs.log2 : Int) - 52))
      ∨ (2 ^ 53 ≤ i.natAbs ∧ ∀ s m e, ofInt i = .finite s m e → 0 < m ∧ 0 < e) := by
  by_cases hzero : i = 0
  . subst hzero
    exact .inl ⟨rfl, rfl⟩
  . have hn : i.natAbs ≠ 0 := Int.natAbs_ne_zero.mpr hzero
    by_cases hlt : i.natAbs < 2 ^ 53
    . exact .inr (.inl ⟨hzero, hlt, ofRatio_of_lt hn hlt _⟩)
    . rw [Nat.not_lt] at hlt
      exact .inr (.inr ⟨hlt, fun _ _ _ => pos_of_ofRatio_eq_finite hlt⟩)

theorem exists_of_equal_finite {s : Bool} {m : Nat} {e : Int} {y : Binary64}
    (h : (finite s m e).equal y = true) :
    ∃ t n f, y = .finite t n f ∧ ((m = 0 ∧ n = 0) ∨ (s = t ∧ m = n ∧ e = f)) := by
  cases y with
  | nan => contradiction
  | infinite t => contradiction
  | finite t n f =>
    unfold equal at h
    simp only [Bool.or_eq_true, Bool.and_eq_true, beq_iff_eq, and_assoc] at h
    exact ⟨t, n, f, rfl, h⟩

theorem eq_of_equal_ofInt {i j : Int} (hi : i.natAbs < 2 ^ 53)
    (h : (ofInt i).equal (ofInt j) = true) : i = j := by
  have hpos : ∀ {k : Int}, k ≠ 0 → 0 < k.natAbs * 2 ^ (52 - k.natAbs.log2) := by
    intro k hk
    exact Nat.mul_pos (Int.natAbs_pos.mpr hk) (Nat.two_pow_pos _)
  rcases ofInt_cases i with ⟨hi0, hx⟩ | ⟨hi0, _, hx⟩ | ⟨hge, _⟩
  . rw [hx] at h
    obtain ⟨t, n, f, hy, heq⟩ := exists_of_equal_finite h
    rcases ofInt_cases j with ⟨hj0, _⟩ | ⟨hj0, _, hy'⟩ | ⟨_, hlarge⟩
    . rw [hi0, hj0]
    . have hn := hpos hj0
      rw [hy'] at hy
      cases hy
      omega
    . have hn := (hlarge t n f hy).1
      omega
  . have hm := hpos hi0
    have hlog : i.natAbs.log2 < 53 := (Nat.log2_lt (Int.natAbs_ne_zero.mpr hi0)).mpr hi
    rw [hx] at h
    obtain ⟨t, n, f, hy, heq⟩ := exists_of_equal_finite h
    rcases ofInt_cases j with ⟨_, hy'⟩ | ⟨hj0, _, hy'⟩ | ⟨_, hlarge⟩
    . rw [hy'] at hy
      cases hy
      omega
    . rw [hy'] at hy
      cases hy
      obtain ⟨hsign, hdigits, hexponent⟩ := heq.resolve_left (by omega)
      -- moved by the same number of digits to the same value, so the same from the start
      have hlogs : i.natAbs.log2 = j.natAbs.log2 := by omega
      rw [hlogs] at hdigits
      have habs := Nat.eq_of_mul_eq_mul_right (Nat.two_pow_pos _) hdigits
      rw [decide_eq_decide] at hsign
      omega
    . have hf := (hlarge t n f hy).2
      omega
  . omega

theorem equal_ofInt_iff {i j : Int} (h : i.natAbs < 2 ^ 53 ∨ j.natAbs < 2 ^ 53) :
    (ofInt i).equal (ofInt j) = true ↔ i = j := by
  constructor
  . intro heq
    rcases h with hi | hj
    . exact eq_of_equal_ofInt hi heq
    . rw [equal_comm] at heq
      exact (eq_of_equal_ofInt hj heq).symm
  . intro hij
    rw [hij]
    exact equal_self (ofRatio_ne_nan _ _ _)

end Binary64

namespace Path

theorem looksLikeNumber_toString (i : Int) : looksLikeNumber (toString i).toList = true :=
  looksLikeNumber_iff.mpr ⟨_, Numeral.read?_toString i⟩

end Path

end TemplateCheck
