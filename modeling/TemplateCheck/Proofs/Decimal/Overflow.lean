import Mathlib.Algebra.Group.Nat.Defs
import TemplateCheck.Proofs.Decimal.Literal

/-!
This module contains when a quotient, and with it a decimal numeral, is rounded to infinity: from
the number on that lies half way between the largest finite value and the next power of two.
-/

namespace TemplateCheck

namespace Binary64

@[irreducible]
def halfGap : Nat :=
  970

theorem halfGap_eq : halfGap = 970 := by
  unfold halfGap
  rfl

/--
Whether a quotient is at least `2 ^ 1024 - 2 ^ 970`, half way between the largest finite value and
the next power of two.
-/
def Overflows (numerator denominator : Nat) : Prop :=
  (2 ^ 54 - 1) * (denominator * 2 ^ halfGap) ≤ numerator

theorem scaled_of_nonneg (n d : Nat) {e : Int} (he : 0 ≤ e) :
    scaled n d e = (n, d * 2 ^ e.toNat) := by
  have hzero : (-e).toNat = 0 := by omega
  unfold scaled
  rw [hzero]
  exact congrArg (·, _) (Nat.mul_one n)

theorem scaled_of_neg (n d : Nat) {e : Int} (he : e < 0) :
    scaled n d e = (n * 2 ^ (-e).toNat, d) := by
  have hzero : e.toNat = 0 := by omega
  unfold scaled
  rw [hzero]
  exact congrArg (_, ·) (Nat.mul_one d)

theorem scaled_snd_pos (n : Nat) {d : Nat} (hd : d ≠ 0) (e : Int) : 0 < (scaled n d e).2 :=
  Nat.mul_pos (Nat.pos_of_ne_zero hd) (Nat.two_pow_pos _)

theorem mul_scaled_succ_le_iff (c n d : Nat) (e : Int) :
    c * (scaled n d (e + 1)).2 ≤ (scaled n d (e + 1)).1
      ↔ 2 * c * (scaled n d e).2 ≤ (scaled n d e).1 := by
  rcases Int.lt_or_le e 0 with hneg | hpos
  . have hunit : (-e).toNat = (-(e + 1)).toNat + 1 := by omega
    have hnext : (e + 1).toNat = 0 := by omega
    rw [scaled_of_neg n d hneg, hunit, Nat.pow_succ]
    change c * (d * 2 ^ (e + 1).toNat) ≤ n * 2 ^ (-(e + 1)).toNat ↔ _
    rw [hnext, Nat.pow_zero, Nat.mul_one, ← Nat.mul_assoc n, Nat.mul_assoc 2, Nat.mul_comm 2]
    exact (Nat.mul_le_mul_right_iff (by decide)).symm
  . have hunit : (e + 1).toNat = e.toNat + 1 := by omega
    rw [scaled_of_nonneg n d hpos, scaled_of_nonneg n d (by omega), hunit, Nat.pow_succ]
    rw [← Nat.mul_assoc d, ← Nat.mul_assoc c, Nat.mul_comm _ 2, Nat.mul_assoc 2 c]

theorem scaled_lt {n d : Nat} (hd : d ≠ 0) {e : Int}
    (he : (n.log2 : Int) - (d.log2 : Int) - 53 ≤ e) :
    (scaled n d e).1 < 2 ^ 54 * (scaled n d e).2 := by
  have hpow : n.log2 + 1 + (-e).toNat ≤ 54 + (d.log2 + e.toNat) := by omega
  calc n * 2 ^ (-e).toNat
    _ < 2 ^ (n.log2 + 1) * 2 ^ (-e).toNat :=
      Nat.mul_lt_mul_of_pos_right Nat.lt_log2_self (Nat.two_pow_pos _)
    _ = 2 ^ (n.log2 + 1 + (-e).toNat) := (Nat.pow_add ..).symm
    _ ≤ 2 ^ (54 + (d.log2 + e.toNat)) := Nat.pow_le_pow_right (by decide) hpow
    _ = 2 ^ 54 * (2 ^ d.log2 * 2 ^ e.toNat) := by rw [Nat.pow_add, Nat.pow_add]
    _ ≤ 2 ^ 54 * (d * 2 ^ e.toNat) :=
      Nat.mul_le_mul_left _ (Nat.mul_le_mul_right _ (Nat.log2_self_le hd))

theorem le_scaled {n d : Nat} (hn : n ≠ 0) {e : Int}
    (he : e ≤ (n.log2 : Int) - (d.log2 : Int) - 53) :
    2 ^ 52 * (scaled n d e).2 ≤ (scaled n d e).1 := by
  have hpow : 52 + (d.log2 + 1 + e.toNat) ≤ n.log2 + (-e).toNat := by omega
  calc 2 ^ 52 * (d * 2 ^ e.toNat)
    _ ≤ 2 ^ 52 * (2 ^ (d.log2 + 1) * 2 ^ e.toNat) :=
      Nat.mul_le_mul_left _ (Nat.mul_le_mul_right _ (Nat.le_of_lt Nat.lt_log2_self))
    _ = 2 ^ (52 + (d.log2 + 1 + e.toNat)) := by rw [← Nat.pow_add, ← Nat.pow_add]
    _ ≤ 2 ^ (n.log2 + (-e).toNat) := Nat.pow_le_pow_right (by decide) hpow
    _ = 2 ^ n.log2 * 2 ^ (-e).toNat := Nat.pow_add ..
    _ ≤ n * 2 ^ (-e).toNat := Nat.mul_le_mul_right _ (Nat.log2_self_le hn)

/--
Whether a unit leaves at most 53 binary digits before the point, and just that many unless it is the
least unit.
-/
structure InUnit (n d : Nat) (e : Int) : Prop where
  lt : (scaled n d e).1 < 2 ^ 53 * (scaled n d e).2
  le : e = -1074 ∨ 2 ^ 52 * (scaled n d e).2 ≤ (scaled n d e).1

theorem inUnit_unitExponent {n d : Nat} (hn : n ≠ 0) (hd : d ≠ 0) :
    InUnit n d (unitExponent n d) := by
  generalize hestimate : max ((n.log2 : Int) - (d.log2 : Int) - 53) (-1074) = e
  -- the estimate is right or one too small
  have hupper : (scaled n d e).1 < 2 ^ 54 * (scaled n d e).2 := scaled_lt hd (by omega)
  have hlower : e = -1074 ∨ 2 ^ 52 * (scaled n d e).2 ≤ (scaled n d e).1 := by
    by_cases hleast : e = -1074
    . exact .inl hleast
    . exact .inr (le_scaled hn (by omega))
  have hfits : (scaled n d e).1 / (scaled n d e).2 < 2 * hiddenBit
      ↔ (scaled n d e).1 < 2 ^ 53 * (scaled n d e).2 :=
    Nat.div_lt_iff_lt_mul (scaled_snd_pos n hd e)
  unfold unitExponent
  dsimp only
  rw [hestimate]
  split
  . next hlt => exact ⟨hfits.mp hlt, hlower⟩
  . next hge =>
    rw [hfits, Nat.not_lt] at hge
    constructor
    . rw [← Nat.not_le, mul_scaled_succ_le_iff, Nat.not_le]
      exact hupper
    . rw [mul_scaled_succ_le_iff]
      exact .inr hge

theorem roundHalfEven_eq_iff {n d c : Nat} (hc : c % 2 = 0) (hlt : n < c * d) :
    roundHalfEven n d = c ↔ (2 * c - 1) * d ≤ 2 * n := by
  have hd : 0 < d := Nat.pos_of_lt_mul_left hlt
  have hq : n / d < c := (Nat.div_lt_iff_lt_mul hd).mpr hlt
  have hdiv := Nat.div_add_mod n d
  have hmod := Nat.mod_lt n hd
  unfold roundHalfEven
  dsimp only
  generalize n / d = q at hdiv hq ⊢
  generalize n % d = r at hdiv hmod ⊢
  by_cases hlast : q + 1 = c
  . -- from the odd neighbour below `c` a tie goes up
    have hodd : q % 2 = 1 := by omega
    have hhalf : (2 * c - 1) * d = 2 * (d * q) + d := by
      rw [← hlast, show 2 * (q + 1) - 1 = 2 * q + 1 by omega, Nat.add_mul, Nat.one_mul,
        Nat.mul_assoc, Nat.mul_comm q d]
    simp only [hodd, Bool.or_eq_true, Bool.and_eq_true, decide_eq_true_eq, beq_iff_eq, and_true]
    rw [hhalf]
    split <;> omega
  . have hsmall : (2 * q + 3) * d ≤ (2 * c - 1) * d := Nat.mul_le_mul_right d (by omega)
    have hexpand : (2 * q + 3) * d = 2 * (d * q) + 3 * d := by
      rw [Nat.add_mul, Nat.mul_assoc, Nat.mul_comm q d]
    rw [hexpand] at hsmall
    generalize (2 * c - 1) * d = x at hsmall ⊢
    split <;> omega

theorem not_overflows_of_lt {n d : Nat} (hd : d ≠ 0) {e : Int} (he : e < 971)
    (hlt : (scaled n d e).1 < 2 ^ 53 * (scaled n d e).2) : ¬Overflows n d := by
  have hgap := halfGap_eq
  have hpos : 0 < d * 2 ^ halfGap := Nat.mul_pos (Nat.pos_of_ne_zero hd) (Nat.two_pow_pos _)
  have hunit : 2 ^ e.toNat ≤ 2 ^ halfGap := Nat.pow_le_pow_right (by decide) (by omega)
  have hsmall : n < 2 ^ 53 * (d * 2 ^ halfGap) := by
    calc n
      _ ≤ (scaled n d e).1 := Nat.le_mul_of_pos_right n (Nat.two_pow_pos _)
      _ < 2 ^ 53 * (scaled n d e).2 := hlt
      _ ≤ 2 ^ 53 * (d * 2 ^ halfGap) := Nat.mul_le_mul_left _ (Nat.mul_le_mul_left _ hunit)
  unfold Overflows
  omega

theorem overflows_of_lt {n d : Nat} {e : Int} (he : 971 < e)
    (hle : 2 ^ 52 * (scaled n d e).2 ≤ (scaled n d e).1) : Overflows n d := by
  have hgap := halfGap_eq
  rw [scaled_of_nonneg n d (by omega)] at hle
  unfold Overflows
  calc (2 ^ 54 - 1) * (d * 2 ^ halfGap)
    _ ≤ 2 ^ 54 * (d * 2 ^ halfGap) := Nat.mul_le_mul_right _ (by decide)
    _ = 2 ^ 52 * 2 ^ 2 * (d * 2 ^ halfGap) := by rw [← Nat.pow_add]
    _ = 2 ^ 52 * (d * 2 ^ (halfGap + 2)) := by
      rw [Nat.pow_add 2 halfGap, ← Nat.mul_assoc d, Nat.mul_assoc (2 ^ 52), Nat.mul_comm (2 ^ 2)]
    _ ≤ 2 ^ 52 * (d * 2 ^ e.toNat) := by
      apply Nat.mul_le_mul_left
      apply Nat.mul_le_mul_left
      exact Nat.pow_le_pow_right (by decide) (by omega)
    _ ≤ n := hle

theorem roundHalfEven_eq_iff_overflows {n d : Nat}
    (hlt : (scaled n d 971).1 < 2 ^ 53 * (scaled n d 971).2) :
    roundHalfEven (scaled n d 971).1 (scaled n d 971).2 = 2 * hiddenBit ↔ Overflows n d := by
  have hunit : scaled n d 971 = (n, d * 2 ^ halfGap * 2) := by
    have hexponent : (971 : Int).toNat = halfGap + 1 := by
      rw [halfGap_eq]
      rfl
    rw [scaled_of_nonneg n d (by decide), hexponent, Nat.pow_succ, Nat.mul_assoc]
  rw [hunit] at hlt ⊢
  rw [roundHalfEven_eq_iff (c := 2 * hiddenBit) rfl hlt]
  unfold Overflows hiddenBit
  omega

theorem InUnit.lt_exponent_iff {n d : Nat} {e : Int} (h : InUnit n d e) (hd : d ≠ 0) :
    971 < (if roundHalfEven (scaled n d e).1 (scaled n d e).2 = 2 * hiddenBit then e + 1 else e)
      ↔ Overflows n d := by
  rcases Int.lt_trichotomy e 971 with hlt | rfl | hgt
  . refine iff_of_false ?_ (not_overflows_of_lt hd hlt h.lt)
    split <;> omega
  . rw [← roundHalfEven_eq_iff_overflows h.lt]
    split <;> omega
  . refine iff_of_true ?_ (overflows_of_lt hgt (h.le.resolve_left (by omega)))
    split <;> omega

theorem ofRatio_eq_infinite_iff {n d : Nat} (hn : n ≠ 0) (hd : d ≠ 0) (negative s : Bool) :
    ofRatio negative n d = .infinite s ↔ s = negative ∧ Overflows n d := by
  rw [← (inUnit_unitExponent hn hd).lt_exponent_iff hd]
  unfold ofRatio
  rw [if_neg hn]
  dsimp only
  split
  . dsimp only
    split <;> simp_all [eq_comm]
  . dsimp only
    split <;> simp_all [eq_comm]

theorem lt_ten_pow_length (n : Nat) : n < 10 ^ (Nat.toDigits 10 n).length :=
  (Nat.length_toDigits_le_iff (by decide) Nat.length_toDigits_pos).mp (Nat.le_refl _)

theorem ten_pow_le {n k : Nat} (hn : n ≠ 0) (hk : k < (Nat.toDigits 10 n).length) : 10 ^ k ≤ n := by
  cases k with
  | zero => exact Nat.pos_of_ne_zero hn
  | succ k =>
    rw [← Nat.not_lt, ← Nat.length_toDigits_le_iff (by decide) (Nat.succ_pos k)]
    omega

theorem threshold_le : (2 ^ 54 - 1) * 2 ^ halfGap ≤ 10 ^ 309 := by
  decide +kernel

theorem not_overflows_of_le {n d : Nat} (hd : d ≠ 0) (h : n ≤ d) : ¬Overflows n d := by
  have hpos := Nat.le_mul_of_pos_right d (Nat.two_pow_pos halfGap)
  unfold Overflows
  omega

theorem not_overflows_decimal {digits : Nat} {exponent : Int}
    (h : exponent + (Nat.toDigits 10 digits).length ≤ 0) :
    ¬Overflows (digits * 10 ^ exponent.toNat) (10 ^ (-exponent).toNat) := by
  have hexponent : exponent.toNat = 0 := by omega
  rw [hexponent, Nat.pow_zero, Nat.mul_one]
  apply not_overflows_of_le (Nat.ne_of_gt (Nat.pow_pos (by decide)))
  calc digits
    _ ≤ 10 ^ (Nat.toDigits 10 digits).length := Nat.le_of_lt (lt_ten_pow_length digits)
    _ ≤ 10 ^ (-exponent).toNat := Nat.pow_le_pow_right (by decide) (by omega)

theorem overflows_decimal {digits : Nat} {exponent : Int} (hdigits : digits ≠ 0)
    (h : 310 ≤ exponent + (Nat.toDigits 10 digits).length) :
    Overflows (digits * 10 ^ exponent.toNat) (10 ^ (-exponent).toNat) := by
  have hmagnitude : 10 ^ ((Nat.toDigits 10 digits).length - 1) ≤ digits :=
    ten_pow_le hdigits (Nat.sub_one_lt (Nat.ne_of_gt Nat.length_toDigits_pos))
  unfold Overflows
  calc (2 ^ 54 - 1) * (10 ^ (-exponent).toNat * 2 ^ halfGap)
    _ = (2 ^ 54 - 1) * 2 ^ halfGap * 10 ^ (-exponent).toNat := by
      rw [Nat.mul_comm (10 ^ _), Nat.mul_assoc]
    _ ≤ 10 ^ 309 * 10 ^ (-exponent).toNat := Nat.mul_le_mul_right _ threshold_le
    _ = 10 ^ (309 + (-exponent).toNat) := by rw [Nat.pow_add]
    _ ≤ 10 ^ ((Nat.toDigits 10 digits).length - 1 + exponent.toNat) :=
      Nat.pow_le_pow_right (by decide) (by omega)
    _ = 10 ^ ((Nat.toDigits 10 digits).length - 1) * 10 ^ exponent.toNat := Nat.pow_add ..
    _ ≤ digits * 10 ^ exponent.toNat := Nat.mul_le_mul_right _ hmagnitude

theorem ofDecimal_eq_infinite_iff (negative s : Bool) (digits : Nat) (exponent : Int) :
    ofDecimal negative digits exponent = .infinite s
      ↔ s = negative ∧ Overflows (digits * 10 ^ exponent.toNat) (10 ^ (-exponent).toNat) := by
  have hne : 10 ^ (-exponent).toNat ≠ 0 := Nat.ne_of_gt (Nat.pow_pos (by decide))
  unfold ofDecimal
  dsimp only
  split
  . next h =>
    rw [Bool.or_eq_true, decide_eq_true_eq, decide_eq_true_eq] at h
    have hsmall : ¬Overflows (digits * 10 ^ exponent.toNat) (10 ^ (-exponent).toNat) := by
      rcases h with rfl | hlow
      . exact not_overflows_of_le hne (by simp)
      . exact not_overflows_decimal (by omega)
    exact ⟨nofun, fun h => absurd h.2 hsmall⟩
  . next h =>
    have hdigits : digits ≠ 0 := by
      rintro rfl
      simp at h
    split
    . have hlarge : Overflows (digits * 10 ^ exponent.toNat) (10 ^ (-exponent).toNat) :=
        overflows_decimal hdigits (by omega)
      rw [Binary64.infinite.injEq, eq_comm]
      exact ⟨fun h => ⟨h, hlarge⟩, And.left⟩
    . apply ofRatio_eq_infinite_iff _ hne
      exact Nat.mul_ne_zero hdigits (Nat.ne_of_gt (Nat.pow_pos (by decide)))

end Binary64

namespace Numeral

def Overflows (n : Numeral) : Prop :=
  Binary64.Overflows (n.digits * 10 ^ n.exponent.toNat) (10 ^ (-n.exponent).toNat)

theorem value_eq_infinite_iff (n : Numeral) (s : Bool) :
    n.value = .infinite s ↔ s = n.negative ∧ n.Overflows :=
  Binary64.ofDecimal_eq_infinite_iff n.negative s n.digits n.exponent

end Numeral

end TemplateCheck
