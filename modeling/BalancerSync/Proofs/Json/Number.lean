import BalancerSync.Json.Number
import Mathlib.Algebra.Group.Nat.Defs

namespace BalancerSync

theorem roundHalfEven_le {num den bound : Nat} (h : num < bound * den) :
    roundHalfEven num den ≤ bound := by
  have hq : num / den < bound := Nat.div_lt_of_lt_mul (by rwa [Nat.mul_comm] at h)
  rw [roundHalfEven]
  split
  · omega
  · split
    · omega
    · split <;> omega

namespace Binary64

theorem magnitude_ofMagnitude {negative : Bool} {magnitude : Nat} (h : magnitude < 2 ^ 63) :
    (ofMagnitude negative magnitude).magnitude = magnitude := by
  cases negative <;> simp [ofMagnitude, Binary64.magnitude] <;> omega

/-- A quotient of less than about `2 ^ k` has a magnitude of less than about `k` in the bits of the
exponent. -/
theorem magnitude_ofRatio_le {negative : Bool} {num den k : Nat} (hden : 0 < den)
    (hk : num.log2 ≤ k + den.log2) :
    (ofRatio negative num den).magnitude ≤ (k + 1026) * 2 ^ 52 := by
  unfold ofRatio
  lift_lets
  intro guess reached unit significand magnitude
  have hlower : guess - 53 ≤ unit := by
    simp only [unit]
    split <;> omega
  have hupper : (unit + 1074).toNat ≤ k + 1022 := by
    simp only [unit]
    split <;> omega
  have hsignificand : significand ≤ 2 ^ 54 := by
    have hexponent : num.log2 + 1 + (-unit).toNat ≤ 54 + (den.log2 + unit.toNat) := by omega
    apply roundHalfEven_le
    calc num * 2 ^ (-unit).toNat
      _ < 2 ^ (num.log2 + 1) * 2 ^ (-unit).toNat :=
        Nat.mul_lt_mul_of_pos_right Nat.lt_log2_self (Nat.pow_pos (by decide))
      _ = 2 ^ (num.log2 + 1 + (-unit).toNat) := (Nat.pow_add ..).symm
      _ ≤ 2 ^ (54 + (den.log2 + unit.toNat)) := Nat.pow_le_pow_right (by decide) hexponent
      _ = 2 ^ 54 * (2 ^ den.log2 * 2 ^ unit.toNat) := by rw [Nat.pow_add, Nat.pow_add]
      _ ≤ 2 ^ 54 * (den * 2 ^ unit.toNat) :=
        Nat.mul_le_mul_left _ (Nat.mul_le_mul_right _ (Nat.log2_self_le (Nat.ne_of_gt hden)))
  have hmagnitude : magnitude ≤ (k + 1026) * 2 ^ 52 := by
    simp only [magnitude, Nat.pow_eq]
    split
    · exact Nat.zero_le _
    · calc (unit + 1074).toNat * 2 ^ 52 + significand
        _ ≤ (k + 1022) * 2 ^ 52 + 4 * 2 ^ 52 :=
          Nat.add_le_add (Nat.mul_le_mul_right _ hupper) hsignificand
        _ = (k + 1026) * 2 ^ 52 := (Nat.add_mul ..).symm
  rw [magnitude_ofMagnitude (Nat.lt_of_le_of_lt (Nat.min_le_right ..) (by decide))]
  exact Nat.le_trans (Nat.min_le_left ..) hmagnitude

/-- What a number of limited magnitude stands for. -/
theorem exists_value_eq_finite {x : Binary64} {e : Nat} (he : 0 < e) (hlimit : e < 2047)
    (hx : x.magnitude ≤ e * 2 ^ 52) : ∃ negative significand exponent,
      x.value = .finite negative significand exponent ∧ significand < 2 ^ 53 ∧
      exponent ≤ e - 1075 := by
  have hfinite : x.magnitude < infinity := by
    change x.magnitude < 2047 * 2 ^ 52
    omega
  have hexponent : x.magnitude / 2 ^ 52 ≤ e := Nat.div_le_of_le_mul (by omega)
  have hfraction : x.magnitude % 2 ^ 52 < 2 ^ 52 := Nat.mod_lt _ (by decide)
  simp only [value, Nat.pow_eq]
  rw [if_neg (by omega), if_neg (by omega)]
  split
  · exact ⟨_, _, _, rfl, by omega, by omega⟩
  · exact ⟨_, _, _, rfl, by omega, by omega⟩

theorem log2_le_of_lt {n k : Nat} (h : n < 2 ^ (k + 1)) : n.log2 ≤ k := by
  rcases Nat.eq_zero_or_pos n with rfl | hpos
  · exact Nat.zero_le _
  · exact Nat.le_of_lt_succ ((Nat.log2_lt (Nat.ne_of_gt hpos)).2 h)

/-- Integers of sixty-four bits are far below the largest number. -/
theorem isInfinite_ofNat_mul_one {n : Nat} (hn : n < 2 ^ 64) :
    (ofNat n * ofNat 1).isInfinite = false := by
  have hx : (ofNat n).magnitude ≤ 1089 * 2 ^ 52 :=
    magnitude_ofRatio_le (k := 63) (by decide) (Nat.le_add_right_of_le (log2_le_of_lt hn))
  obtain ⟨negative, significand, exponent, hvalue, hsignificand, hexponent⟩ :=
    exists_value_eq_finite (by decide) (by decide) hx
  have hone : (ofNat 1).value = .finite false (2 ^ 52) (-52) := rfl
  have hmul : ofNat n * ofNat 1 =
      scaled ((ofNat n).negative != (ofNat 1).negative) (significand * 2 ^ 52)
        (exponent + -52) := by
    change mul _ _ = _
    rw [mul, hvalue, hone]
  have hshift : (exponent + -52).toNat = 0 := by omega
  have hlog : (significand * 2 ^ 52 * 2 ^ 0).log2 ≤ 104 := log2_le_of_lt (by omega)
  have hproduct : (ofNat n * ofNat 1).magnitude ≤ 1130 * 2 ^ 52 := by
    rw [hmul, scaled, hshift]
    exact magnitude_ofRatio_le (k := 104) (Nat.pow_pos (by decide)) (Nat.le_add_right_of_le hlog)
  rw [isInfinite, decide_eq_false_iff_not]
  change _ ≠ 2047 * 2 ^ 52
  omega

end Binary64

namespace Numeral

theorem le_ofDigitChars (cs : List Char) (n : Nat) : n ≤ Nat.ofDigitChars 10 cs n := by
  induction cs generalizing n with
  | nil => exact Nat.le_refl n
  | cons c cs ih =>
    rw [Nat.ofDigitChars_cons]
    refine Nat.le_trans ?_ (ih _)
    omega

theorem wholePart_eq {cs : List Char} {n : Nat} (h : Nat.ofDigitChars 10 cs n ≤ wordLimit) :
    wholePart n cs = (Nat.ofDigitChars 10 cs n, 0) := by
  induction cs generalizing n with
  | nil => rfl
  | cons c cs ih =>
    rw [Nat.ofDigitChars_cons, Nat.mul_comm] at h ⊢
    have hle := Nat.le_trans (le_ofDigitChars cs _) h
    rw [wholePart, digitValue, if_neg (Nat.not_lt.2 hle)]
    exact ih h

theorem isSome_toBinary64?_ofNat {n : Nat} (hn : n < 2 ^ 64) : (ofNat n).toBinary64?.isSome := by
  have hwhole : wholePart 0 (Nat.toDigits 10 n) = (n, 0) := by
    have hvalue : Nat.ofDigitChars 10 (Nat.toDigits 10 n) 0 = n := Nat.ofDigitChars_ten_toDigits
    have hle : Nat.ofDigitChars 10 (Nat.toDigits 10 n) 0 ≤ wordLimit := by
      rw [hvalue]
      exact Nat.le_of_lt_succ hn
    rw [wholePart_eq hle, hvalue]
  have hscale : scale? (.ofNat n) 0 = some (.ofNat n * .ofNat 1) := by
    have hfinite := Binary64.isInfinite_ofNat_mul_one hn
    simp [scale?, timesPowerOfTen?, hfinite]
  simp [toBinary64?, ofNat, hwhole, fractionPart, hscale]

end Numeral

end BalancerSync
