import Mathlib
import Polystore.Number.Reading

/-! # Bounds of integers

Which integers have 32 or 64 bits, and what becomes of those beyond 64 bits. -/

namespace Polystore.Number
set_option autoImplicit false

variable {n : Int}

theorem fits64_iff : fits64 n = true ↔ -2 ^ 63 ≤ n ∧ n < 2 ^ 63 := by
  have hmin : Int64.minValue.toInt = -2 ^ 63 := rfl
  have hmax : Int64.maxValue.toInt = 2 ^ 63 - 1 := rfl
  unfold fits64
  rw [hmin, hmax, Bool.and_eq_true, decide_eq_true_eq, decide_eq_true_eq]
  omega

theorem fits32_iff : fits32 n = true ↔ -2 ^ 31 ≤ n ∧ n < 2 ^ 31 := by
  have hmin : Int32.minValue.toInt = -2 ^ 31 := rfl
  have hmax : Int32.maxValue.toInt = 2 ^ 31 - 1 := rfl
  unfold fits32
  rw [hmin, hmax, Bool.and_eq_true, decide_eq_true_eq, decide_eq_true_eq]
  omega

theorem clamp64_of_fits (h : fits64 n = true) : clamp64 n = Int64.ofInt n := by
  unfold fits64 at h
  rw [Bool.and_eq_true, decide_eq_true_eq, decide_eq_true_eq] at h
  unfold clamp64
  rw [if_neg (by omega), if_neg (by omega)]

theorem clamp64_of_ge (h : 2 ^ 63 ≤ n) : clamp64 n = Int64.maxValue := by
  have hmin : Int64.minValue.toInt = -2 ^ 63 := rfl
  have hmax : Int64.maxValue.toInt = 2 ^ 63 - 1 := rfl
  unfold clamp64
  rw [hmin, hmax, if_neg (by omega), if_pos (by omega)]

theorem clamp64_of_le (h : n ≤ -2 ^ 63) : clamp64 n = Int64.minValue := by
  have hmin : Int64.minValue.toInt = -2 ^ 63 := rfl
  have hmax : Int64.maxValue.toInt = 2 ^ 63 - 1 := rfl
  unfold clamp64
  rw [hmin, hmax]
  split
  · rfl
  · obtain rfl : n = -2 ^ 63 := by omega
    rfl

/-- Beyond 64 bits only the sign counts. -/
theorem clamp64_signed {k m : Nat} (neg : Bool) (hk : 2 ^ 63 ≤ k) (hm : 2 ^ 63 ≤ m) :
    clamp64 (if neg then -(k : Int) else k) = clamp64 (if neg then -(m : Int) else m) := by
  cases neg with
  | false =>
    show clamp64 k = clamp64 m
    rw [clamp64_of_ge (by omega), clamp64_of_ge (by omega)]
  | true =>
    show clamp64 (-(k : Int)) = clamp64 (-(m : Int))
    rw [clamp64_of_le (by omega), clamp64_of_le (by omega)]

theorem toInt_clamp64_of_fits (h : fits64 n = true) : (clamp64 n).toInt = n := by
  obtain ⟨hlow, hhigh⟩ := fits64_iff.mp h
  rw [clamp64_of_fits h, Int64.toInt_ofInt_of_le hlow hhigh]

/-- Beyond 64 bits is beyond 32 bits also after it is cut off. -/
theorem fits32_clamp64 : fits32 (clamp64 n).toInt = fits32 n := by
  obtain hlow | hfits | hhigh :
      n < -2 ^ 63 ∨ (-2 ^ 63 ≤ n ∧ n < 2 ^ 63) ∨ 2 ^ 63 ≤ n := by omega
  · have hn : fits32 n = false := by
      rw [← Bool.not_eq_true, fits32_iff]
      omega
    rw [clamp64_of_le (by omega), hn]
    rfl
  · rw [toInt_clamp64_of_fits (fits64_iff.mpr hfits)]
  · have hn : fits32 n = false := by
      rw [← Bool.not_eq_true, fits32_iff]
      omega
    rw [clamp64_of_ge hhigh, hn]
    rfl

theorem fits64_of_fits32 (h : fits32 n = true) : fits64 n = true := by
  rw [fits32_iff] at h
  rw [fits64_iff]
  omega

theorem fits32_toInt (m : Int32) : fits32 m.toInt = true := fits32_iff.mpr ⟨m.le_toInt, m.toInt_lt⟩

theorem fits64_toInt (m : Int64) : fits64 m.toInt = true := fits64_iff.mpr ⟨m.le_toInt, m.toInt_lt⟩

end Polystore.Number
