import Polystore.Number.Reading
import Polystore.Proofs.Number.Exact

/-! # Rounding whole numbers to doubles -/

namespace Polystore.Double
set_option autoImplicit false
open Float.Model Float.Model.UnpackedFloat

/-! ## Halves to even -/

/-- The whole number nearest to `n / 2 ^ k`, the even one of two. -/
def halfEven (n k : Nat) : Nat :=
  if 2 * (n % 2 ^ k) < 2 ^ k ∨ (2 * (n % 2 ^ k) = 2 ^ k ∧ n / 2 ^ k % 2 = 0) then n / 2 ^ k
  else n / 2 ^ k + 1

section
variable (n k j : Nat)

theorem halfEven_mul : halfEven (n * 2 ^ j) (k + j) = halfEven n k := by
  have hpos : 0 < 2 ^ j := Nat.two_pow_pos j
  have hlt : 2 * (n % 2 ^ k * 2 ^ j) < 2 ^ k * 2 ^ j ↔ 2 * (n % 2 ^ k) < 2 ^ k := by
    rw [← Nat.mul_assoc]
    exact Nat.mul_lt_mul_right hpos
  have heq : 2 * (n % 2 ^ k * 2 ^ j) = 2 ^ k * 2 ^ j ↔ 2 * (n % 2 ^ k) = 2 ^ k := by
    rw [← Nat.mul_assoc]
    exact Nat.mul_left_inj (Nat.ne_of_gt hpos)
  unfold halfEven
  rw [Nat.pow_add, Nat.mul_mod_mul_right, Nat.mul_div_mul_right _ _ hpos]
  simp only [hlt, heq]

theorem shiftRight_exact : (⟨n, false, false⟩ : ExtendedMantissa) >>> (k + 1) =
    ⟨n / 2 ^ (k + 1), n / 2 ^ k % 2 != 0, n % 2 ^ k != 0⟩ := by
  induction k with
  | zero =>
    show ExtendedMantissa.mk (n / 2) (n % 2 != 0) false = _
    simp [Nat.mod_one]
  | succ k ih =>
    show ExtendedMantissa.shiftRightOne ((⟨n, false, false⟩ : ExtendedMantissa) >>> (k + 1)) = _
    rw [ih]
    unfold ExtendedMantissa.shiftRightOne
    have hsticky : (n / 2 ^ k % 2 != 0 || n % 2 ^ k != 0) = (n % 2 ^ (k + 1) != 0) := by
      rw [Nat.mod_pow_succ]
      obtain hbit | hbit := Nat.mod_two_eq_zero_or_one (n / 2 ^ k) <;> simp [hbit]
    rw [hsticky, Nat.div_div_eq_div_mul, ← Nat.pow_succ]

/-- Dropping bits and rounding by the two that are left of them is rounding halves to even. -/
theorem roundedMantissa_shiftRight :
    ((⟨n, false, false⟩ : ExtendedMantissa) >>> k).roundedMantissa = halfEven n k := by
  cases k with
  | zero =>
    show n = _
    simp [halfEven, Nat.mod_one]
  | succ k =>
    have hrest : n % 2 ^ k < 2 ^ k := Nat.mod_lt n (Nat.two_pow_pos k)
    have hbit : n / 2 ^ k % 2 = 0 ∨ n / 2 ^ k % 2 = 1 := Nat.mod_two_eq_zero_or_one _
    rw [shiftRight_exact, ExtendedMantissa.roundedMantissa]
    unfold halfEven
    rw [Nat.mod_pow_succ]
    obtain hround | hround := hbit <;> by_cases hsticky : n % 2 ^ k = 0 <;>
      simp only [hround, hsticky, bne_self_eq_false, ExtendedMantissa.accuracy,
        Accuracy.roundToNearestEven, Nat.pow_succ]
    · rw [if_pos (by omega)]
    · rw [bne_iff_ne.mpr hsticky]
      exact (if_pos (by omega)).symm
    · show n / (2 ^ k * 2) + n / (2 ^ k * 2) % 2 = _
      split <;> omega
    · rw [bne_iff_ne.mpr hsticky]
      exact (if_neg (by omega)).symm

end

/-! ## Fifty-three significant bits -/

/-- The number of bits of a whole number behind its first fifty-three. -/
def excess (n : Nat) : Nat := n.log2 - 52

/-- The whole number of fifty-three significant bits that is nearest to `n`. -/
def rounded (n : Nat) : Nat := halfEven n (excess n) * 2 ^ excess n

/-- The least whole number that rounds to one beyond every double. -/
def overflow : Nat := 2 ^ 1024 - 2 ^ 970

theorem pow_64_le_overflow : 2 ^ 64 ≤ overflow := by decide +kernel

section
variable {n : Nat}

theorem excess_bounds (h : 2 ^ 53 ≤ n) : n.log2 = excess n + 52 ∧ 0 < excess n ∧
    2 ^ 52 ≤ n / 2 ^ excess n ∧ n / 2 ^ excess n < 2 ^ 53 := by
  have hzero : n ≠ 0 := by
    rintro rfl
    exact absurd h (by decide)
  have hlog : 53 ≤ n.log2 := (Nat.le_log2 hzero).mpr h
  have hsum : n.log2 = excess n + 52 := (Nat.sub_add_cancel (by omega)).symm
  obtain ⟨hlow, hhigh⟩ := (Nat.log2_eq_iff hzero).mp hsum
  refine ⟨hsum, by omega, ?_, ?_⟩
  · rw [Nat.le_div_iff_mul_le (Nat.two_pow_pos _), ← Nat.pow_add, Nat.add_comm]
    exact hlow
  · rw [Nat.div_lt_iff_lt_mul (Nat.two_pow_pos _), ← Nat.pow_add]
    exact Nat.lt_of_lt_of_eq hhigh (congrArg _ (by omega))

theorem halfEven_bounds (k : Nat) : n / 2 ^ k ≤ halfEven n k ∧ halfEven n k ≤ n / 2 ^ k + 1 := by
  unfold halfEven
  split <;> omega

/-- Rounding at the highest places goes beyond every double from halfway above the greatest on. -/
theorem overflow_le_iff (h : 2 ^ 53 ≤ n) : 2 ^ 1024 ≤ rounded n ↔ overflow ≤ n := by
  obtain ⟨-, -, hlow, hhigh⟩ := excess_bounds h
  obtain ⟨hfloor, hceil⟩ := halfEven_bounds (n := n) (excess n)
  have hsplit : 2 ^ excess n * (n / 2 ^ excess n) + n % 2 ^ excess n = n := Nat.div_add_mod n _
  have hrest : n % 2 ^ excess n < 2 ^ excess n := Nat.mod_lt n (Nat.two_pow_pos _)
  have htop : 2 ^ 1024 = 2 ^ 54 * 2 ^ 970 := by rw [← Nat.pow_add]
  have hunit : 2 ^ 971 = 2 ^ 1 * 2 ^ 970 := by rw [← Nat.pow_add]
  unfold overflow rounded
  rw [htop]
  obtain hk | hk | hk : excess n ≤ 970 ∨ excess n = 971 ∨ 972 ≤ excess n := by omega
  · have hpow : 2 ^ excess n ≤ 2 ^ 970 := pow_le_pow_right₀ one_le_two hk
    have hrounded : halfEven n (excess n) * 2 ^ excess n ≤ 2 ^ 53 * 2 ^ 970 :=
      Nat.mul_le_mul (by omega) hpow
    have hn : 2 ^ excess n * (n / 2 ^ excess n + 1) ≤ 2 ^ 970 * 2 ^ 53 := Nat.mul_le_mul hpow hhigh
    rw [Nat.mul_add, Nat.mul_one] at hn
    omega
  · unfold halfEven
    rw [hk, hunit] at *
    split <;> omega
  · have hpow : 2 ^ 972 ≤ 2 ^ excess n := pow_le_pow_right₀ one_le_two hk
    have hfourth : 2 ^ 972 = 2 ^ 2 * 2 ^ 970 := by rw [← Nat.pow_add]
    have hrounded : 2 ^ 52 * 2 ^ 972 ≤ halfEven n (excess n) * 2 ^ excess n :=
      Nat.mul_le_mul (by omega) hpow
    have hn : 2 ^ 972 * 2 ^ 52 ≤ 2 ^ excess n * (n / 2 ^ excess n) := Nat.mul_le_mul hpow hlow
    omega

theorem mantissa_shiftRight (k : Nat) :
    ((⟨n, false, false⟩ : ExtendedMantissa) >>> k).mantissa = n / 2 ^ k := by
  cases k with
  | zero => exact (Nat.div_one n).symm
  | succ k => rw [shiftRight_exact]

theorem shiftToTargetExponent_exact {e : Int} (h : 52 ≤ n.log2) (he : -1074 ≤ e) :
    shiftToTargetExponent Format.binary64 n e .exact =
      ((⟨n, false, false⟩ : ExtendedMantissa) >>> excess n, e + excess n) := by
  have hamount : (Format.binary64.targetExponent (totalExponent n e) - e).toNat = excess n := by
    show (max ((n.log2 : Int) + 1 + e - 53) (-1074) - e).toNat = n.log2 - 52
    omega
  unfold shiftToTargetExponent shiftToExponent
  simp only [hamount]
  rfl

theorem excess_mul (h : 2 ^ 53 ≤ n) (k : Nat) : excess (n * 2 ^ k) = excess n + k := by
  obtain ⟨hlog, -⟩ := excess_bounds h
  have hzero : n ≠ 0 := by
    rintro rfl
    exact absurd h (by decide)
  have hmul : (n * 2 ^ k).log2 = n.log2 + k := by
    induction k with
    | zero => rw [Nat.pow_zero, Nat.mul_one, Nat.add_zero]
    | succ k ih =>
      have hne : n * 2 ^ k ≠ 0 := Nat.mul_ne_zero hzero (Nat.ne_of_gt (Nat.two_pow_pos k))
      rw [Nat.pow_succ, ← Nat.mul_assoc, Nat.mul_comm, Nat.log2_two_mul hne, ih, Nat.add_assoc]
  unfold excess
  omega

theorem roundWithAccuracy_exact (s : Sign) (h : 2 ^ 53 ≤ n) :
    ∃ (m e : Nat) (hm : 0 < m), 2 ^ 52 ≤ m ∧ m < 2 ^ 53 ∧ excess n ≤ e ∧ m * 2 ^ e = rounded n ∧
      roundWithAccuracy Format.binary64 s (n * 2 ^ 53) (-53) .exact = .finite s m e hm := by
  obtain ⟨hlog, hpos, hlow, hhigh⟩ := excess_bounds h
  obtain ⟨hfloor, hceil⟩ := halfEven_bounds (n := n) (excess n)
  have hexcess : excess (n * 2 ^ 53) = excess n + 53 := excess_mul h 53
  have hfirst : shiftToTargetExponent Format.binary64 (n * 2 ^ 53) (-53) .exact =
      ((⟨n * 2 ^ 53, false, false⟩ : ExtendedMantissa) >>> (excess n + 53), (excess n : Int)) := by
    rw [shiftToTargetExponent_exact (by unfold excess at hexcess; omega) (by decide), hexcess]
    exact congrArg _ (by omega)
  have hcarry : 52 ≤ (halfEven n (excess n)).log2 :=
    (Nat.le_log2 (by omega)).mpr (Nat.le_trans hlow hfloor)
  have hsecond : shiftToTargetExponent Format.binary64 (halfEven n (excess n)) (excess n) .exact =
      ((⟨halfEven n (excess n), false, false⟩ : ExtendedMantissa) >>> excess (halfEven n (excess n)),
        ((excess n : Int) + excess (halfEven n (excess n)))) :=
    shiftToTargetExponent_exact hcarry (by omega)
  have hround (m e : Nat) (hm : 0 < m)
      (hmantissa : halfEven n (excess n) / 2 ^ excess (halfEven n (excess n)) = m)
      (hexponent : excess n + excess (halfEven n (excess n)) = e) :
      roundWithAccuracy Format.binary64 s (n * 2 ^ 53) (-53) .exact = .finite s m e hm := by
    subst hmantissa hexponent
    unfold roundWithAccuracy
    rw [hfirst]
    dsimp only
    rw [roundedMantissa_shiftRight, halfEven_mul, hsecond]
    dsimp only
    rw [mantissa_shiftRight, dif_neg (Nat.ne_of_gt hm)]
    rfl
  obtain hfull | hfull := Nat.lt_or_ge (halfEven n (excess n)) (2 ^ 53)
  · have hkept : excess (halfEven n (excess n)) = 0 := by
      have := (Nat.log2_lt (show halfEven n (excess n) ≠ 0 by omega)).mpr hfull
      unfold excess at this ⊢
      omega
    refine ⟨halfEven n (excess n), excess n, by omega, by omega, hfull, Nat.le_refl _, rfl,
      hround _ _ _ ?_ ?_⟩
    · rw [hkept, Nat.pow_zero, Nat.div_one]
    · rw [hkept, Nat.add_zero]
  · -- Rounding up has carried into a fifty-fourth bit.
    have hpower : halfEven n (excess n) = 2 ^ 53 := by omega
    have hcarried : excess (halfEven n (excess n)) = 1 := by
      rw [hpower]
      decide
    refine ⟨2 ^ 52, excess n + 1, by decide, Nat.le_refl _, by decide, Nat.le_succ _, ?_,
      hround _ _ _ ?_ ?_⟩
    · rw [rounded, hpower, Nat.pow_succ]
      omega
    · rw [hcarried, hpower]
      rfl
    · rw [hcarried]

end
/-! ## Doubles of whole numbers -/

open Number (nearest signed infinity)

theorem ofScientific_large {n : Nat} (h : 2 ^ 53 ≤ n) :
    UnpackedFloat.ofScientific Format.binary64 n 0 =
      roundWithAccuracy Format.binary64 .positive (n * 2 ^ 53) (-53) .exact := by
  have hzero : n ≠ 0 := by
    rintro rfl
    exact absurd h (by decide)
  have hsmall : ¬(0 : Int) < -((2 : Int) ^ Format.binary64.exponentBits + n.log2) := by
    show ¬(0 : Int) < -((2 : Int) ^ 11 + n.log2)
    omega
  have hproduct : n <<< 53 * 10 ^ 0 = n * 2 ^ 53 := by
    rw [Nat.shiftLeft_eq, Nat.pow_zero, Nat.mul_one]
  rw [← hproduct]
  unfold UnpackedFloat.ofScientific
  rw [dif_neg hzero, if_neg (by decide), if_neg hsmall, if_pos (Int.le_refl 0)]
  rfl

theorem unpack_signed {d : Float} {u : UnpackedFloat} (neg : Bool) (hd : d.toModel.unpack = u)
    (hneg : (Float.Model.pack u.neg).unpack = u.neg) :
    (signed neg d).toModel.unpack = if neg then u.neg else u := by
  subst hd
  cases neg with
  | false => rfl
  | true => exact hneg

theorem value?_infinity (neg : Bool) : value? (signed neg infinity) = none := by
  unfold value?
  rw [unpack_signed (u := .infinity .positive) neg rfl rfl]
  cases neg <;> rfl

theorem mul_pow_lt_iff {m e : Nat} (hlow : 2 ^ 52 ≤ m) (hhigh : m < 2 ^ 53) :
    m * 2 ^ e < 2 ^ 1024 ↔ e < 972 := by
  constructor
  · intro h
    by_contra hbeyond
    have hpow : 2 ^ 972 ≤ 2 ^ e := pow_le_pow_right₀ one_le_two (Nat.not_lt.mp hbeyond)
    refine absurd h (Nat.not_lt.mpr ?_)
    calc 2 ^ 1024
        = 2 ^ 52 * 2 ^ 972 := by rw [← Nat.pow_add]
      _ ≤ m * 2 ^ e := Nat.mul_le_mul hlow hpow
  · intro h
    have he : e ≤ 971 := by omega
    have hpow : 2 ^ e ≤ 2 ^ 971 := pow_le_pow_right₀ one_le_two he
    have htop : 2 ^ 1024 = 2 ^ 53 * 2 ^ 971 := by rw [← Nat.pow_add]
    calc m * 2 ^ e
        < 2 ^ 53 * 2 ^ e := (Nat.mul_lt_mul_right (Nat.two_pow_pos e)).mpr hhigh
      _ ≤ 2 ^ 53 * 2 ^ 971 := Nat.mul_le_mul_left _ hpow
      _ = 2 ^ 1024 := htop.symm

/-- A whole number of more than fifty-three bits is rounded to that many, and is infinite where
that is beyond every double. -/
theorem value?_ofNat {n : Nat} (neg : Bool) (h : 2 ^ 53 ≤ n) :
    value? (signed neg (Float.ofNat n)) =
      if n < overflow then some ((if neg then -(rounded n : Int) else rounded n : Int) : ℚ)
      else none := by
  have hslow : ¬(n < 2 ^ 53 ∧ 0 ≤ 22) := fun hfast => absurd hfast.1 (Nat.not_lt.mpr h)
  have hofNat : (Float.ofNat n).toModel =
      Float.Model.pack (UnpackedFloat.ofScientific Format.binary64 n 0) := by
    show (Float.ofScientific n false 0).toModel = _
    unfold Float.ofScientific
    rw [dif_neg hslow]
    rfl
  obtain ⟨m, e, hm, hlow, hhigh, -, hvalue, hround⟩ := roundWithAccuracy_exact .positive h
  rw [ofScientific_large h, hround] at hofNat
  have hcapped : n < overflow ↔ e < 972 := by
    rw [← Nat.not_le, ← overflow_le_iff h, ← hvalue, Nat.not_le, mul_pow_lt_iff hlow hhigh]
  split
  case isTrue hn =>
    have he : e < 972 := hcapped.mp hn
    have hpack (s : Sign) : (Float.Model.pack (.finite s m e hm)).unpack = .finite s m e hm :=
      unpack_pack_normal hlow hhigh (by omega) (by omega)
    have hunpack : (Float.ofNat n).toModel.unpack = .finite .positive m e hm := by
      rw [hofNat]
      exact hpack .positive
    unfold value?
    rw [unpack_signed neg hunpack (hpack .negative), ← hvalue]
    cases neg with
    | false =>
      show some (((m : Int) : ℚ) * 2 ^ (e : Int)) = some (((m * 2 ^ e : Nat) : Int) : ℚ)
      rw [zpow_natCast]
      push_cast
      rfl
    | true =>
      show some (((-m : Int) : ℚ) * 2 ^ (e : Int)) = some ((-((m * 2 ^ e : Nat) : Int) : Int) : ℚ)
      rw [zpow_natCast]
      push_cast
      rw [neg_mul]
  case isFalse hn =>
    have he : 972 ≤ (e : Int) := by omega
    have hunpack : (Float.ofNat n).toModel.unpack = .infinity .positive := by
      rw [hofNat, pack_beyond he]
      rfl
    unfold value?
    rw [unpack_signed neg hunpack rfl]
    cases neg <;> rfl

theorem isFinite_ofNat {n : Nat} (h : 2 ^ 53 ≤ n) (h' : n < 2 ^ 64) :
    (Float.ofNat n).isFinite = true := by
  have hn : n < overflow := Nat.lt_of_lt_of_le h' pow_64_le_overflow
  rw [isFinite_eq]
  show (value? (signed false (Float.ofNat n))).isSome = true
  rw [value?_ofNat false h, if_pos hn]
  rfl

theorem value?_nearest {n : Nat} (neg : Bool) (h : 2 ^ 53 ≤ n) :
    value? (signed neg (nearest n 0)) =
      if n < overflow then some ((if neg then -(rounded n : Int) else rounded n : Int) : ℚ)
      else none := by
  have hzero : n ≠ 0 := by
    rintro rfl
    exact absurd h (by decide)
  have hlong : 400 < ((Nat.toDigits 10 n).length : Int) + 0 ↔ 10 ^ 400 ≤ n := by
    rw [← Nat.not_lt, ← Nat.length_toDigits_le_iff (by decide) (by decide)]
    omega
  have hshort : ¬((Nat.toDigits 10 n).length : Int) + 0 < -400 := by omega
  unfold nearest
  rw [if_neg (mt beq_iff_eq.mp hzero)]
  dsimp only
  by_cases hdigits : 10 ^ 400 ≤ n
  · have hover : overflow ≤ n := by
      calc overflow
          ≤ 2 ^ 1024 := Nat.sub_le _ _
        _ ≤ 2 ^ (3 * 400) := pow_le_pow_right₀ one_le_two (by decide)
        _ = (2 ^ 3) ^ 400 := by rw [← Nat.pow_mul]
        _ ≤ 10 ^ 400 := pow_left_mono 400 (by decide)
        _ ≤ n := hdigits
    rw [if_pos (hlong.mpr hdigits), value?_infinity, if_neg (Nat.not_lt.mpr hover)]
  · rw [if_neg (mt hlong.mp hdigits), if_neg hshort]
    exact value?_ofNat neg h

theorem rounded_large {n : Nat} (h : 2 ^ 63 ≤ n) : 2 ^ 63 ≤ rounded n := by
  obtain ⟨hlog, -, hlow, -⟩ := excess_bounds (Nat.le_trans (by decide) h)
  have hpos : n ≠ 0 := by
    rintro rfl
    exact absurd h (by decide)
  have hbits : 63 ≤ n.log2 := (Nat.le_log2 hpos).mpr h
  calc 2 ^ 63
      = 2 ^ 52 * 2 ^ 11 := by decide
    _ ≤ halfEven n (excess n) * 2 ^ excess n :=
      Nat.mul_le_mul (Nat.le_trans hlow (halfEven_bounds _).1)
        (Nat.pow_le_pow_right (by decide) (by omega))

end Polystore.Double
