import Mathlib
import Polystore.Number.Double

/-! # Doubles and the numbers they stand for -/

namespace Polystore.Double
set_option autoImplicit false
open Float.Model Float.Model.UnpackedFloat

/-- The number that a finite double stands for. -/
def ofUnpacked? : UnpackedFloat → Option ℚ
  | .finite s m e _ => some (s.apply m * 2 ^ e)
  | .zero _ => some 0
  | _ => none

def value? (d : Float) : Option ℚ := ofUnpacked? d.toModel.unpack

/-- The mantissa of a normal double has a bit in front of its fraction that is not stored. -/
theorem toNat_withImplicit (f : BitVec Format.binary64.mantissaBitsWithoutImplicit) :
    (1#1 ++ f).toNat = fractions + f.toNat := by
  rw [BitVec.toNat_append]
  exact (Nat.shiftLeft_add_eq_or_of_lt f.isLt 1).symm

section
variable (d : Float)

theorem isFinite_eq : d.isFinite = (value? d).isSome := by
  show d.toModel.unpack.isFinite = (ofUnpacked? d.toModel.unpack).isSome
  cases d.toModel.unpack <;> rfl

theorem toNat_exponent : (@unpackExponent Format.binary64 d.toBits.toBitVec).toNat =
    d.toBits.toNat / fractions % exponents := by
  simp only [unpackExponent, BitVec.toNat_cast, BitVec.extractLsb_toNat, Nat.shiftRight_eq_div_pow]
  rfl

theorem toNat_fraction : (@unpackMantissa Format.binary64 d.toBits.toBitVec).toNat =
    d.toBits.toNat % fractions := by
  simp only [unpackMantissa, BitVec.toNat_cast, BitVec.extractLsb_toNat, Nat.shiftRight_eq_div_pow,
    Nat.pow_zero, Nat.div_one]
  rfl

theorem toNat_normal : (1#1 ++ @unpackMantissa Format.binary64 d.toBits.toBitVec).toNat =
    fractions + d.toBits.toNat % fractions := by
  rw [toNat_withImplicit, toNat_fraction]

theorem sign_unpacked : Sign.ofBitVec (@unpackSign Format.binary64 d.toBits.toBitVec) =
    if isNegative d then .negative else .positive := by
  have hbits : d.toBits.toNat < 2 ^ 64 := d.toBits.toNat_lt
  have hsign : (@unpackSign Format.binary64 d.toBits.toBitVec).toNat =
      d.toBits.toNat / 2 ^ 63 := by
    simp only [unpackSign, BitVec.toNat_cast, BitVec.extractLsb_toNat, Nat.shiftRight_eq_div_pow]
    show d.toBits.toNat / 2 ^ 63 % 2 = _
    omega
  have hzero : @unpackSign Format.binary64 d.toBits.toBitVec = 0#1 ↔
      d.toBits.toNat / 2 ^ 63 = 0 := by
    rw [← hsign]
    exact ⟨fun h => by rw [h]; rfl, fun h => BitVec.eq_of_toNat_eq h⟩
  have hneg : isNegative d = true ↔ d.toBits.toNat / 2 ^ 63 = 1 := beq_iff_eq
  unfold Sign.ofBitVec
  by_cases h : d.toBits.toNat / 2 ^ 63 = 1
  · rw [if_neg (by rw [hzero]; omega), if_pos (hneg.mpr h)]
  · rw [if_pos (by rw [hzero]; omega), if_neg (by rw [hneg]; exact h)]

/-! ## The number of a double -/

namespace Parts

def signed (p : Parts) (n : Nat) : Int := if p.neg then -n else n

theorem signed_mul (p : Parts) (m n : Nat) : p.signed (m * n) = p.signed m * n := by
  unfold signed
  split
  · rw [Nat.cast_mul, Int.neg_mul]
  · exact Nat.cast_mul m n

theorem dvd_signed (p : Parts) {n : Int} {m : Nat} : n ∣ p.signed m ↔ n ∣ m := by
  unfold signed
  split
  · exact dvd_neg
  · exact Iff.rfl

def value (p : Parts) : ℚ := p.signed p.mant * 2 ^ p.exp

end Parts

theorem value?_eq_parts : value? d = (parts? d).map Parts.value := by
  have hones : @unpackExponent Format.binary64 d.toBits.toBitVec = -1#11 ↔
      d.toBits.toNat / fractions % exponents = 2047 := by
    rw [← toNat_exponent, ← BitVec.toNat_inj]
    rfl
  have hzeros : @unpackExponent Format.binary64 d.toBits.toBitVec = 0#11 ↔
      d.toBits.toNat / fractions % exponents = 0 := by
    rw [← toNat_exponent, ← BitVec.toNat_inj]
    rfl
  have hfraction : @unpackMantissa Format.binary64 d.toBits.toBitVec = 0#52 ↔
      d.toBits.toNat % fractions = 0 := by
    rw [← toNat_fraction, ← BitVec.toNat_inj]
    rfl
  have hsign (n : Nat) : (if isNegative d then Sign.negative else .positive).apply n =
      if isNegative d then -(n : Int) else n := by
    cases isNegative d <;> rfl
  show ofUnpacked? (UnpackedFloat.unpack Format.binary64 d.toBits.toBitVec) = _
  unfold UnpackedFloat.unpack parts?
  dsimp only
  rw [sign_unpacked]
  by_cases hinfinite : d.toBits.toNat / fractions % exponents = 2047
  · rw [if_pos (hones.mpr hinfinite), if_pos (beq_iff_eq.mpr hinfinite)]
    split <;> rfl
  rw [if_neg (mt hones.mp hinfinite), if_neg (mt beq_iff_eq.mp hinfinite)]
  by_cases hsubnormal : d.toBits.toNat / fractions % exponents = 0
  · rw [if_pos (hzeros.mpr hsubnormal), if_pos (beq_iff_eq.mpr hsubnormal)]
    by_cases hzero : d.toBits.toNat % fractions = 0
    · rw [dif_pos (hfraction.mpr hzero)]
      simp [ofUnpacked?, Parts.value, Parts.signed, hzero]
    · rw [dif_neg (mt hfraction.mp hzero), ofUnpacked?, hsign, toNat_exponent, toNat_fraction,
        hsubnormal]
      rfl
  · rw [if_neg (mt hzeros.mp hsubnormal), if_neg (mt beq_iff_eq.mp hsubnormal)]
    rw [ofUnpacked?, hsign, toNat_exponent, toNat_normal]
    rfl

theorem integral?_eq_some {n : Int} : integral? d = some n ↔ value? d = some (n : ℚ) := by
  rw [value?_eq_parts]
  unfold integral?
  cases hp : parts? d with
  | none => exact iff_of_false nofun nofun
  | some p =>
    show (if 0 ≤ p.exp then some (p.signed (p.mant * 2 ^ p.exp.toNat))
      else if p.mant % 2 ^ (-p.exp).toNat == 0 then some (p.signed (p.mant / 2 ^ (-p.exp).toNat))
      else none) = some n ↔ some p.value = some (n : ℚ)
    rw [Option.some_inj]
    unfold Parts.value
    split
    case isTrue h =>
      obtain ⟨k, hk⟩ := Int.eq_ofNat_of_zero_le h
      rw [hk, Option.some_inj, zpow_natCast, Int.toNat_natCast, Parts.signed_mul]
      norm_cast
    case isFalse h =>
      obtain ⟨k, hk⟩ : ∃ k : Nat, p.exp = -(k : Int) := ⟨(-p.exp).toNat, by omega⟩
      rw [hk, zpow_neg, zpow_natCast, ← div_eq_mul_inv, div_eq_iff (by positivity), Int.neg_neg,
        Int.toNat_natCast]
      have hpow : (2 : Int) ^ k ≠ 0 := by positivity
      norm_cast
      split
      case isTrue hdvd =>
        obtain ⟨q, hq⟩ := Nat.dvd_of_mod_eq_zero (beq_iff_eq.mp hdvd)
        rw [hq, Nat.mul_div_cancel_left q (by positivity), Nat.mul_comm, Parts.signed_mul,
          Option.some_inj, Nat.cast_pow, Nat.cast_ofNat, mul_left_inj' hpow]
      case isFalse hdvd =>
        refine iff_of_false nofun fun heq => hdvd (beq_iff_eq.mpr (Nat.mod_eq_zero_of_dvd ?_))
        rw [← Int.natCast_dvd_natCast, ← p.dvd_signed, heq, Nat.cast_pow]
        exact dvd_mul_left _ _

theorem integral?_eq_none {d : Float} (h : value? d = none) : integral? d = none := by
  refine Option.eq_none_iff_forall_ne_some.mpr fun n hn => ?_
  rw [(integral?_eq_some d).mp hn] at h
  cases h

end

/-! ## Packed doubles -/

theorem unpackSign_packComponents {spec : Format} (s : Sign) (exponent : BitVec spec.exponentBits)
    (mantissa : BitVec spec.mantissaBitsWithoutImplicit) :
    unpackSign (packComponents spec s exponent mantissa) = s.toBitVec := by
  ext i hi
  obtain rfl : i = 0 := by omega
  simp [unpackSign, packComponents, BitVec.getLsbD_append, BitVec.getLsbD_eq_getElem,
    BitVec.getElem_append]

theorem ofBitVec_toBitVec (s : Sign) : Sign.ofBitVec s.toBitVec = s := by
  cases s <;> rfl

section
variable {s : Sign} {m : Nat} {e : Int} {hm : 0 < m}

/-- An exponent beyond the greatest one leaves nothing of the mantissa. -/
theorem pack_beyond (he : 972 ≤ e) :
    Float.Model.pack (.finite s m e hm) = Float.Model.pack (.infinity s) := by
  have hbiased : 2 ^ Format.binary64.exponentBits ≤
      (e + Format.binary64.exponentBias + Format.binary64.mantissaBitsWithoutImplicit).toNat + 1 := by
    show 2048 ≤ (e + 1023 + 52).toNat + 1
    omega
  have hpack : UnpackedFloat.pack Format.binary64 (.finite s m e hm) =
      UnpackedFloat.pack Format.binary64 (.infinity s) := by
    unfold UnpackedFloat.pack
    exact if_pos hbiased
  unfold Float.Model.pack
  simp only [hpack]

theorem unpack_normal {b : BitVec 64} (hones : @unpackExponent Format.binary64 b ≠ -1#11)
    (hzeros : @unpackExponent Format.binary64 b ≠ 0#11) :
    UnpackedFloat.unpack Format.binary64 b =
      .finite (Sign.ofBitVec (@unpackSign Format.binary64 b))
        (1#1 ++ @unpackMantissa Format.binary64 b).toNat
        ((@unpackExponent Format.binary64 b).toNat - (Format.binary64.exponentBias + 52))
        (by rw [toNat_withImplicit]; exact Nat.add_pos_left (by decide) _) := by
  unfold UnpackedFloat.unpack
  dsimp only
  rw [if_neg hones, if_neg hzeros]
  rfl

/-- A mantissa of fifty-three bits with an exponent in range is kept as it is. -/
theorem unpack_pack_normal (hlow : 2 ^ 52 ≤ m) (hhigh : m < 2 ^ 53) (he : -1074 ≤ e) (he' : e ≤ 971) :
    (Float.Model.pack (.finite s m e hm)).unpack = .finite s m e hm := by
  have hbits : m.log2 + 1 = Format.binary64.mantissaBits := by
    have : m.log2 = 52 := (Nat.log2_eq_iff (by omega)).mpr ⟨hlow, hhigh⟩
    rw [this]
    rfl
  obtain ⟨b, hb⟩ : ∃ b : Nat, (b : Int) = e + 1075 := ⟨(e + 1075).toNat, by omega⟩
  have hbiased : (e + Format.binary64.exponentBias + Format.binary64.mantissaBitsWithoutImplicit).toNat =
      b := by
    show (e + 1023 + 52).toNat = b
    omega
  have hpack : UnpackedFloat.pack Format.binary64 (.finite s m e hm) =
      packComponents Format.binary64 s (BitVec.ofNat 11 b) (BitVec.ofNat 52 m) := by
    unfold UnpackedFloat.pack
    simp only [hbiased]
    rw [if_neg (show ¬2048 ≤ b + 1 by omega), if_pos hbits]
  have hexponent : (BitVec.ofNat 11 b).toNat = b := Nat.mod_eq_of_lt (show b < 2048 by omega)
  have hones : BitVec.ofNat 11 b ≠ -1#11 := by
    rw [Ne, ← BitVec.toNat_inj, hexponent]
    exact show b ≠ 2047 by omega
  have hzeros : BitVec.ofNat 11 b ≠ 0#11 := by
    rw [Ne, ← BitVec.toNat_inj, hexponent]
    exact show b ≠ 0 by omega
  have hmantissa : (1#1 ++ BitVec.ofNat Format.binary64.mantissaBitsWithoutImplicit m).toNat = m := by
    rw [toNat_withImplicit]
    show 2 ^ 52 + m % 2 ^ 52 = m
    omega
  have hbias : (b : Int) - (Format.binary64.exponentBias + 52) = e := by
    show (b : Int) - (1023 + 52) = e
    omega
  show UnpackedFloat.unpack Format.binary64 (UnpackedFloat.pack Format.binary64 (.finite s m e hm)) = _
  rw [hpack, unpack_normal (by rwa [unpackExponent_packComponents])
    (by rwa [unpackExponent_packComponents]), UnpackedFloat.finite.injEq]
  refine ⟨?_, ?_, ?_⟩
  · rw [unpackSign_packComponents, ofBitVec_toBitVec]
  · rw [unpackMantissa_packComponents, hmantissa]
  · rw [unpackExponent_packComponents, hexponent, hbias]

end

end Polystore.Double
