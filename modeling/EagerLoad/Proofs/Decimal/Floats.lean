import EagerLoad.Proofs.Decimal.Widening
import Mathlib

/-!
# Floating-point numbers by their bits

A floating-point number is finite if its stored exponent is not the greatest one, and bits of which this
holds are those of a number. Rounding moves the exponent by no more than the width of what is rounded, so
the number nearest to a 64-bit integer is finite.

That packing undoes unpacking is a lemma which only an import of the whole library brings into scope.
-/

namespace EagerLoad.Decimal

open Float.Model UnpackedFloat

/-- The format with the widths of a format of the floating-point model. -/
def BinaryFormat.ofModel (format : Format) : BinaryFormat :=
  ⟨format.mantissaBitsWithoutImplicit, format.exponentBits⟩

section Stored

variable {format : Format} {b : BitVec format.numBits}

theorem unpackExponent_eq_greatest : unpackExponent b = -BitVec.ofNat format.exponentBits 1 ↔
    (BinaryFormat.ofModel format).storedExponent b.toNat = 2 ^ format.exponentBits - 1 := by
  rw [unpackExponent_def, ← BitVec.toNat_inj, BitVec.extractLsb'_toNat, BitVec.neg_one_eq_allOnes,
    BitVec.toNat_allOnes, BinaryFormat.storedExponent, Nat.one_shiftLeft]
  rfl

/-- What is unpacked is finite unless the stored exponent is the greatest. -/
theorem isFinite_unpack : (UnpackedFloat.unpack format b).isFinite = true ↔
    (BinaryFormat.ofModel format).storedExponent b.toNat ≠ 2 ^ format.exponentBits - 1 := by
  rw [ne_eq, ← unpackExponent_eq_greatest]
  unfold UnpackedFloat.unpack
  dsimp only
  split_ifs with hgreatest _ _ <;> simp [UnpackedFloat.isFinite, hgreatest]

theorem not_isNaNBits
    (h : (BinaryFormat.ofModel format).storedExponent b.toNat ≠ 2 ^ format.exponentBits - 1) :
    ¬(isNaNBits b = true) := by
  rw [isNaNBits, decide_eq_true_eq]
  exact fun hnan => h (unpackExponent_eq_greatest.mp hnan.1)

end Stored

theorem isFinite_iff (x : Float) :
    x.isFinite = true ↔ binary64.storedExponent x.toBits.toNat ≠ 2047 :=
  @isFinite_unpack .binary64 x.toBits.toBitVec

theorem isFinite32_iff (x : Float32) :
    x.isFinite = true ↔ binary32.storedExponent x.toBits.toNat ≠ 255 :=
  @isFinite_unpack .binary32 x.toBits.toBitVec

theorem toBits_ofBits {b : UInt64} (h : binary64.storedExponent b.toNat ≠ 2047) :
    (Float.ofBits b).toBits = b :=
  UInt64.toBitVec_inj.mp <|
    (@pack_unpack .binary64 b.toBitVec (by decide)).trans (if_neg (@not_isNaNBits .binary64 b.toBitVec h))

theorem isFinite_ofBits (b : UInt64) :
    (Float.ofBits b).isFinite = true ↔ binary64.storedExponent b.toNat ≠ 2047 := by
  have hbits : (Float.ofBits b).toBits.toBitVec =
      if @isNaNBits .binary64 b.toBitVec then packedNaN .binary64 else b.toBitVec :=
    @pack_unpack .binary64 b.toBitVec (by decide)
  by_cases hnan : @isNaNBits .binary64 b.toBitVec = true
  · rw [if_pos hnan] at hbits
    rw [isFinite_iff, ← UInt64.toNat_toBitVec, hbits]
    exact iff_of_false (by decide) fun h => @not_isNaNBits .binary64 b.toBitVec h hnan
  · rw [if_neg hnan, UInt64.toBitVec_inj] at hbits
    rw [isFinite_iff, hbits]

/-!
## Rounding integers
-/

theorem mantissa_shiftRight_le (em : ExtendedMantissa) (n : Nat) : (em >>> n).mantissa ≤ em.mantissa := by
  induction n with
  | zero => exact le_rfl
  | succ n ih => exact (Nat.div_le_self _ 2).trans ih

theorem roundedMantissa_le (em : ExtendedMantissa) : em.roundedMantissa ≤ em.mantissa + 1 := by
  rw [ExtendedMantissa.roundedMantissa]
  rcases em.accuracy with _ | _ | _ | _ <;> simp [Accuracy.roundToNearestEven]
  omega

theorem mantissa_ofMantissaAndAccuracy (m : Nat) (a : Accuracy) :
    (ExtendedMantissa.ofMantissaAndAccuracy m a).mantissa = m := by
  rcases a with _ | _ | _ | _ <;> rfl

theorem mantissa_shiftToTargetExponent_le (format : Format) (m : Nat) (e : Int) (a : Accuracy) :
    (shiftToTargetExponent format m e a).1.mantissa ≤ m :=
  (mantissa_shiftRight_le _ _).trans (mantissa_ofMantissaAndAccuracy m a).le

/-- A shift to the target exponent raises the exponent by no more than the width of the mantissa. -/
theorem exponent_shiftToTargetExponent {m width : Nat} (hwidth : 53 ≤ width) (hm : m < 2 ^ width) {e : Int}
    (he : -1074 ≤ e) (a : Accuracy) :
    e ≤ (shiftToTargetExponent .binary64 m e a).2 ∧
      (shiftToTargetExponent .binary64 m e a).2 + 53 ≤ e + width := by
  have hlog : m.log2 < width := by
    rcases Nat.eq_zero_or_pos m with rfl | hpos
    · rw [Nat.log2_zero]
      omega
    · exact (Nat.log2_lt hpos.ne').mpr hm
  have hmin : Format.binary64.minExponent = -1074 := by decide
  have hbits : Format.binary64.mantissaBits = 53 := by decide
  simp only [shiftToTargetExponent, shiftToExponent, Format.targetExponent, totalExponent, hmin, hbits]
  omega

/-- What is packed is finite if its exponent is below the greatest one. -/
theorem unpackExponent_pack {s : Sign} {m : Nat} {e : Int} {hpos : 0 < m} (he : e < 900) :
    unpackExponent (UnpackedFloat.pack .binary64 (.finite s m e hpos)) ≠ -1#11 := by
  have hbiased : (e + Format.binary64.exponentBias + (52 : Nat)).toNat < 2047 := by
    have hbias : Format.binary64.exponentBias = 1023 := by decide
    rw [hbias]
    omega
  unfold UnpackedFloat.pack
  dsimp only
  generalize (e + Format.binary64.exponentBias + (52 : Nat)).toNat = biased at hbiased
  rw [if_neg (by change ¬2048 ≤ _; omega)]
  split
  · rw [unpackExponent_packComponents, ne_eq, ← BitVec.toNat_inj, BitVec.toNat_ofNat]
    change ¬_ = 2047
    omega
  · rw [unpackExponent_packComponents]
    decide

/-- What a mantissa is rounded to is finite when its exponent and width are small: neither shift raises
the exponent by more than the width. -/
theorem unpackExponent_pack_roundWithAccuracy (s : Sign) {m width : Nat} (hwidth : 53 ≤ width)
    (hm : m < 2 ^ width) {e : Int} (he : -1074 ≤ e) (hsmall : e + 2 * width < 900) (a : Accuracy) :
    unpackExponent (UnpackedFloat.pack .binary64 (roundWithAccuracy .binary64 s m e a)) ≠ -1#11 := by
  have hshifted := mantissa_shiftToTargetExponent_le .binary64 m e a
  obtain ⟨hleast, hmost⟩ := exponent_shiftToTargetExponent hwidth hm he a
  unfold roundWithAccuracy
  generalize shiftToTargetExponent .binary64 m e a = shifted at hshifted hleast hmost
  have hrounded : shifted.1.roundedMantissa < 2 ^ (width + 1) := by
    have := roundedMantissa_le shifted.1
    rw [Nat.pow_succ]
    omega
  have hfinal :=
    (exponent_shiftToTargetExponent (hwidth.trans (Nat.le_succ _)) hrounded (he.trans hleast) .exact).2
  dsimp only
  split
  · rw [UnpackedFloat.pack, packedZero, unpackExponent_packComponents]
    decide
  · exact unpackExponent_pack (by omega)

/-- An integer of 64 bits that does not fit the mantissa is rounded to a finite number. -/
theorem isFinite_ofNat {n : Nat} (hlow : 2 ^ 53 ≤ n) (hhigh : n < 2 ^ 64) :
    (Float.ofNat n).isFinite = true := by
  have hofNat : Float.ofNat n = .ofModel (Float.Model.ofScientific n 0) :=
    dif_neg (show ¬(n < 2 ^ 53 ∧ 0 ≤ 22) by omega)
  have hrounded : UnpackedFloat.ofScientific .binary64 n 0 =
      roundWithAccuracy .binary64 .positive (n <<< 53 * 10 ^ 0) (-53 + 0) .exact := by
    unfold UnpackedFloat.ofScientific
    have hsmall : ¬0 < -(2 ^ Format.binary64.exponentBits + (n.log2 : Int)) := by
      change ¬0 < -((2048 : Int) + n.log2)
      omega
    rw [dif_neg (by omega), if_neg (by decide), if_neg hsmall, if_pos (by decide)]
    rfl
  have hm : n <<< 53 * 10 ^ 0 < 2 ^ 117 := by
    rw [Nat.shiftLeft_eq]
    omega
  rw [hofNat]
  refine (@isFinite_unpack .binary64 _).mpr ?_
  rw [ne_eq, ← unpackExponent_eq_greatest]
  change unpackExponent (UnpackedFloat.pack .binary64 (UnpackedFloat.ofScientific .binary64 n 0)) ≠ -1#11
  rw [hrounded]
  exact unpackExponent_pack_roundWithAccuracy .positive (by decide) hm (by decide) (by decide) .exact

end EagerLoad.Decimal
