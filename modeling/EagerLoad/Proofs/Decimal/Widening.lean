import EagerLoad.Proofs.Decimal.Rounding

/-!
# Widening keeps the number

A 32-bit number and its widened form stand for the same rational, so different numbers stay different. What
is no number in the narrow format is none in the wide one.
-/

namespace EagerLoad.Decimal

variable {stored fraction bits bits' : Nat}

/-- The rational that a magnitude stands for. -/
def Binary.number (b : Binary) : ℚ :=
  b.significand * 2 ^ b.exponent

/-- A magnitude rounds to itself. -/
theorem Binary.rounds_number (b : Binary) : b.Rounds b.number := by
  have hquarter : (0 : ℚ) < 2 ^ (b.exponent - 2) := by positivity
  have hnumber : b.number = 4 * b.significand * 2 ^ (b.exponent - 2) := by
    rw [number, zpow_sub₀ (by norm_num)]
    norm_num
    ring
  have hlow : b.low < b.number := by
    rw [low, hnumber]
    refine mul_lt_mul_of_pos_right ?_ hquarter
    split <;> linarith
  have hhigh : b.number < b.high := by
    rw [high, hnumber]
    exact mul_lt_mul_of_pos_right (by linarith) hquarter
  unfold Rounds
  split
  · exact ⟨hlow.le, hhigh.le⟩
  · exact ⟨hlow, hhigh⟩

/-- The widened fields fit into their places, and mark what is no number exactly if the fields did. -/
theorem widenedFields_fit (hstored : stored < 2 ^ 8) (hfraction : fraction < 2 ^ 23) :
    (widenedFields stored fraction).1 < 2 ^ 11 ∧ (widenedFields stored fraction).2 < 2 ^ 52 ∧
      ((widenedFields stored fraction).1 = 2047 ↔ stored = 255) := by
  unfold widenedFields
  split
  · rename_i hmark
    refine ⟨by norm_num, ?_, iff_of_true rfl hmark⟩
    rw [Nat.shiftLeft_eq]
    omega
  split
  · simp only [Nat.shiftLeft_eq]
    omega
  split
  · omega
  · rename_i hpos
    have hlog : fraction.log2 < 23 := (Nat.log2_lt hpos).mpr hfraction
    have hbelow : fraction - 2 ^ fraction.log2 < 2 ^ fraction.log2 := by
      have hlt := Nat.lt_log2_self (n := fraction)
      rw [Nat.pow_succ] at hlt
      omega
    have hshifted : (fraction - 2 ^ fraction.log2) * 2 ^ (52 - fraction.log2) < 2 ^ 52 := by
      have hlt := Nat.mul_lt_mul_of_pos_right hbelow (Nat.two_pow_pos (52 - fraction.log2))
      rwa [← Nat.pow_add, Nat.add_sub_cancel' (by omega)] at hlt
    simp only [Nat.shiftLeft_eq, Nat.one_mul]
    omega

theorem number_binary64 (stored fraction : Nat) : (binary64.assembled stored fraction).number =
    ((if stored = 0 then 0 else 2 ^ 52) + fraction : Nat) * (2 : ℚ) ^ (max (stored : Int) 1 - 1075) := by
  rw [Binary.number, BinaryFormat.significand_assembled, BinaryFormat.exponent_assembled]
  rfl

theorem number_binary32 (stored fraction : Nat) : (binary32.assembled stored fraction).number =
    ((if stored = 0 then 0 else 2 ^ 23) + fraction : Nat) * (2 : ℚ) ^ (max (stored : Int) 1 - 150) := by
  rw [Binary.number, BinaryFormat.significand_assembled, BinaryFormat.exponent_assembled]
  rfl

/-- The widened fields stand for the same number. -/
theorem number_widenedFields (hmark : stored ≠ 255) (hfraction : fraction < 2 ^ 23) :
    (binary64.assembled (widenedFields stored fraction).1 (widenedFields stored fraction).2).number =
      (binary32.assembled stored fraction).number := by
  rw [number_binary64, number_binary32]
  unfold widenedFields
  rw [if_neg hmark]
  split
  · rename_i hnormal
    have hexponent : max (stored : Int) 1 - 150 = 29 + (max ((stored + 896 : Nat) : Int) 1 - 1075) := by
      omega
    simp only [Nat.add_eq_zero_iff, hnormal, false_and, if_false, Nat.shiftLeft_eq]
    rw [hexponent, zpow_add₀ (by norm_num)]
    push_cast
    ring
  · rename_i hzero
    rw [not_not] at hzero
    subst hzero
    split
    · rename_i hnone
      simp [hnone]
    · -- The leading digit of the fraction becomes the implicit one.
      rename_i hpos
      have hlog : fraction.log2 < 23 := (Nat.log2_lt hpos).mpr hfraction
      have hsplit : 2 ^ 52 + (fraction - 2 ^ fraction.log2) * 2 ^ (52 - fraction.log2) =
          fraction * 2 ^ (52 - fraction.log2) := by
        have hle := Nat.log2_self_le hpos
        have htop : 2 ^ 52 = 2 ^ fraction.log2 * 2 ^ (52 - fraction.log2) := by
          rw [← Nat.pow_add, Nat.add_sub_cancel' (by omega)]
        rw [htop, ← Nat.add_mul, Nat.add_sub_cancel' hle]
      have hexponent : ((52 - fraction.log2 : Nat) : Int) + (max ((fraction.log2 + 874 : Nat) : Int) 1 - 1075) =
          max ((0 : Nat) : Int) 1 - 150 := by omega
      simp only [Nat.add_eq_zero_iff, OfNat.ofNat_ne_zero, and_false, if_false, if_true, Nat.shiftLeft_eq,
        Nat.one_mul, hsplit]
      rw [← hexponent, zpow_add₀ (by norm_num), zpow_natCast]
      push_cast
      ring

/-- What the places of a widened number hold. -/
theorem fields_widened (bits : Nat) :
    binary64.storedExponent (widened bits) =
        (widenedFields (binary32.storedExponent bits) (binary32.storedFraction bits)).1 ∧
      binary64.storedFraction (widened bits) =
        (widenedFields (binary32.storedExponent bits) (binary32.storedFraction bits)).2 ∧
      binary64.isNegative (widened bits) = binary32.isNegative bits ∧ widened bits < 2 ^ 64 := by
  have hstored : binary32.storedExponent bits < 2 ^ 8 := Nat.mod_lt _ (by decide)
  have hfraction : binary32.storedFraction bits < 2 ^ 23 := Nat.mod_lt _ (by decide)
  obtain ⟨hfit, hfit', -⟩ := widenedFields_fit hstored hfraction
  unfold widened
  generalize widenedFields (binary32.storedExponent bits) (binary32.storedFraction bits) = fields at *
  generalize binary32.isNegative bits = negative
  obtain ⟨stored, fraction⟩ := fields
  simp only [BinaryFormat.storedExponent, BinaryFormat.storedFraction, BinaryFormat.isNegative, binary64,
    Nat.shiftLeft_eq, Nat.shiftRight_eq_div_pow] at hfit hfit' ⊢
  cases negative <;> simp <;> omega

/-- A widened number is none exactly if the narrow one was. -/
theorem storedExponent_widened_eq (bits : Nat) :
    binary64.storedExponent (widened bits) = 2047 ↔ binary32.storedExponent bits = 255 := by
  have hstored : binary32.storedExponent bits < 2 ^ 8 := Nat.mod_lt _ (by decide)
  have hfraction : binary32.storedFraction bits < 2 ^ 23 := Nat.mod_lt _ (by decide)
  rw [(fields_widened bits).1]
  exact (widenedFields_fit hstored hfraction).2.2

/-- Different numbers stay different. -/
theorem widened_inj (hbits : bits < 2 ^ 32) (hbits' : bits' < 2 ^ 32)
    (hmark : binary32.storedExponent bits ≠ 255) (hmark' : binary32.storedExponent bits' ≠ 255)
    (h : widened bits = widened bits') : bits = bits' := by
  have hfraction (bits : Nat) : binary32.storedFraction bits < 2 ^ 23 := Nat.mod_lt _ (by decide)
  obtain ⟨hexponent, hplaces, hsign, -⟩ := fields_widened bits
  obtain ⟨hexponent', hplaces', hsign', -⟩ := fields_widened bits'
  have hnumber : (binary32.assembled (binary32.storedExponent bits) (binary32.storedFraction bits)).number =
      (binary32.assembled (binary32.storedExponent bits') (binary32.storedFraction bits')).number := by
    rw [← number_widenedFields hmark (hfraction bits), ← number_widenedFields hmark' (hfraction bits'),
      ← hexponent, ← hplaces, ← hexponent', ← hplaces', h]
  have hrounds := Binary.rounds_number
    (binary32.assembled (binary32.storedExponent bits') (binary32.storedFraction bits'))
  rw [← hnumber] at hrounds
  obtain ⟨hstored, hfractions⟩ := BinaryFormat.assembled_inj (show 0 < binary32.fractionBits by decide)
    (hfraction bits) (hfraction bits') (Binary.rounds_number _) hrounds
  rw [@BinaryFormat.bits_eq binary32 _ hbits, @BinaryFormat.bits_eq binary32 _ hbits', hstored, hfractions,
    ← hsign, ← hsign', h]

end EagerLoad.Decimal
