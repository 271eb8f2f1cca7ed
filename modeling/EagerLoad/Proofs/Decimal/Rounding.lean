import EagerLoad.Proofs.Decimal.Written
import Mathlib.Tactic.Linarith
import Mathlib.Tactic.Positivity

/-!
# Every number has a text of its own

The rationals that round to a magnitude of a binary format form an interval around it, and no rational
rounds to two magnitudes: neighbouring intervals share an end, which belongs to the magnitude with the even
significand. The shortest decimal of a magnitude rounds to it, so numbers with different bits have different
decimals, and are written differently.
-/

namespace EagerLoad.Decimal

variable {format : BinaryFormat} {b : Binary} {r : Rounding} {tie : Tie} {x : ℚ}

namespace Binary

/-- The least rational that is as near to the magnitude as to another one. -/
def low (b : Binary) : ℚ :=
  (4 * b.significand - if b.narrowBelow then 1 else 2) * 2 ^ (b.exponent - 2)

/-- The greatest rational that is as near to the magnitude as to another one. -/
def high (b : Binary) : ℚ :=
  (4 * b.significand + 2) * 2 ^ (b.exponent - 2)

/-- A rational rounds to the magnitude; the ends of the interval do so if the significand is even. -/
def Rounds (b : Binary) (x : ℚ) : Prop :=
  if b.significand % 2 = 0 then b.low ≤ x ∧ x ≤ b.high else b.low < x ∧ x < b.high

/-- The unit of the interval's ends is a quarter of that of the magnitude. -/
theorem unit_eq (exponent : Int) :
    ((Nat.pow 5 (2 - exponent).toNat <<< (exponent - 2 + (2 - exponent).toNat).toNat : Nat) : ℚ) =
      2 ^ (exponent - 2) * 10 ^ (2 - exponent).toNat := by
  have hten (n : Nat) : (10 : ℚ) ^ n = 2 ^ (n : Int) * 5 ^ n := by
    rw [zpow_natCast, ← mul_pow]
    norm_num
  have hexponent : ((exponent - 2 + (2 - exponent).toNat).toNat : Int) =
      exponent - 2 + (2 - exponent).toNat := by omega
  rw [Nat.shiftLeft_eq, hten, ← mul_assoc, ← zpow_add₀ (by norm_num), ← hexponent, zpow_natCast,
    Nat.pow_eq, mul_comm]
  push_cast
  rfl

/-- Written over a power of ten, the interval of a magnitude holds what rounds to it. -/
theorem contains_rounding (hpos : b.significand ≠ 0) (n : Nat) :
    b.rounding.1.contains n = true ↔ b.Rounds (n / 10 ^ b.rounding.2) := by
  have hunit := unit_eq b.exponent
  unfold rounding Rounds low high
  dsimp only
  set places := (2 - b.exponent).toNat
  set unit := Nat.pow 5 places <<< (b.exponent - 2 + places).toNat
  have hscale : (0 : ℚ) < 10 ^ places := by positivity
  have hlow : (((4 * b.significand - if b.narrowBelow then 1 else 2) * unit : Nat) : ℚ) =
      (4 * b.significand - if b.narrowBelow then 1 else 2) * 2 ^ (b.exponent - 2) * 10 ^ places := by
    rw [Nat.cast_mul, hunit, Nat.cast_sub (by split <;> omega)]
    push_cast
    ring
  have hhigh : (((4 * b.significand + 2) * unit : Nat) : ℚ) =
      (4 * b.significand + 2) * 2 ^ (b.exponent - 2) * 10 ^ places := by
    rw [Nat.cast_mul, hunit]
    push_cast
    ring
  simp only [le_div_iff₀ hscale, div_le_iff₀ hscale, lt_div_iff₀ hscale, div_lt_iff₀ hscale, ← hlow,
    ← hhigh, Nat.cast_le, Nat.cast_lt]
  by_cases heven : b.significand % 2 = 0 <;> simp [Rounding.contains, heven]

end Binary

namespace Rounding

/-- A point of a grid that stands for the value rounds to it. -/
theorem contains_of_onGrid? {step point : Nat} (h : r.onGrid? tie step = some point) :
    r.contains (point * step) = true := by
  unfold onGrid? at h
  dsimp only at h
  split at h
  · rename_i hbelow _
    cases h
    exact hbelow
  · rename_i habove
    cases h
    exact habove
  · cases h
  · -- Both neighbours round to the value; whichever is taken does.
    rename_i hbelow habove
    have htaken {n : Nat} (hn : n = r.value / step ∨ n = r.value / step + 1) :
        r.contains (n * step) = true := by
      rcases hn with rfl | rfl
      · exact hbelow
      · exact habove
    refine htaken ?_
    split at h
    · exact .inl (Option.some.inj h).symm
    split at h
    · exact .inr (Option.some.inj h).symm
    split at h
    · split at h
      · exact .inl (Option.some.inj h).symm
      · exact .inr (Option.some.inj h).symm
    · exact .inr (Option.some.inj h).symm

/-- The point on the coarsest grid rounds to the value. -/
theorem contains_coarsest (h : r.contains r.value = true) (tie : Tie) (places : Nat) :
    r.contains ((r.coarsest tie places).1 * 10 ^ (r.coarsest tie places).2) = true := by
  induction places with
  | zero => simpa [coarsest] using h
  | succ places ih =>
    unfold coarsest
    split
    · rename_i hpoint
      exact contains_of_onGrid? hpoint
    · exact ih

end Rounding

/-- A magnitude lies in its own interval. -/
theorem Binary.contains_value (hpos : b.significand ≠ 0) :
    b.rounding.1.contains b.rounding.1.value = true := by
  have hbetween : b.rounding.1.low < b.rounding.1.value ∧
      b.rounding.1.value < b.rounding.1.high := by
    have hunit : 0 < Nat.pow 5 (2 - b.exponent).toNat <<<
        (b.exponent - 2 + (2 - b.exponent).toNat).toNat := by
      rw [Nat.shiftLeft_eq, Nat.pow_eq]
      positivity
    unfold Binary.rounding
    dsimp only
    constructor <;> refine Nat.mul_lt_mul_of_pos_right ?_ hunit
    · split <;> omega
    · omega
  obtain ⟨hlow, hhigh⟩ := hbetween
  unfold Rounding.contains
  split <;> simp [hlow, hhigh, hlow.le, hhigh.le]

/-- The shortest decimal of a magnitude rounds to it. -/
theorem Binary.rounds_shortest (b : Binary) (tie : Tie) : b.Rounds (b.shortest tie).number := by
  have hquarter : (0 : ℚ) < 2 ^ (b.exponent - 2) := by positivity
  unfold Binary.shortest
  split
  · rename_i hzero
    have hlow : b.low ≤ 0 := by
      rw [Binary.low, hzero]
      split <;> simp <;> linarith
    have hhigh : 0 ≤ b.high := by
      unfold Binary.high
      positivity
    simp [Rounds, hzero, Digits.number, hlow, hhigh]
  · rename_i hpos
    dsimp only
    generalize (Nat.toDigits 10 b.rounding.1.value).length = places
    have hcoarsest := Rounding.contains_coarsest (Binary.contains_value hpos) tie places
    have hpoint := (Binary.contains_rounding hpos _).mp hcoarsest
    convert hpoint using 1
    rw [Digits.number, zpow_sub₀ (by norm_num), zpow_natCast, zpow_natCast]
    push_cast
    ring

namespace BinaryFormat

/-- The magnitude with a stored exponent and fraction: that of some bits is assembled from theirs. -/
def assembled (format : BinaryFormat) (stored fraction : Nat) : Binary :=
  let bias : Nat := (1 <<< (format.exponentBits - 1)) - 1 + format.fractionBits
  if stored = 0 then ⟨fraction, 1 - (bias : Int), false⟩
  else ⟨(1 <<< format.fractionBits) + fraction, (stored : Int) - bias, fraction = 0 && 1 < stored⟩

theorem exponent_assembled (format : BinaryFormat) (stored fraction : Nat) :
    (format.assembled stored fraction).exponent =
      max (stored : Int) 1 - ((1 <<< (format.exponentBits - 1)) - 1 + format.fractionBits : Nat) := by
  unfold assembled
  split <;> simp only <;> omega

theorem significand_assembled (format : BinaryFormat) (stored fraction : Nat) :
    (format.assembled stored fraction).significand =
      (if stored = 0 then 0 else 2 ^ format.fractionBits) + fraction := by
  unfold assembled
  split <;> simp [Nat.shiftLeft_eq]

theorem narrowBelow_assembled (format : BinaryFormat) (stored fraction : Nat) :
    (format.assembled stored fraction).narrowBelow = (decide (fraction = 0) && decide (1 < stored)) := by
  unfold assembled
  split
  · simp_all
  · rfl

/-- Over one unit, the interval of a significand ends where that of the next one starts, or before. -/
theorem ends_of_unit {unit : ℚ} (hunit : 0 < unit) {s s' : Nat} (h : s < s') :
    (4 * (s : ℚ) + 2) * unit ≤ (4 * s' - 2) * unit ∧
      ((4 * (s : ℚ) + 2) * unit = (4 * s' - 2) * unit → s' = s + 1) := by
  have hle : (s : ℚ) + 1 ≤ s' := by exact_mod_cast h
  refine ⟨mul_le_mul_of_nonneg_right (by linarith) hunit.le, fun heq => ?_⟩
  have hnext : (s' : ℚ) = s + 1 := by linarith [mul_right_cancel₀ hunit.ne' heq]
  exact_mod_cast hnext

/-- The interval of a significand ends where that of a normal one with a unit twice as large starts, or
before. -/
theorem ends_of_double {unit unit' : ℚ} (hunit : 0 < unit) (hdouble : 2 * unit ≤ unit')
    {s normal : Nat} (h : s < 2 * normal) (fraction : Nat) :
    (4 * (s : ℚ) + 2) * unit ≤ (4 * (normal + fraction) - if fraction = 0 then 1 else 2) * unit' ∧
      ((4 * (s : ℚ) + 2) * unit = (4 * (normal + fraction) - if fraction = 0 then 1 else 2) * unit' →
        s + 1 = 2 * normal) := by
  have hle : (s : ℚ) + 1 ≤ 2 * normal := by exact_mod_cast h
  have hnormal : (1 : ℚ) ≤ normal := by exact_mod_cast (by omega : 1 ≤ normal)
  split
  · rename_i hzero
    rw [hzero, Nat.cast_zero, add_zero]
    have hends : (4 * (s : ℚ) + 2) * unit ≤ (4 * normal - 1) * (2 * unit) := by nlinarith
    have hgap : (4 * (normal : ℚ) - 1) * (2 * unit) ≤ (4 * normal - 1) * unit' :=
      mul_le_mul_of_nonneg_left hdouble (by linarith)
    refine ⟨hends.trans hgap, fun heq => ?_⟩
    have htouch : (4 * (s : ℚ) + 2) * unit = 2 * (4 * normal - 1) * unit :=
      (le_antisymm hends (heq ▸ hgap)).trans (by ring)
    have hlast : (s : ℚ) + 1 = 2 * normal := by linarith [mul_right_cancel₀ hunit.ne' htouch]
    exact_mod_cast hlast
  · rename_i hpos
    have hfraction : (1 : ℚ) ≤ fraction := by exact_mod_cast Nat.one_le_iff_ne_zero.mpr hpos
    have hends : (4 * (s : ℚ) + 2) * unit < (4 * (normal + fraction) - 2) * (2 * unit) := by nlinarith
    have hgap : (4 * ((normal : ℚ) + fraction) - 2) * (2 * unit) ≤ (4 * (normal + fraction) - 2) * unit' :=
      mul_le_mul_of_nonneg_left hdouble (by linarith)
    exact ⟨(hends.trans_le hgap).le, fun heq => absurd heq (hends.trans_le hgap).ne⟩

/-- The interval of a magnitude ends where that of a greater one starts, or before. They share an end only if
one of the significands is odd. -/
theorem high_le_low (hformat : 0 < format.fractionBits) {stored stored' fraction fraction' : Nat}
    (hfraction : fraction < 2 ^ format.fractionBits)
    (h : stored < stored' ∨ stored = stored' ∧ fraction < fraction') :
    (format.assembled stored fraction).high ≤ (format.assembled stored' fraction').low ∧
      ((format.assembled stored fraction).high = (format.assembled stored' fraction').low →
        ¬((format.assembled stored fraction).significand % 2 = 0 ∧
          (format.assembled stored' fraction').significand % 2 = 0)) := by
  have heven : 2 ^ format.fractionBits % 2 = 0 := by
    rw [← Nat.succ_pred_eq_of_pos hformat, Nat.pow_succ]
    omega
  simp only [Binary.high, Binary.low, exponent_assembled, significand_assembled, narrowBelow_assembled]
  generalize (1 <<< (format.exponentBits - 1)) - 1 + format.fractionBits = bias
  generalize 2 ^ format.fractionBits = normal at *
  generalize hs : (if stored = 0 then 0 else normal) + fraction = s
  generalize hs' : (if stored' = 0 then 0 else normal) + fraction' = s'
  have hunit : (0 : ℚ) < 2 ^ (max (stored : Int) 1 - bias - 2) := by positivity
  by_cases hexponent : max (stored' : Int) 1 = max (stored : Int) 1
  · have hlt : s < s' := by
      rw [← hs, ← hs']
      split <;> split <;> omega
    have hwide : (decide (fraction' = 0) && decide (1 < stored')) = false := by
      simp only [Bool.and_eq_false_iff, decide_eq_false_iff_not]
      omega
    obtain ⟨hle, hnext⟩ := ends_of_unit hunit hlt
    rw [hexponent, hwide]
    refine ⟨hle, fun heq => ?_⟩
    have hnext := hnext heq
    omega
  · -- A greater exponent at least doubles the unit, and its significand is normal.
    have hnormal : 1 < stored' ∧ s' = normal + fraction' := by
      rw [← hs', if_neg (by omega)]
      omega
    have hdouble : 2 * (2 : ℚ) ^ (max (stored : Int) 1 - bias - 2) ≤
        2 ^ (max (stored' : Int) 1 - bias - 2) := by
      rw [← zpow_one_add₀ (by norm_num)]
      exact zpow_le_zpow_right₀ (by norm_num) (by omega)
    have hsmall : s < 2 * normal := by
      rw [← hs]
      split <;> omega
    obtain ⟨hle, hlast⟩ := ends_of_double hunit hdouble hsmall fraction'
    simp only [hnormal, decide_true, Bool.and_true, decide_eq_true_eq, Nat.cast_add]
    refine ⟨hle, fun heq => ?_⟩
    have hlast := hlast heq
    omega

/-- No rational rounds to two magnitudes of a format. -/
theorem assembled_inj (hformat : 0 < format.fractionBits) {stored stored' fraction fraction' : Nat}
    (hfraction : fraction < 2 ^ format.fractionBits) (hfraction' : fraction' < 2 ^ format.fractionBits)
    (h : (format.assembled stored fraction).Rounds x) (h' : (format.assembled stored' fraction').Rounds x) :
    stored = stored' ∧ fraction = fraction' := by
  have hdisjoint {stored stored' fraction fraction' : Nat} (hfraction : fraction < 2 ^ format.fractionBits)
      (hlt : stored < stored' ∨ stored = stored' ∧ fraction < fraction')
      (h : (format.assembled stored fraction).Rounds x) :
      ¬(format.assembled stored' fraction').Rounds x := by
    intro h'
    obtain ⟨hle, hodd⟩ := high_le_low hformat hfraction hlt
    unfold Binary.Rounds at h h'
    split at h <;> split at h'
    · rename_i heven heven'
      exact hodd (le_antisymm hle (h'.1.trans h.2)) ⟨heven, heven'⟩
    all_goals linarith [h.1, h.2, h'.1, h'.2]
  have hnot := mt (hdisjoint hfraction · h) (not_not_intro h')
  have hnot' := mt (hdisjoint hfraction' · h') (not_not_intro h)
  omega

/-- The bits of a number are its sign, its exponent and its fraction. -/
theorem bits_eq {bits : Nat} (hbits : bits < 2 ^ (format.fractionBits + format.exponentBits + 1)) :
    bits = format.storedFraction bits + 2 ^ format.fractionBits * (format.storedExponent bits +
      2 ^ format.exponentBits * if format.isNegative bits then 1 else 0) := by
  have hsign : (if format.isNegative bits then 1 else 0) =
      bits / (2 ^ format.fractionBits * 2 ^ format.exponentBits) := by
    have hlt : bits / (2 ^ format.fractionBits * 2 ^ format.exponentBits) < 2 := by
      rw [Nat.div_lt_iff_lt_mul (by positivity), ← Nat.pow_add, ← Nat.pow_succ']
      exact hbits
    simp only [isNegative, Nat.shiftRight_eq_div_pow, Nat.pow_add, decide_eq_true_eq]
    generalize bits / (2 ^ format.fractionBits * 2 ^ format.exponentBits) = top at hlt ⊢
    split <;> omega
  rw [hsign, storedFraction, storedExponent, Nat.shiftLeft_eq, Nat.shiftLeft_eq, Nat.one_mul, Nat.one_mul,
    Nat.shiftRight_eq_div_pow, ← Nat.div_div_eq_div_mul, Nat.mod_add_div, Nat.mod_add_div]

/-- Numbers are written alike only if their bits are the same. -/
theorem finite_inj (hformat : 0 < format.fractionBits) (style : Layout) {bits bits' : Nat}
    (hbits : bits < 2 ^ (format.fractionBits + format.exponentBits + 1))
    (hbits' : bits' < 2 ^ (format.fractionBits + format.exponentBits + 1))
    (h : style.finite format bits = style.finite format bits') : bits = bits' := by
  obtain ⟨c, rest, hhead, hc⟩ := head_magnitude style ((format.magnitude bits).shortest style.tie)
  obtain ⟨c', rest', hhead', hc'⟩ := head_magnitude style ((format.magnitude bits').shortest style.tie)
  have hsign (digit : Char) (hdigit : digit.isDigit = true) : digit ≠ '-' := by
    rintro rfl
    cases hdigit
  have htexts : format.isNegative bits = format.isNegative bits' ∧
      style.magnitude ((format.magnitude bits).shortest style.tie) =
        style.magnitude ((format.magnitude bits').shortest style.tie) := by
    have hlist := String.ofList_injective h
    rw [hhead, hhead'] at hlist ⊢
    split at hlist <;> split at hlist
    · rename_i hneg hneg'
      exact ⟨hneg.trans hneg'.symm, (List.cons.inj hlist).2⟩
    · exact absurd (List.cons.inj hlist).1.symm (hsign c' hc')
    · exact absurd (List.cons.inj hlist).1 (hsign c hc)
    · rename_i hneg hneg'
      exact ⟨(Bool.eq_false_of_not_eq_true hneg).trans (Bool.eq_false_of_not_eq_true hneg').symm, hlist⟩
  have hnumber := congrArg readMagnitude htexts.2
  rw [readMagnitude_magnitude, readMagnitude_magnitude] at hnumber
  have hrounds := (format.magnitude bits).rounds_shortest style.tie
  have hrounds' := (format.magnitude bits').rounds_shortest style.tie
  rw [← hnumber] at hrounds'
  have hlt (bits : Nat) : format.storedFraction bits < 2 ^ format.fractionBits := by
    rw [storedFraction, Nat.shiftLeft_eq, Nat.one_mul]
    exact Nat.mod_lt _ (by positivity)
  obtain ⟨hstored, hfraction⟩ := assembled_inj hformat (hlt bits) (hlt bits') hrounds hrounds'
  rw [bits_eq hbits, bits_eq hbits', hstored, hfraction, htexts.1]

end BinaryFormat

end EagerLoad.Decimal
