import EagerLoad.Decimal.Layout
import EagerLoad.Proofs.Description.Quoted
import Mathlib.Algebra.Order.Field.Power
import Mathlib.Data.List.TakeWhile
import Mathlib.Data.Rat.Defs
import Mathlib.Tactic.FieldSimp
import Mathlib.Tactic.Ring
import Std.Data.String.ToNat

/-!
# Written numbers read back

Whether a layout writes a number positionally or with an exponent, the text tells which number it is: its
digits, the place of the point and the exponent give it back. The text starts with a digit, so a sign can be
told from it.
-/

namespace EagerLoad.Decimal

open Description (span_until)

/-- The number that a decimal magnitude stands for. -/
def Digits.number (d : Digits) : ℚ :=
  d.digits * (10 : ℚ) ^ d.exponent

/-- The exponent that is written behind its mark; zero if nothing is. -/
def readScale : List Char → Int
  | '-' :: digits => -Nat.ofDigitChars 10 digits 0
  | '+' :: digits => Nat.ofDigitChars 10 digits 0
  | digits => Nat.ofDigitChars 10 digits 0

/-- The number that digits before and behind a point write, in units of a power of ten. -/
def readDigits (whole fraction : List Char) (scale : Int) : ℚ :=
  Nat.ofDigitChars 10 (whole ++ fraction) 0 * (10 : ℚ) ^ (scale - fraction.length)

/-- The number that digits with a point among them or without one write. -/
def readMantissa (mantissa : List Char) (scale : Int) : ℚ :=
  readDigits (mantissa.takeWhile (· ≠ '.')) (mantissa.dropWhile (· ≠ '.')).tail scale

/-- The number that a text without a sign writes. -/
def readMagnitude (text : List Char) : ℚ :=
  readMantissa (text.takeWhile (· ≠ 'e')) (readScale (text.dropWhile (· ≠ 'e')).tail)

section Reading

variable {whole fraction mantissa digits : List Char} {scale : Int}

theorem readMantissa_whole (h : '.' ∉ whole) : readMantissa whole scale = readDigits whole [] scale := by
  have hne : ∀ c ∈ whole, decide (c ≠ '.') = true := fun c hc => decide_eq_true fun heq => h (heq ▸ hc)
  rw [readMantissa, List.takeWhile_eq_self_iff.mpr hne, List.dropWhile_eq_nil_iff.mpr hne, List.tail_nil]

theorem readMantissa_point (h : '.' ∉ whole) :
    readMantissa (whole ++ '.' :: fraction) scale = readDigits whole fraction scale := by
  obtain ⟨hfront, hback⟩ := span_until h fraction
  rw [readMantissa, hfront, hback, List.tail_cons]

theorem readMagnitude_plain (h : 'e' ∉ mantissa) : readMagnitude mantissa = readMantissa mantissa 0 := by
  have hne : ∀ c ∈ mantissa, decide (c ≠ 'e') = true := fun c hc => decide_eq_true fun heq => h (heq ▸ hc)
  rw [readMagnitude, List.takeWhile_eq_self_iff.mpr hne, List.dropWhile_eq_nil_iff.mpr hne]
  rfl

theorem readMagnitude_scaled (h : 'e' ∉ mantissa) (tail : List Char) :
    readMagnitude (mantissa ++ 'e' :: tail) = readMantissa mantissa (readScale tail) := by
  obtain ⟨hfront, hback⟩ := span_until h tail
  rw [readMagnitude, hfront, hback, List.tail_cons]

/-- No mark is a digit. -/
theorem not_mem_of_isDigit {mark : Char} (hmark : mark.isDigit = false)
    (h : ∀ c ∈ digits, c.isDigit = true) : mark ∉ digits :=
  fun hmem => by rw [h mark hmem] at hmark; cases hmark

theorem isDigit_toDigits {n : Nat} : ∀ c ∈ Nat.toDigits 10 n, c.isDigit = true :=
  fun _ hc => Nat.isDigit_of_mem_toDigits (by decide) (by decide) hc

theorem isDigit_zeros (n : Nat) : ∀ c ∈ List.replicate n '0', c.isDigit = true :=
  fun _ hc => (List.mem_replicate.mp hc).2 ▸ rfl

/-- Leading zeros do not count. -/
theorem ofDigitChars_zeros (n : Nat) (digits : List Char) :
    Nat.ofDigitChars 10 (List.replicate n '0' ++ digits) 0 = Nat.ofDigitChars 10 digits 0 := by
  rw [Nat.ofDigitChars_append, Nat.ofDigitChars_replicate_zero, Nat.mul_zero]

/-- Digits with a point among them have no mark of an exponent. -/
theorem not_mem_point (hwhole : ∀ c ∈ whole, c.isDigit = true)
    (hfraction : ∀ c ∈ fraction, c.isDigit = true) : 'e' ∉ whole ++ '.' :: fraction := by
  intro hmem
  rcases List.mem_append.mp hmem with hmem | hmem
  · exact not_mem_of_isDigit rfl hwhole hmem
  · exact not_mem_of_isDigit rfl hfraction (List.mem_of_ne_of_mem (by decide) hmem)

theorem readMagnitude_point (hwhole : ∀ c ∈ whole, c.isDigit = true)
    (hfraction : ∀ c ∈ fraction, c.isDigit = true) :
    readMagnitude (whole ++ '.' :: fraction) = readDigits whole fraction 0 := by
  rw [readMagnitude_plain (not_mem_point hwhole hfraction), readMantissa_point (not_mem_of_isDigit rfl hwhole)]

/-- Digits and a point read back, wherever the point is put between the digits or zeros beside them. -/
theorem readMagnitude_positional (h : ∀ c ∈ digits, c.isDigit = true) (point : Int) :
    readMagnitude (positional digits point) =
      Nat.ofDigitChars 10 digits 0 * (10 : ℚ) ^ (point - digits.length) := by
  have hzero : ∀ c ∈ ['0'], c.isDigit = true := List.forall_mem_singleton.mpr rfl
  unfold positional
  split
  · -- Zeros stand between the point and the digits.
    rename_i hpoint
    have hfraction : ∀ c ∈ List.replicate (-point).toNat '0' ++ digits, c.isDigit = true :=
      List.forall_mem_append.mpr ⟨isDigit_zeros _, h⟩
    refine (readMagnitude_point hzero hfraction).trans ?_
    have hexponent : (0 : Int) - (List.replicate (-point).toNat '0' ++ digits).length =
        point - digits.length := by
      rw [List.length_append, List.length_replicate]
      omega
    rw [readDigits, hexponent, ← List.append_assoc, ← ofDigitChars_zeros ((-point).toNat + 1) digits,
      List.replicate_succ]
    rfl
  split
  · -- Zeros stand between the digits and the point.
    rename_i hpoint hlength
    have hwhole : ∀ c ∈ digits ++ List.replicate (point.toNat - digits.length) '0', c.isDigit = true :=
      List.forall_mem_append.mpr ⟨h, isDigit_zeros _⟩
    refine (readMagnitude_point hwhole hzero).trans ?_
    have hzeros : List.replicate (point.toNat - digits.length) '0' ++ ['0'] =
        List.replicate (point.toNat - digits.length + 1) '0' := List.replicate_succ'.symm
    have hexponent : point - digits.length = ((point.toNat - digits.length + 1 : Nat) : Int) + (0 - 1) := by
      omega
    rw [readDigits, List.append_assoc, hzeros, Nat.ofDigitChars_append, Nat.ofDigitChars_replicate_zero,
      hexponent, zpow_add₀ (by norm_num), zpow_natCast, Nat.cast_mul, Nat.cast_pow]
    simp only [List.length_singleton, Nat.cast_ofNat, Nat.cast_one]
    ring
  · rename_i hpoint hlength
    have hsplit := List.take_append_drop point.toNat digits
    have hwhole : ∀ c ∈ digits.take point.toNat, c.isDigit = true :=
      fun c hc => h c (List.mem_of_mem_take hc)
    have hfraction : ∀ c ∈ digits.drop point.toNat, c.isDigit = true :=
      fun c hc => h c (List.mem_of_mem_drop hc)
    have hexponent : (0 : Int) - (digits.drop point.toNat).length = point - digits.length := by
      rw [List.length_drop]
      omega
    rw [readMagnitude_point hwhole hfraction, readDigits, hsplit, hexponent]

/-- The digits of an exponent and its sign read back. -/
theorem readScale_toDigits (plusSign : Bool) (exponent : Int) :
    readScale ((if exponent < 0 then ['-'] else if plusSign then ['+'] else []) ++
      Nat.toDigits 10 exponent.natAbs) = exponent := by
  have hvalue : Nat.ofDigitChars 10 (Nat.toDigits 10 exponent.natAbs) 0 = exponent.natAbs :=
    Nat.ofDigitChars_ten_toDigits
  split
  · rw [List.singleton_append, readScale, hvalue]
    omega
  · split
    · rw [List.singleton_append, readScale, hvalue]
      omega
    · -- The first character is a digit, and so neither sign.
      rw [List.nil_append]
      have hdigits := isDigit_toDigits (n := exponent.natAbs)
      generalize Nat.toDigits 10 exponent.natAbs = digits at *
      unfold readScale
      split
      · exact absurd (hdigits '-' List.mem_cons_self) (by decide)
      · exact absurd (hdigits '+' List.mem_cons_self) (by decide)
      · rw [hvalue]
        omega

/-- Digits and an exponent read back. -/
theorem readMagnitude_scientific (h : ∀ c ∈ digits, c.isDigit = true) (hne : digits ≠ []) (plusSign : Bool)
    (exponent : Int) : readMagnitude (scientific plusSign digits exponent) =
      Nat.ofDigitChars 10 digits 0 * (10 : ℚ) ^ (exponent + 1 - digits.length) := by
  have hscale := readScale_toDigits plusSign exponent
  unfold scientific
  split
  · rename_i first second rest
    obtain ⟨hfirst, hrest⟩ := List.forall_mem_cons.mp h
    have hwhole : ∀ c ∈ [first], c.isDigit = true := List.forall_mem_singleton.mpr hfirst
    have hexponent : exponent - ((second :: rest).length : Nat) =
        exponent + 1 - ((first :: second :: rest).length : Nat) := by
      simp only [List.length_cons]
      omega
    rw [List.append_assoc, List.cons_append]
    refine (readMagnitude_scaled (not_mem_point hwhole hrest) _).trans ?_
    refine (congrArg _ hscale).trans ?_
    rw [readMantissa_point (not_mem_of_isDigit rfl hwhole), readDigits, hexponent]
    rfl
  · rename_i hshort
    have hlength : digits.length = 1 := by
      match digits, hne, hshort with
      | [_], _, _ => rfl
      | first :: second :: rest, _, hshort => exact absurd rfl (hshort first second rest)
    rw [List.append_assoc, List.cons_append, readMagnitude_scaled (not_mem_of_isDigit rfl h), hscale,
      readMantissa_whole (not_mem_of_isDigit rfl h), readDigits, hlength, List.append_nil]
    simp

end Reading

/-- What a layout writes reads back as the number that was written. -/
theorem readMagnitude_magnitude (style : Layout) (d : Digits) :
    readMagnitude (style.magnitude d) = d.number := by
  unfold Layout.magnitude
  split
  · rename_i hzero
    rw [Digits.number, hzero]
    simp [readMagnitude, readMantissa, readDigits, Nat.ofDigitChars]
  · have hvalue : Nat.ofDigitChars 10 (Nat.toDigits 10 d.digits) 0 = d.digits :=
      Nat.ofDigitChars_ten_toDigits
    simp only
    split
    · rw [readMagnitude_positional isDigit_toDigits, hvalue, Digits.number]
      congr 2
      omega
    · rw [readMagnitude_scientific isDigit_toDigits Nat.toDigits_ne_nil, hvalue, Digits.number]
      congr 2
      omega

/-- What a layout writes starts with a digit. -/
theorem head_magnitude (style : Layout) (d : Digits) :
    ∃ c rest, style.magnitude d = c :: rest ∧ c.isDigit = true := by
  have hdigits := isDigit_toDigits (n := d.digits)
  obtain ⟨first, rest, hcons⟩ := List.exists_cons_of_ne_nil (Nat.toDigits_ne_nil (b := 10) (n := d.digits))
  have hfirst : first.isDigit = true := hdigits first (hcons ▸ List.mem_cons_self)
  unfold Layout.magnitude
  split
  · exact ⟨_, _, rfl, rfl⟩
  · simp only [hcons]
    split
    · unfold positional
      split
      · exact ⟨_, _, rfl, rfl⟩
      split
      · exact ⟨_, _, rfl, hfirst⟩
      · rename_i hpoint _
        obtain ⟨n, hn⟩ := Nat.exists_eq_succ_of_ne_zero (n := _) (fun h => hpoint (Int.toNat_eq_zero.mp h))
        rw [hn]
        exact ⟨_, _, rfl, hfirst⟩
    · unfold scientific
      split
      · rename_i heq
        obtain ⟨rfl, -⟩ := List.cons.inj heq
        exact ⟨_, _, rfl, hfirst⟩
      · exact ⟨_, _, rfl, hfirst⟩

end EagerLoad.Decimal
