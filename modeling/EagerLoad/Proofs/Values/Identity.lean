import EagerLoad.Proofs.Values.Texts

/-!
# Identities and equality of keys

Rows are grouped by the identities of their keys, while the database compares the keys themselves. Within
one type the two agree except on floating-point numbers: JSON has no text for those that are not finite,
which makes them all alike and like null, and it tells the two zeros apart, which are equal.
-/

namespace EagerLoad

namespace Value

/-- Values of one of the types that keys have. -/
inductive SameKind : Value → Value → Prop
  | bool (a b : Bool) : SameKind (.bool a) (.bool b)
  | int32 (m n : Int32) : SameKind (.int32 m) (.int32 n)
  | int64 (m n : Int64) : SameKind (.int64 m) (.int64 n)
  | float32 (x y : Float32) : SameKind (.float32 x) (.float32 y)
  | float64 (x y : Float) : SameKind (.float64 x) (.float64 y)
  | text (s t : String) : SameKind (.text s) (.text t)
  | bytes (l m : List UInt8) : SameKind (.bytes l) (.bytes m)
  | uuid (u u' : Uuid) : SameKind (.uuid u) (.uuid u')

/-- Whether the database takes two values to be equal. Among floating-point numbers, what is not a number
is equal to itself, and so are the two zeros. -/
def SqlEq : Value → Value → Prop
  | .float32 x, .float32 y => x == y ∨ x.isNaN ∧ y.isNaN
  | .float64 x, .float64 y => x == y ∨ x.isNaN ∧ y.isNaN
  | v, w => v = w

/-- Whether the value is an infinite number or none. -/
def isNonfinite : Value → Bool
  | .float32 x => !x.isFinite
  | .float64 x => !x.isFinite
  | _ => false

/-- Whether the value is one of the two floating-point zeros. -/
def isZero : Value → Bool
  | .float32 x => x == 0
  | .float64 x => x == 0
  | _ => false

/-- Two values are neither different numbers without a text nor the two zeros. -/
structure Unambiguous (v w : Value) : Prop where
  nonfinite : v.isNonfinite = true → w.isNonfinite = true → v = w
  zero : v.isZero = true → w.isZero = true → v = w

end Value

section Floats

open Decimal

variable {x y : Float} {a b : Float32}

theorem text_ofFloat_of_isFinite (hx : x.isFinite = true) :
    (Json.ofFloat x).text = Json.numberLayout.finite binary64 x.toBits.toNat := by
  rw [Json.ofFloat_of_isFinite hx, Json.text, Number.text]

theorem text_ofFloat_of_not_isFinite (hx : x.isFinite = false) : (Json.ofFloat x).text = "null" := by
  simp only [Json.ofFloat, Number.ofFloat?, hx, Bool.false_eq_true, dif_neg, not_false_eq_true, Json.text]

/-- The text of a number is null exactly if the number is not finite. -/
theorem text_ofFloat_eq_null : (Json.ofFloat x).text = "null" ↔ x.isFinite = false := by
  cases hx : x.isFinite with
  | false => exact iff_of_true (text_ofFloat_of_not_isFinite hx) rfl
  | true =>
    rw [text_ofFloat_of_isFinite hx]
    exact iff_of_false (Json.isNumeric_finite _ _ _).ne_null (by decide)

/-- Finite numbers have different texts. -/
theorem text_ofFloat_inj (hx : x.isFinite = true) (h : (Json.ofFloat x).text = (Json.ofFloat y).text) :
    x = y := by
  have hy : y.isFinite = true := by
    by_contra hy
    rw [text_ofFloat_of_not_isFinite (Bool.eq_false_iff.mpr hy), text_ofFloat_eq_null, hx] at h
    cases h
  rw [text_ofFloat_of_isFinite hx, text_ofFloat_of_isFinite hy] at h
  have hbits := BinaryFormat.finite_inj (by decide) Json.numberLayout x.toBits.toNat_lt y.toBits.toNat_lt h
  exact Float.toBits_inj.mp (UInt64.toNat_inj.mp hbits)

theorem text_ofFloat_eq_iff : (Json.ofFloat x).text = (Json.ofFloat y).text ↔
    x = y ∨ x.isFinite = false ∧ y.isFinite = false := by
  constructor
  · intro h
    cases hx : x.isFinite with
    | true => exact .inl (text_ofFloat_inj hx h)
    | false =>
      rw [text_ofFloat_of_not_isFinite hx] at h
      exact .inr ⟨rfl, text_ofFloat_eq_null.mp h.symm⟩
  · rintro (rfl | ⟨hx, hy⟩)
    · rfl
    · rw [text_ofFloat_of_not_isFinite hx, text_ofFloat_of_not_isFinite hy]

theorem toNat_widened (a : Float32) : (UInt64.ofNat (widened a.toBits.toNat)).toNat = widened a.toBits.toNat :=
  UInt64.toNat_ofNat_of_lt' (fields_widened a.toBits.toNat).2.2.2

/-- A widened number is finite exactly if the narrow one is. -/
theorem isFinite_widen : (widen a).isFinite = a.isFinite := by
  rw [Bool.eq_iff_iff, widen, isFinite_ofBits, isFinite32_iff, toNat_widened]
  exact (storedExponent_widened_eq a.toBits.toNat).not

theorem widen_inj (ha : a.isFinite = true) (h : widen a = widen b) : a = b := by
  have hb : b.isFinite = true := by rw [← isFinite_widen, ← h, isFinite_widen, ha]
  have hbits {c : Float32} (hc : c.isFinite = true) : (widen c).toBits.toNat = widened c.toBits.toNat := by
    rw [widen, toBits_ofBits, toNat_widened]
    rw [toNat_widened]
    exact (storedExponent_widened_eq _).not.mpr ((isFinite32_iff c).mp hc)
  have hwide : (widen a).toBits.toNat = (widen b).toBits.toNat := by rw [h]
  rw [hbits ha, hbits hb] at hwide
  exact Float32.toBits_inj.mp (UInt32.toNat_inj.mp (widened_inj a.toBits.toNat_lt b.toBits.toNat_lt
    ((isFinite32_iff a).mp ha) ((isFinite32_iff b).mp hb) hwide))

theorem text_widen_eq_iff : (Json.ofFloat (widen a)).text = (Json.ofFloat (widen b)).text ↔
    a = b ∨ a.isFinite = false ∧ b.isFinite = false := by
  rw [text_ofFloat_eq_iff, isFinite_widen, isFinite_widen]
  constructor
  · rintro (h | h)
    · cases ha : a.isFinite with
      | true => exact .inl (widen_inj ha h)
      | false => exact .inr ⟨rfl, by rw [← isFinite_widen, ← h, isFinite_widen, ha]⟩
    · exact .inr h
  · rintro (rfl | h)
    · exact .inl rfl
    · exact .inr h

/-- Numbers that the database takes to be equal are the same number or both zero. -/
theorem sqlEq_float64 : (x == y ∨ x.isNaN ∧ y.isNaN) ↔ x = y ∨ (x == 0) = true ∧ (y == 0) = true := by
  have hzero : (0 : Float) ≠ .nan := by decide +kernel
  have hminus : (-0 : Float) ≠ .nan := by decide +kernel
  rw [Float.isNaN_eq_decide_eq_nan, Float.isNaN_eq_decide_eq_nan, decide_eq_true_eq, decide_eq_true_eq,
    Float.beq_iff_ne_nan_and_eq, Float.beq_iff_ne_nan_and_eq, Float.beq_iff_ne_nan_and_eq]
  grind

theorem sqlEq_float32 : (a == b ∨ a.isNaN ∧ b.isNaN) ↔ a = b ∨ (a == 0) = true ∧ (b == 0) = true := by
  have hzero : (0 : Float32) ≠ .nan := by decide +kernel
  have hminus : (-0 : Float32) ≠ .nan := by decide +kernel
  rw [Float32.isNaN_eq_decide_eq_nan, Float32.isNaN_eq_decide_eq_nan, decide_eq_true_eq, decide_eq_true_eq,
    Float32.beq_iff_ne_nan_and_eq, Float32.beq_iff_ne_nan_and_eq, Float32.beq_iff_ne_nan_and_eq]
  grind

theorem isFinite_of_isZero (hx : (x == 0) = true) : x.isFinite = true := by
  obtain ⟨-, -, rfl | ⟨rfl, -⟩ | ⟨rfl, -⟩⟩ := Float.beq_iff_ne_nan_and_eq.mp hx <;> decide +kernel

theorem isFinite32_of_isZero (ha : (a == 0) = true) : a.isFinite = true := by
  obtain ⟨-, -, rfl | ⟨rfl, -⟩ | ⟨rfl, -⟩⟩ := Float32.beq_iff_ne_nan_and_eq.mp ha <;> decide +kernel

end Floats

namespace Value

variable {v w : Value}

/-- Values of one type have one identity exactly if they are the same or both have no text. -/
theorem identity_eq_iff (h : v.SameKind w) :
    v.identity = w.identity ↔ v = w ∨ v.isNonfinite = true ∧ w.isNonfinite = true := by
  have hexact (hinj : v.identity = w.identity → v = w) (hfinite : v.isNonfinite = false) :
      v.identity = w.identity ↔ v = w ∨ v.isNonfinite = true ∧ w.isNonfinite = true := by
    rw [hfinite]
    exact ⟨fun heq => .inl (hinj heq), fun heq => heq.elim (congrArg identity) fun h => nomatch h.1⟩
  cases h with
  | bool a b =>
    refine hexact (fun heq => ?_) rfl
    cases a <;> cases b <;> first | rfl | exact absurd heq (by decide +kernel)
  | int32 m n =>
    refine hexact (fun heq => ?_) rfl
    rw [Int32.toInt_inj.mp (Int.repr_injective heq)]
  | int64 m n =>
    refine hexact (fun heq => ?_) rfl
    rw [Int64.toInt_inj.mp (Int.repr_injective heq)]
  | float32 x y =>
    change (Json.ofFloat (widen x)).text = (Json.ofFloat (widen y)).text ↔ _
    simpa [isNonfinite] using text_widen_eq_iff
  | float64 x y =>
    change (Json.ofFloat x).text = (Json.ofFloat y).text ↔ _
    simpa [isNonfinite] using text_ofFloat_eq_iff
  | text s t => exact hexact (fun heq => congrArg _ (Json.quote_inj heq)) rfl
  | bytes l m => exact hexact (fun heq => congrArg _ (Json.text_bytes_inj heq)) rfl
  | uuid u u' => exact hexact (fun heq => congrArg _ (Uuid.text_inj (Json.quote_inj heq))) rfl

/-- A value has the identity of null exactly if it has no text. -/
theorem identity_eq_null (h : v.SameKind w) : v.identity = Value.null.identity ↔ v.isNonfinite = true := by
  have hexact (hne : v.identity ≠ "null") (hfinite : v.isNonfinite = false) :
      v.identity = Value.null.identity ↔ v.isNonfinite = true :=
    iff_of_false hne (by simp [hfinite])
  have hquote (s : String) : Json.quote s ≠ "null" := by
    intro heq
    have hlists := congrArg String.toList heq
    rw [Json.toList_quote] at hlists
    exact absurd (List.cons.inj hlists).1 (by decide)
  cases h with
  | bool a b => exact hexact (by cases a <;> decide +kernel) rfl
  | int32 m n => exact hexact (Json.isNumeric_int m.toInt).ne_null rfl
  | int64 m n => exact hexact (Json.isNumeric_int m.toInt).ne_null rfl
  | float32 x y =>
    change (Json.ofFloat (widen x)).text = "null" ↔ _
    simp [isNonfinite, text_ofFloat_eq_null, isFinite_widen]
  | float64 x y =>
    change (Json.ofFloat x).text = "null" ↔ _
    simp [isNonfinite, text_ofFloat_eq_null]
  | text s t => exact hexact (hquote s) rfl
  | bytes l m =>
    refine hexact (fun heq => ?_) rfl
    have hlists := congrArg String.toList heq
    simp [identity, toJson, Json.text] at hlists
  | uuid u u' => exact hexact (hquote u.text) rfl

theorem sqlEq_iff (h : v.SameKind w) : v.SqlEq w ↔ v = w ∨ v.isZero = true ∧ w.isZero = true := by
  cases h with
  | float32 x y => simpa [SqlEq, isZero] using sqlEq_float32
  | float64 x y => simpa [SqlEq, isZero] using sqlEq_float64
  | _ => simp [SqlEq, isZero]

/-- The identities agree with the database except between different numbers without a text and between
the two zeros. -/
theorem identity_agrees_iff (h : v.SameKind w) :
    (v.identity = w.identity ↔ v.SqlEq w) ↔ v.Unambiguous w := by
  rw [identity_eq_iff h, sqlEq_iff h]
  -- A zero has a text.
  have hapart (hmark : v.isNonfinite = true) (hzero : v.isZero = true) : False := by
    cases h with
    | float32 x y => simp [isNonfinite, isFinite32_of_isZero hzero] at hmark
    | float64 x y => simp [isNonfinite, isFinite_of_isZero hzero] at hmark
    | _ => cases hzero
  constructor
  · intro hagree
    constructor
    · intro hv hw
      rcases hagree.mp (.inr ⟨hv, hw⟩) with heq | ⟨hzero, -⟩
      · exact heq
      · exact (hapart hv hzero).elim
    · intro hv hw
      rcases hagree.mpr (.inr ⟨hv, hw⟩) with heq | ⟨hmark, -⟩
      · exact heq
      · exact (hapart hmark hv).elim
  · intro hclear
    constructor
    · rintro (heq | ⟨hv, hw⟩)
      · exact .inl heq
      · exact .inl (hclear.nonfinite hv hw)
    · rintro (heq | ⟨hv, hw⟩)
      · exact .inl heq
      · exact .inl (hclear.zero hv hw)

end Value

end EagerLoad
