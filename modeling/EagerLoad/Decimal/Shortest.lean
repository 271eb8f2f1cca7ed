/-!
# The shortest decimal that reads back

A binary floating-point number `m · 2^q` owns the interval of reals that round to it. Its shortest
decimal is a point of the coarsest power-of-ten grid that meets this interval, and of two such points
the one nearer to the number. All arithmetic is on naturals: value and interval ends are written over
one power of ten.
-/

namespace EagerLoad.Decimal

/-- A binary interchange format. -/
structure BinaryFormat where
  /-- Width of the stored fraction. -/
  fractionBits : Nat
  /-- Width of the stored exponent. -/
  exponentBits : Nat

/-- The format of 64-bit numbers. -/
def binary64 : BinaryFormat := ⟨52, 11⟩

/-- The format of 32-bit numbers. -/
def binary32 : BinaryFormat := ⟨23, 8⟩

/-- The fraction that some bits hold. -/
def BinaryFormat.storedFraction (format : BinaryFormat) (bits : Nat) : Nat :=
  bits % (1 <<< format.fractionBits)

/-- The exponent that some bits hold, above the fraction. -/
def BinaryFormat.storedExponent (format : BinaryFormat) (bits : Nat) : Nat :=
  (bits >>> format.fractionBits) % (1 <<< format.exponentBits)

/-- Whether the bit above fraction and exponent is set. -/
def BinaryFormat.isNegative (format : BinaryFormat) (bits : Nat) : Bool :=
  (bits >>> (format.fractionBits + format.exponentBits)) % 2 = 1

/-- The stored exponent and fraction of a 64-bit number, from those of the same 32-bit number. One below
the normal range of the narrow format is a normal number of the wide one, so its leading digit moves
out of the stored fraction. -/
def widenedFields (stored fraction : Nat) : Nat × Nat :=
  if stored = 255 then (2047, fraction <<< 29)
  else if stored ≠ 0 then (stored + 896, fraction <<< 29)
  else if fraction = 0 then (0, 0)
  else
    let top := fraction.log2
    (top + 874, (fraction - 1 <<< top) <<< (52 - top))

/-- The bits of a 32-bit number in the 64-bit format. -/
def widened (bits : Nat) : Nat :=
  let (stored, fraction) := widenedFields (binary32.storedExponent bits) (binary32.storedFraction bits)
  let sign := if binary32.isNegative bits then 1 else 0
  fraction + (stored + sign <<< 11) <<< 52

/-- A finite magnitude `significand · 2^exponent`. -/
structure Binary where
  significand : Nat
  exponent : Int
  /-- Whether the next smaller magnitude is half as far away as the next larger one. -/
  narrowBelow : Bool

/-- The magnitude stored in `bits`, whatever its sign. -/
def BinaryFormat.magnitude (format : BinaryFormat) (bits : Nat) : Binary :=
  let fraction := format.storedFraction bits
  let stored := format.storedExponent bits
  let bias : Nat := (1 <<< (format.exponentBits - 1)) - 1 + format.fractionBits
  if stored = 0 then ⟨fraction, 1 - (bias : Int), false⟩
  else ⟨(1 <<< format.fractionBits) + fraction, (stored : Int) - bias, fraction = 0 && 1 < stored⟩

/-- A decimal magnitude `digits · 10^exponent`. -/
structure Digits where
  digits : Nat
  exponent : Int
deriving DecidableEq

/-- Which of two equally near grid points is taken. -/
inductive Tie where
  | toEven
  | upward
deriving DecidableEq

/-- A positive number with the interval that rounds to it, all over one power of ten. -/
structure Rounding where
  low : Nat
  value : Nat
  high : Nat
  /-- Whether the ends of the interval belong to it. -/
  closed : Bool

/-- Whether a number rounds to the value. -/
def Rounding.contains (r : Rounding) (n : Nat) : Bool :=
  if r.closed then r.low ≤ n && n ≤ r.high else r.low < n && n < r.high

/-- The point of the grid of multiples of `step` that stands for the value, counted in steps, if one
of the value's two neighbours on the grid rounds to it. -/
def Rounding.onGrid? (r : Rounding) (tie : Tie) (step : Nat) : Option Nat :=
  let below := r.value / step
  let above := below + 1
  match r.contains (below * step), r.contains (above * step) with
  | true, false => some below
  | false, true => some above
  | false, false => none
  | true, true =>
    let left := 2 * (r.value % step)
    if left < step then some below
    else if step < left then some above
    else match tie with
      | .toEven => some (if below % 2 = 0 then below else above)
      | .upward => some above

/-- The point on the coarsest grid of step at most `10^places`, with the exponent of its step. -/
def Rounding.coarsest (r : Rounding) (tie : Tie) : Nat → Nat × Nat
  | 0 => (r.value, 0)
  | places + 1 =>
    match r.onGrid? tie (Nat.pow 10 (places + 1)) with
    | some point => (point, places + 1)
    | none => r.coarsest tie places

/-- The interval of a positive magnitude in units of `10^(-places)`, with `places`. -/
def Binary.rounding (b : Binary) : Rounding × Nat :=
  let places := (2 - b.exponent).toNat
  let unit := Nat.pow 5 places <<< (b.exponent - 2 + places).toNat
  let quarters := 4 * b.significand
  (⟨(quarters - if b.narrowBelow then 1 else 2) * unit, quarters * unit, (quarters + 2) * unit,
    b.significand % 2 = 0⟩, places)

/-- The shortest decimal that rounds to the magnitude. -/
def Binary.shortest (b : Binary) (tie : Tie) : Digits :=
  if b.significand = 0 then ⟨0, 0⟩
  else
    let (interval, places) := b.rounding
    let (point, step) := interval.coarsest tie (Nat.toDigits 10 interval.value).length
    ⟨point, (step : Int) - places⟩

end EagerLoad.Decimal
