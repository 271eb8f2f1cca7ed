import EagerLoad.Decimal.Shortest

/-!
# Written forms of decimal numbers

A `Layout` says where positional writing ends, how an exponent is written and how ties between
shortest decimals fall. Every finite number written here shows at least one digit after the point,
unless it carries an exponent.
-/

namespace EagerLoad.Decimal

/-- The choices that a format makes when it writes a floating-point number. -/
structure Layout where
  /-- Which of two equally near shortest decimals is written. -/
  tie : Tie
  /-- The least decimal exponent that is written positionally. -/
  leastPositional : Int
  /-- The greatest decimal exponent that is written positionally. -/
  greatestPositional : Int
  /-- Whether a positive exponent carries a sign. -/
  plusSign : Bool

/-- Digits with the point after the first `whole` of them, filled with zeros on either side. -/
def positional (digits : List Char) (whole : Int) : List Char :=
  if whole ≤ 0 then '0' :: '.' :: List.replicate (-whole).toNat '0' ++ digits
  else if digits.length ≤ whole then
    digits ++ List.replicate (whole.toNat - digits.length) '0' ++ ['.', '0']
  else digits.take whole.toNat ++ '.' :: digits.drop whole.toNat

/-- Digits with the point after the first one, and the exponent. -/
def scientific (plusSign : Bool) (digits : List Char) (exponent : Int) : List Char :=
  let mantissa := match digits with
    | first :: second :: rest => first :: '.' :: second :: rest
    | short => short
  let sign := if exponent < 0 then ['-'] else if plusSign then ['+'] else []
  mantissa ++ 'e' :: sign ++ Nat.toDigits 10 exponent.natAbs

/-- A magnitude written out. -/
def Layout.magnitude (style : Layout) (d : Digits) : List Char :=
  if d.digits = 0 then ['0', '.', '0']
  else
    let digits := Nat.toDigits 10 d.digits
    let exponent := d.exponent + digits.length - 1
    if style.leastPositional ≤ exponent ∧ exponent ≤ style.greatestPositional then
      positional digits (exponent + 1)
    else scientific style.plusSign digits exponent

/-- The finite number with the given bits of a format, written out with its sign. -/
def Layout.finite (style : Layout) (format : BinaryFormat) (bits : Nat) : String :=
  let text := style.magnitude ((format.magnitude bits).shortest style.tie)
  String.ofList (if format.isNegative bits then '-' :: text else text)

end EagerLoad.Decimal
