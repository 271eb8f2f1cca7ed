import EagerLoad.Json
import EagerLoad.Text.Basic

/-!
# Reading JSON text

Blanks may stand between the parts of a value, and every escape is understood. A number without
fraction and exponent is an integer if it is in range, except for negative zero; any other number is
rounded to the nearest floating-point number. Of equal keys in an object the last one counts.
-/

namespace EagerLoad.Json

/-- Whether a character may stand between the parts of a value. -/
def isSpace (c : Char) : Bool :=
  c = ' ' || c = '\t' || c = '\n' || c = '\r'

/-- The code unit that hexadecimal digits write. -/
def unitOfHex? (digits : List Char) : Option Nat :=
  if digits.all Text.isHexDigit then some (Text.natOfDigits 16 digits) else none

/-- The character of an escape of one letter. -/
def unescape? (c : Char) : Option Char :=
  match c with
  | '"' => some '"'
  | '\\' => some '\\'
  | '/' => some '/'
  | 'b' => some '\x08'
  | 'f' => some '\x0c'
  | 'n' => some '\n'
  | 'r' => some '\r'
  | 't' => some '\t'
  | _ => none

/-- Whether a code unit is the first or the second half of a pair. -/
def isSurrogate (second : Bool) (unit : Nat) : Bool :=
  (if second then 0xdc00 else 0xd800) ≤ unit && unit < if second then 0xe000 else 0xdc00

/-- Read the rest of a string after its opening quote, and what follows the closing one. -/
def readString : List Char → Option (List Char × List Char)
  | '"' :: rest => some ([], rest)
  | '\\' :: 'u' :: a :: b :: c :: d :: rest => do
    let first ← unitOfHex? [a, b, c, d]
    guard (!isSurrogate true first)
    if isSurrogate false first then
      match rest with
      | '\\' :: 'u' :: e :: f :: g :: h :: rest =>
        let second ← unitOfHex? [e, f, g, h]
        guard (isSurrogate true second)
        let (cs, rest) ← readString rest
        return (Char.ofNat (0x10000 + (first - 0xd800) * 0x400 + (second - 0xdc00)) :: cs, rest)
      | _ => none
    else
      let (cs, rest) ← readString rest
      return (Char.ofNat first :: cs, rest)
  | '\\' :: c :: rest => do
    let plain ← unescape? c
    let (cs, rest) ← readString rest
    return (plain :: cs, rest)
  | c :: rest => do
    let (cs, rest) ← readString rest
    return (c :: cs, rest)
  | [] => none

/-- Read an exponent, zero if there is none. -/
def readExponent (cs : List Char) : Option (Int × List Char) :=
  match cs with
  | [] => some (0, [])
  | mark :: rest =>
    if mark = 'e' || mark = 'E' then
      let (negative, rest) := match rest with
        | '-' :: rest => (true, rest)
        | '+' :: rest => (false, rest)
        | rest => (false, rest)
      let digits := rest.takeWhile Char.isDigit
      let n : Int := Text.natOfDigits 10 digits
      if digits.isEmpty then none
      else some (if negative then -n else n, rest.drop digits.length)
    else some (0, cs)

/-- The floating-point number nearest to a decimal one. -/
def nearestFloat (negative : Bool) (digits : Nat) (exponent : Int) : Float :=
  let x := Float.ofScientific digits (exponent < 0) exponent.natAbs
  if negative then -x else x

/-- Read a number. -/
def readNumber (cs : List Char) : Option (Json × List Char) := do
  let negative := cs.head? = some '-'
  let cs := if negative then cs.tail else cs
  let whole := cs.takeWhile Char.isDigit
  guard (!whole.isEmpty)
  let rest := cs.drop whole.length
  let fraction := if rest.head? = some '.' then rest.tail.takeWhile Char.isDigit else []
  let afterFraction := if rest.head? = some '.' then rest.drop (fraction.length + 1) else rest
  let (exponent, rest') ← readExponent afterFraction
  let digits := Text.natOfDigits 10 (whole ++ fraction)
  let float := .ofFloat (nearestFloat negative digits (exponent - fraction.length))
  let integral := afterFraction.length = rest.length && rest'.length = rest.length
  if integral && !(negative && digits = 0) then
    match Number.ofInt? (if negative then -digits else digits) with
    | some n => return (.num n, rest')
    | none => return (float, rest')
  else return (float, rest')

mutual

/-- Read a value and what follows it. Each level of nesting and each item takes fuel. -/
def readValue : Nat → List Char → Option (Json × List Char)
  | 0, _ => none
  | fuel + 1, cs =>
    match cs.dropWhile isSpace with
    | 'n' :: 'u' :: 'l' :: 'l' :: rest => some (.null, rest)
    | 't' :: 'r' :: 'u' :: 'e' :: rest => some (.bool true, rest)
    | 'f' :: 'a' :: 'l' :: 's' :: 'e' :: rest => some (.bool false, rest)
    | '"' :: rest => do
      let (s, rest) ← readString rest
      return (.str (String.ofList s), rest)
    | '[' :: rest =>
      match rest.dropWhile isSpace with
      | ']' :: rest => some (.arr [], rest)
      | rest => do
        let (items, rest) ← readItems fuel rest
        return (.arr items, rest)
    | '\x7b' :: rest =>
      match rest.dropWhile isSpace with
      | '\x7d' :: rest => some (.obj [], rest)
      | rest => do
        let (fields, rest) ← readFields fuel rest
        return (.object fields, rest)
    | rest => readNumber rest

/-- Read the items of an array up to its closing bracket. -/
def readItems : Nat → List Char → Option (List Json × List Char)
  | 0, _ => none
  | fuel + 1, cs => do
    let (item, rest) ← readValue fuel cs
    match rest.dropWhile isSpace with
    | ',' :: rest =>
      let (items, rest) ← readItems fuel rest
      return (item :: items, rest)
    | ']' :: rest => return ([item], rest)
    | _ => none

/-- Read the fields of an object up to its closing brace. -/
def readFields : Nat → List Char → Option (List (String × Json) × List Char)
  | 0, _ => none
  | fuel + 1, cs =>
    match cs.dropWhile isSpace with
    | '"' :: rest => do
      let (key, rest) ← readString rest
      match rest.dropWhile isSpace with
      | ':' :: rest =>
        let (value, rest) ← readValue fuel rest
        match rest.dropWhile isSpace with
        | ',' :: rest =>
          let (fields, rest) ← readFields fuel rest
          return ((String.ofList key, value) :: fields, rest)
        | '\x7d' :: rest => return ([(String.ofList key, value)], rest)
        | _ => none
      | _ => none
    | _ => none

end

/-- The value that a text writes. -/
def ofText? (text : String) : Option Json := do
  let cs := text.toList
  let (value, rest) ← readValue (2 * (cs.length + 1)) cs
  guard (rest.all isSpace)
  return value

end EagerLoad.Json
