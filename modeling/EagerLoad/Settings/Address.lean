import EagerLoad.Text.Basic

/-!
# Internet addresses

The texts that name a host by number: version 6 addresses as they stand between brackets, and version 4
addresses in decimal, octal or hexadecimal parts.
-/

namespace EagerLoad.Address

/-- Whether a part is a decimal number of at most 255 without a leading zero. -/
def isOctet (part : List Char) : Bool :=
  match part with
  | [] => false
  | [c] => c.isDigit
  | '0' :: _ => false
  | digits => digits.all Char.isDigit && Text.natOfDigits 10 digits ≤ 255

/-- Whether four octets stand between points. -/
def isDotted (cs : List Char) : Bool :=
  let parts := cs.splitOn '.'
  parts.length = 4 && parts.all isOctet

/-- Whether the rest of a version 6 address is well formed, after `seen` groups and after the double
colon if `compressed`. The fuel bounds the number of groups. -/
def isVersion6From : Nat → Nat → Bool → List Char → Bool
  | _, seen, compressed, [] => compressed || seen = 8
  | 0, _, _, _ => false
  | fuel + 1, seen, compressed, ':' :: rest =>
    seen < 8 && !compressed && isVersion6From fuel (seen + 1) true rest
  | fuel + 1, seen, compressed, cs =>
    let group := (cs.take 4).takeWhile Text.isHexDigit
    seen < 8 && match cs.drop group.length with
      | [] => isVersion6From fuel (seen + 1) compressed []
      | ':' :: rest => !rest.isEmpty && isVersion6From fuel (seen + 1) compressed rest
      | '.' :: _ =>
        !group.isEmpty && seen ≤ 6 && isDotted cs && (compressed || seen = 6)
      | _ => false

/-- Whether the text between brackets is a version 6 address. -/
def isVersion6 (cs : List Char) : Bool :=
  match cs with
  | ':' :: ':' :: rest => isVersion6From (rest.length + 1) 1 true rest
  | ':' :: _ => false
  | [_] => false
  | [] => false
  | cs => isVersion6From (cs.length + 1) 0 false cs

/-- A part of a version 4 address: hexadecimal after `0x`, octal after another zero, else decimal. -/
def version4Part (part : List Char) : Option Nat :=
  let written (base : Nat) (test : Char → Bool) (digits : List Char) : Option Nat :=
    if digits.all test then some (Text.natOfDigits base digits) else none
  match part with
  | [] => none
  | '0' :: 'x' :: digits => written 16 Text.isHexDigit digits
  | '0' :: 'X' :: digits => written 16 Text.isHexDigit digits
  | '0' :: c :: digits => written 8 (fun c => '0' ≤ c && c ≤ '7') (c :: digits)
  | digits => written 10 Char.isDigit digits

/-- The parts of a host name; an empty part after the last point does not count. -/
def hostParts (host : List Char) : List (List Char) :=
  let parts := host.splitOn '.'
  if parts.getLast? = some [] then parts.dropLast else parts

/-- Whether the last part of a host name is a number, so that the host must be a version 4 address. -/
def endsInNumber (host : List Char) : Bool :=
  match (hostParts host).getLast? with
  | none => false
  | some part => (!part.isEmpty && part.all Char.isDigit) || (version4Part part).isSome

/-- Whether a host name is a version 4 address. Its last part fills the bytes that the others leave. -/
def isVersion4 (host : List Char) : Bool :=
  match ((hostParts host).mapM version4Part).map List.reverse with
  | some (last :: others) =>
    others.length ≤ 3 && others.all (· ≤ 255) && last < 1 <<< (8 * (4 - others.length))
  | _ => false

end EagerLoad.Address
