/-!
# Characters and texts

Blanks and trimming, digits and the numbers they write, and searches. The blanks are the characters
with the Unicode property White_Space; digits are ASCII characters, hexadecimal ones in either case.
Occurrences of a pattern are found from left to right and do not overlap.
-/

namespace EagerLoad.Text

/-- The ranges of blank code points. -/
def blankRanges : List (Nat × Nat) :=
  [(0x9, 0xd), (0x20, 0x20), (0x85, 0x85), (0xa0, 0xa0), (0x1680, 0x1680), (0x2000, 0x200a),
   (0x2028, 0x2029), (0x202f, 0x202f), (0x205f, 0x205f), (0x3000, 0x3000)]

/-- Whether a character is blank. -/
def isBlank (c : Char) : Bool :=
  blankRanges.any fun range => range.1 ≤ c.toNat && c.toNat ≤ range.2

/-- Characters without those at either end that satisfy a test. -/
def trimBy (drop : Char → Bool) (cs : List Char) : List Char :=
  ((cs.dropWhile drop).reverse.dropWhile drop).reverse

/-- A text without the blanks at either end. -/
def trim (s : String) : String :=
  String.ofList (trimBy isBlank s.toList)

/-- The value of a hexadecimal digit. -/
def digitValue? (c : Char) : Option Nat :=
  if '0' ≤ c ∧ c ≤ '9' then some (c.toNat - '0'.toNat)
  else if 'a' ≤ c ∧ c ≤ 'f' then some (c.toNat - 'a'.toNat + 10)
  else if 'A' ≤ c ∧ c ≤ 'F' then some (c.toNat - 'A'.toNat + 10)
  else none

/-- Whether a character is a hexadecimal digit. -/
def isHexDigit (c : Char) : Bool :=
  (digitValue? c).isSome

/-- The number that digits write in a base of at most 16. -/
def natOfDigits (base : Nat) (digits : List Char) : Nat :=
  digits.foldl (fun n c => base * n + (digitValue? c).getD 0) 0

/-- Whether `pattern` occurs in some characters. The empty pattern occurs everywhere. -/
def occursIn (pattern : List Char) : List Char → Bool
  | [] => pattern.isEmpty
  | c :: rest => pattern.isPrefixOf (c :: rest) || occursIn pattern rest

/-- Whether `pattern` occurs in a text. -/
def contains (text pattern : String) : Bool :=
  occursIn pattern.toList text.toList

/-- Replace the occurrences of a nonempty pattern after the first `skip` characters, which are dropped
as the rest of an occurrence. -/
def replaceFrom (pattern substitute : List Char) : Nat → List Char → List Char
  | _, [] => []
  | skip + 1, _ :: rest => replaceFrom pattern substitute skip rest
  | 0, c :: rest =>
    if pattern.isPrefixOf (c :: rest) then
      substitute ++ replaceFrom pattern substitute (pattern.length - 1) rest
    else c :: replaceFrom pattern substitute 0 rest

/-- Replace every occurrence of a nonempty pattern. -/
def replace (text pattern substitute : String) : String :=
  String.ofList (replaceFrom pattern.toList substitute.toList 0 text.toList)

end EagerLoad.Text
