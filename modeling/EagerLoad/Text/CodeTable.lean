import EagerLoad.Text.Basic

/-!
# Tables of code points

A property of characters is a list of spans of code points, each with the numbers that the property
gives to its characters. Spans are written as `first-last:n,n` in hexadecimal: a span of one code point
leaves out `-last`, and a span without numbers leaves out the colon.
-/

namespace EagerLoad.Text

/-- Consecutive code points that share an entry of a table. -/
structure Span where
  first : Nat
  last : Nat
  /-- What the table says of each of them. -/
  numbers : List Nat

/-- Read a span from its written form. -/
def Span.ofChars (cs : List Char) : Span :=
  let bounds := cs.takeWhile (· ≠ ':')
  let numbers := cs.drop (bounds.length + 1)
  let ends := (bounds.splitOn '-').map (natOfDigits 16)
  { first := ends.headD 0
    last := ends.getLastD 0
    numbers := if numbers.isEmpty then [] else (numbers.splitOn ',').map (natOfDigits 16) }

/-- Whether a code point lies in a span. -/
def Span.covers (span : Span) (code : Nat) : Bool :=
  span.first ≤ code && code ≤ span.last

/-- A property of characters as a list of spans that do not overlap. -/
structure CodeTable where
  spans : List Span

namespace CodeTable

/-- Read a table whose spans are separated by blanks. -/
def ofText (s : String) : CodeTable :=
  ⟨((s.toList.splitOnP isBlank).filter fun word => !word.isEmpty).map Span.ofChars⟩

/-- The span that a character lies in. -/
def find? (table : CodeTable) (c : Char) : Option Span :=
  table.spans.find? fun span => span.covers c.toNat

/-- Whether a character lies in one of the spans. -/
def contains (table : CodeTable) (c : Char) : Bool :=
  (table.find? c).isSome

end CodeTable

end EagerLoad.Text
