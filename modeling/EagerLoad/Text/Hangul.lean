/-!
# Hangul syllables

The syllables stand in one block, ordered by leading consonant, then vowel, then trailing consonant, of
which the first is none at all. Their parts are consecutive characters too, so taking a syllable apart
and putting it together is arithmetic.
-/

namespace EagerLoad.Text.Hangul

/-- The first syllable. -/
def firstSyllable : Nat := 0xac00

/-- The first leading consonant. -/
def firstLeading : Nat := 0x1100

/-- The first vowel. -/
def firstVowel : Nat := 0x1161

/-- The code point before the first trailing consonant, which stands for none. -/
def noTrailing : Nat := 0x11a7

/-- The number of leading consonants. -/
def leadingCount : Nat := 19

/-- The number of vowels. -/
def vowelCount : Nat := 21

/-- The number of trailing consonants, none included. -/
def trailingCount : Nat := 28

/-- The place of a character in `count` consecutive ones. -/
def place? (first count : Nat) (c : Char) : Option Nat :=
  if first ≤ c.toNat ∧ c.toNat < first + count then some (c.toNat - first) else none

/-- The place of a syllable in its block. -/
def syllable? (c : Char) : Option Nat :=
  place? firstSyllable (leadingCount * vowelCount * trailingCount) c

/-- The consonants and the vowel of a syllable. -/
def parts? (c : Char) : Option (List Char) := do
  let place ← syllable? c
  let trailing := place % trailingCount
  let vowel := place / trailingCount % vowelCount
  let leading := place / trailingCount / vowelCount
  let spoken := [Char.ofNat (firstLeading + leading), Char.ofNat (firstVowel + vowel)]
  return if trailing = 0 then spoken else spoken ++ [Char.ofNat (noTrailing + trailing)]

/-- The syllable of a leading consonant and a vowel. -/
def ofLeadingVowel? (a b : Char) : Option Char := do
  let leading ← place? firstLeading leadingCount a
  let vowel ← place? firstVowel vowelCount b
  return Char.ofNat (firstSyllable + (leading * vowelCount + vowel) * trailingCount)

/-- The syllable of one without a trailing consonant and of that consonant. -/
def ofTrailing? (a b : Char) : Option Char := do
  let place ← syllable? a
  let trailing ← place? (noTrailing + 1) (trailingCount - 1) b
  if place % trailingCount = 0 then return Char.ofNat (a.toNat + trailing + 1) else none

/-- The syllable that two neighbours make. -/
def compose? (a b : Char) : Option Char :=
  (ofLeadingVowel? a b).or (ofTrailing? a b)

end EagerLoad.Text.Hangul
