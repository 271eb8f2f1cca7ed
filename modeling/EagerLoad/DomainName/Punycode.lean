/-!
# Labels in ASCII

A label of any characters is written in ASCII as its ASCII characters, a hyphen, and digits in base 36.
The digits say, in ascending order of the other characters, how many steps to wait before the next one
is inserted: a step moves to the next place of the label and, past its end, to the next code point at
the first place. Numbers end at a digit below a limit that adapts to how large the last ones were.
-/

namespace EagerLoad.DomainName.Punycode

/-- The bound of all numbers that are read. -/
def bound : Nat := 0x100000000

/-- The value of a digit: the letters, then the ASCII digits. -/
def digitValue? (c : Char) : Option Nat :=
  if c.isLower then some (c.toNat - 'a'.toNat)
  else if c.isDigit then some (c.toNat - '0'.toNat + 26)
  else none

/-- The limit below which a digit ends its number. Positions count from 36 in steps of 36. -/
def limit (position bias : Nat) : Nat :=
  if position ≤ bias then 1 else if bias + 26 ≤ position then 26 else position - bias

/-- Divide a number until it is small; the bias grows with the number of divisions. -/
def biasOf (delta offset : Nat) : Nat :=
  if 455 < delta then biasOf (delta / 35) (offset + 36) else offset + 36 * delta / (delta + 38)
termination_by delta

/-- The bias after a wait of `delta` steps that made the label `count` characters long. -/
def adapt (delta count : Nat) (isFirst : Bool) : Nat :=
  let delta := if isFirst then delta / 700 else delta / 2
  biasOf (delta + delta / count) 0

/-- Add the number that begins some digits to `sum`. The digits behind it are left. -/
def readNumber (bias position weight sum : Nat) : List Char → Option (Nat × List Char)
  | [] => none
  | c :: rest => do
    let digit ← digitValue? c
    let sum := sum + digit * weight
    if bound ≤ sum then none
    else if digit < limit position bias then some (sum, rest)
    else
      let weight := weight * (36 - limit position bias)
      if bound ≤ weight then none else readNumber bias (position + 36) weight sum rest

/-- A number has at least one digit. -/
theorem length_lt_of_readNumber {bias position weight sum total : Nat} {digits rest : List Char}
    (h : readNumber bias position weight sum digits = some (total, rest)) :
    rest.length < digits.length := by
  induction digits generalizing position weight sum with
  | nil => simp [readNumber] at h
  | cons c tail ih =>
    simp only [readNumber, Option.bind_eq_bind, Option.bind_eq_some_iff] at h
    obtain ⟨digit, _, h⟩ := h
    split at h
    · simp at h
    · split at h
      · simp only [Option.some.injEq, Prod.mk.injEq] at h
        simp [h.2]
      · split at h
        · simp at h
        · exact Nat.lt_succ_of_lt (ih h)

/-- Insert the characters that digits describe, beginning at a place and a code point. -/
def insertAll (text : List Char) (code place bias : Nat) (digits : List Char) : Option (List Char) :=
  if digits.isEmpty then some text
  else
    match h : readNumber bias 36 1 place digits with
    | none => none
    | some (total, rest) =>
      let count := text.length + 1
      let code := code + total / count
      let bias := adapt (total - place) count (place = 0)
      if code.isValidChar then
        insertAll (text.insertIdx (total % count) (Char.ofNat code)) code (total % count + 1) bias rest
      else none
termination_by digits.length
decreasing_by exact length_lt_of_readNumber h

/-- The label that some ASCII characters write. The last hyphen ends the part that is taken over, which
must not be empty then. -/
def decode? (cs : List Char) : Option (List Char) :=
  let digits := (cs.reverse.takeWhile (· ≠ '-')).reverse
  let base := cs.take (cs.length - digits.length - 1)
  insertAll base 0x80 0 72 (if base.isEmpty then cs else digits)

end EagerLoad.DomainName.Punycode
