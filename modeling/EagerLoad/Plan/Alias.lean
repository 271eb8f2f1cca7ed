/-!
# Table aliases

Every table that a compilation refers to gets an alias of its own: the first letter of the table's name
and a number that counts all tables of the compilation.
-/

namespace EagerLoad

/-- An ASCII letter in lower case. -/
def lowerLetter? (c : Char) : Option Char :=
  if 0x61 ≤ c.toNat ∧ c.toNat ≤ 0x7a then some c
  else if 0x41 ≤ c.toNat ∧ c.toNat ≤ 0x5a then some (Char.ofNat (c.toNat + 0x20))
  else none

/-- The letter that starts the aliases of a table: its first ASCII letter in lower case. -/
def aliasLetter (table : String) : Char :=
  (table.toList.findSome? lowerLetter?).getD 't'

/-- The aliases given out so far. -/
structure AliasSupply where
  /-- How many aliases have been given out. -/
  used : Nat
  deriving DecidableEq

namespace AliasSupply

/-- A supply from which nothing has been given out. -/
def fresh : AliasSupply := ⟨0⟩

/-- An alias for a table, and the supply that remains. -/
def take (supply : AliasSupply) (table : String) : String × AliasSupply :=
  (String.ofList [aliasLetter table] ++ toString supply.used, ⟨supply.used + 1⟩)

/-- Aliases for several tables, one after the other. -/
def takeAll (supply : AliasSupply) : List String → List String
  | [] => []
  | table :: rest => (supply.take table).1 :: (supply.take table).2.takeAll rest

end AliasSupply

end EagerLoad
