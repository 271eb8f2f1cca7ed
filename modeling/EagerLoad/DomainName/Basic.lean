import EagerLoad.DomainName.Direction
import EagerLoad.DomainName.Joiner
import EagerLoad.DomainName.Mapping
import EagerLoad.DomainName.Punycode
import EagerLoad.Text.Composition

/-!
# Domain names

A domain name is read as labels between points. Its characters are mapped and composed first, so that all
spellings of a name have the same labels, and labels written in ASCII are decoded. A name is refused if a
character of it is refused, if a label is not well formed, or if directions of writing are mixed.
-/

namespace EagerLoad.DomainName

/-- The ASCII characters that no label may hold. -/
def isForbidden (c : Char) : Bool :=
  c.toNat ≤ 0x20 || c.toNat = 0x7f ||
    ['%', '#', '/', ':', '<', '>', '?', '@', '[', '\\', ']', '^', '|'].contains c

/-- Whether a character is in ASCII. -/
def isAscii (c : Char) : Bool := c.toNat < 0x80

/-- The mark of a label that is written in ASCII for other characters. -/
def encodingMark : List Char := ['x', 'n', '-', '-']

/-- The length of the longest decoded label that is not in ASCII. -/
def maxLength : Nat := 1000

/-- The length of the longest text that is decoded. -/
def maxEncodedLength : Nat := 2000

/-- Decode what stands behind the mark of an encoded label. What it stands for must be a label that
would have been left as it is. -/
def decoded? (cs : List Char) : Option (List Char) := do
  guard (cs.all isAscii && cs.getLast?.any (· ≠ '-') && cs.length ≤ maxEncodedLength)
  let label ← Punycode.decode? cs
  guard (label.all isKept && Text.composed label = label)
  return label

/-- Whether a decoded label is well formed. -/
def isLabel (label : List Char) : Bool :=
  !label.any isForbidden && !label.head?.any Text.isMark && joinersAllowed [] label &&
    (label.all isAscii || label.length ≤ maxLength)

/-- The label that some mapped and composed characters stand for. -/
def label? (cs : List Char) : Option (List Char) :=
  let label := if encodingMark.isPrefixOf cs then decoded? (cs.drop encodingMark.length) else some cs
  label.filter isLabel

/-- Whether no two directions of writing are mixed. -/
def hasClearDirection (labels : List (List Char)) : Bool :=
  labels.all runsOneWay || !labels.any fun label => label.any fun c => (Direction.of c).isFromRight

/-- The labels of a domain name, unless it is refused. -/
def labels? (cs : List Char) : Option (List (List Char)) := do
  let mapped ← cs.mapM mapped?
  let labels ← ((Text.composed mapped.flatten).splitOn '.').mapM label?
  guard (hasClearDirection labels)
  return labels

end EagerLoad.DomainName
