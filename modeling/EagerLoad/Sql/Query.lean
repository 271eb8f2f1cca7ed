import EagerLoad.Value

/-!
# Rendered statements

Statements are laid out as pieces: fixed text, identifiers and values. One pass over the pieces writes
the text and numbers the placeholders from left to right, so a statement and everything nested in it
share one numbering. A null is written inline and is not bound.
-/

namespace EagerLoad.Sql

/-- A piece of a statement. -/
inductive Piece where
  /-- Text written as it stands. -/
  | text (s : String)
  /-- An identifier, written between double quotes. -/
  | name (s : String)
  /-- A value to bind. -/
  | param (v : Value)

/-- A statement with the values of its placeholders `$1`, `$2` and so on. -/
structure Query where
  sql : String
  params : List Value

/-- An identifier between double quotes; a quote inside it is written twice. -/
def quoteName (name : String) : String :=
  "\"" ++ String.ofList (name.toList.flatMap fun c => if c = '"' then ['"', '"'] else [c]) ++ "\""

/-- Write out pieces when `bound` values are bound already. -/
def Piece.writeFrom (bound : Nat) : List Piece → Query
  | [] => ⟨"", []⟩
  | .text s :: rest =>
    let tail := writeFrom bound rest
    ⟨s ++ tail.sql, tail.params⟩
  | .name s :: rest =>
    let tail := writeFrom bound rest
    ⟨quoteName s ++ tail.sql, tail.params⟩
  | .param v :: rest =>
    if v.isNull then
      let tail := writeFrom bound rest
      ⟨"NULL" ++ tail.sql, tail.params⟩
    else
      let tail := writeFrom (bound + 1) rest
      ⟨"$" ++ toString (bound + 1) ++ tail.sql, v :: tail.params⟩

/-- The statement made of pieces. -/
def Query.ofPieces (pieces : List Piece) : Query :=
  Piece.writeFrom 0 pieces

/-- Groups of pieces with a text between each two. -/
def separated (separator : String) (groups : List (List Piece)) : List Piece :=
  [Piece.text separator].intercalate groups

end EagerLoad.Sql
