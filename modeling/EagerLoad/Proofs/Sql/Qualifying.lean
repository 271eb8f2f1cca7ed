import EagerLoad.Proofs.Sql.Normal

/-!
# Qualified conditions

To qualify a condition is to settle to which alias its unqualified columns belong. Whatever has been written
before, and whatever unqualified columns belong to there, the qualified condition is written as the
condition itself is under that alias, with the same placeholders and the same parameters. To qualify it once
more changes nothing.
-/

namespace EagerLoad.Sql

namespace Query

/-- A statement as far as it is written, with pieces written behind it. Their placeholders go on with the
numbers of the parameters that are there. -/
def write (q : Query) (pieces : List Piece) : Query :=
  let tail := Piece.writeFrom q.params.length pieces
  ⟨q.sql ++ tail.sql, q.params ++ tail.params⟩

/-- Pieces behind others are written where those in front have been written. -/
theorem write_append (q : Query) (front back : List Piece) :
    q.write (front ++ back) = (q.write front).write back := by
  simp only [write, Piece.params_writeFrom, Piece.sql_append, Piece.bound_append, List.length_append,
    String.append_assoc, List.append_assoc]

/-- A statement is written from nothing. -/
theorem ofPieces_eq_write (pieces : List Piece) : ofPieces pieces = (ofPieces []).write pieces := by
  simp [ofPieces, write, Piece.writeFrom]

/-- The rest of a statement is written where its front has been written. -/
theorem ofPieces_append (front back : List Piece) :
    ofPieces (front ++ back) = (ofPieces front).write back := by
  rw [ofPieces_eq_write, write_append, ← ofPieces_eq_write]

end Query

section Qualified

variable {a b : String}

/-- A column is qualified once. -/
theorem Column.qualified_qualified (c : Column) : (c.qualified a).qualified b = c.qualified a := rfl

/-- A condition is qualified once. -/
theorem Condition.qualified_qualified (c : Condition) : (c.qualified a).qualified b = c.qualified a := by
  have hall (items : List Condition) (ih : ∀ c ∈ items, (c.qualified a).qualified b = c.qualified a) :
      qualifiedAll b (qualifiedAll a items) = qualifiedAll a items := by
    rw [qualifiedAll_eq_map, qualifiedAll_eq_map, List.map_map]
    exact List.map_congr_left ih
  induction c using induction with
  | compare column operator v => simp only [qualified, Column.qualified_qualified]
  | inList column values negated => simp only [qualified, Column.qualified_qualified]
  | isNull column negated => simp only [qualified, Column.qualified_qualified]
  | columnsEqual left right => simp only [qualified, Column.qualified_qualified]
  | and items ih => rw [qualified, qualified, hall items ih]
  | or items ih => rw [qualified, qualified, hall items ih]
  | not c ih => rw [qualified, qualified, ih]
  | literal truth => rfl

/-- A qualified condition is written like the condition under the alias, behind whatever has been written
and whatever unqualified columns belong to there, also at any place of a statement. It is qualified once and
for all. -/
theorem Condition.write_qualified (c : Condition) (a b : String) (scope : Option String) :
    (∀ q : Query, q.write ((c.qualified a).pieces scope) = q.write (c.pieces (some a))) ∧
      (∀ front back, Query.ofPieces (front ++ (c.qualified a).pieces scope ++ back) =
        ((Query.ofPieces front).write (c.pieces (some a))).write back) ∧
      (c.qualified a).qualified b = c.qualified a := by
  refine ⟨fun q => ?_, fun front back => ?_, c.qualified_qualified⟩
  · rw [pieces_qualified]
  · rw [pieces_qualified, Query.ofPieces_append, Query.ofPieces_append]

/-- An explicit qualifier stays, and the placeholder goes on with the number of the parameter that is
there. -/
example :
    (Query.mk "SELECT $1 WHERE " [.bool true]).write (((Condition.and
        [.compare (.bare "name") .equal (.text "admin"),
          .columnsEqual (.of "r1" "uuid") (.bare "role_uuid")]).qualified "u2").pieces (some "t0")) =
      ⟨"SELECT $1 WHERE (\"u2\".\"name\" = $2 AND \"r1\".\"uuid\" = \"u2\".\"role_uuid\")",
        [.bool true, .text "admin"]⟩ := by
  rfl

end Qualified

end EagerLoad.Sql
