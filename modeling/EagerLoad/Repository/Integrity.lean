import EagerLoad.Error
import EagerLoad.Text.Basic

/-!
# Constraint violations

A violation that mentions a declared unique column is a conflict over that column. The columns are
tried in the order in which they were declared.
-/

namespace EagerLoad

/-- The columns that are declared unique, in order. -/
structure Uniques where
  columns : List String
  deriving DecidableEq

namespace Uniques

/-- No unique column. -/
def none : Uniques := ⟨[]⟩

/-- Declare one more column unique. -/
def declare (u : Uniques) (column : String) : Uniques :=
  ⟨u.columns ++ [column]⟩

/-- Whether a violation mentions a column, in the constraint's name or in the message. -/
def mentions (constraint : Option String) (message column : String) : Bool :=
  (match constraint with
    | some name => Text.contains name column
    | .none => false)
  || Text.contains message column

/-- Turn a constraint violation into a conflict over the first column that it mentions, or into a
database error if it mentions none. Other errors stay as they are. -/
def translate (u : Uniques) : Error → Error
  | .integrity constraint message =>
    match u.columns.find? (mentions constraint message) with
    | some column => .conflict s!"{column} already in use"
    | .none => .database "unclassified integrity violation"
  | other => other

end Uniques

end EagerLoad
