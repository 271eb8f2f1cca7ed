import EagerLoad.Error
import EagerLoad.Value

/-!
# Result rows

A row is a list of named columns, of which some may hold what cannot be decoded. Names may repeat: look-up
by name finds the first column of the name, while the JSON form and the map of a row keep the last.
-/

namespace EagerLoad

/-- A traversal that fails fails at one of the elements. -/
theorem exists_of_mapM_eq_error {α β ε : Type} {f : α → Except ε β} {l : List α} {e : ε}
    (h : l.mapM f = .error e) : ∃ a ∈ l, f a = .error e := by
  induction l with
  | nil => cases h
  | cons a rest ih =>
    rw [List.mapM_cons] at h
    cases ha : f a with
    | error e' =>
      rw [ha] at h
      cases h
      exact ⟨a, List.mem_cons_self, ha⟩
    | ok b =>
      rw [ha] at h
      cases hrest : rest.mapM f with
      | error e' =>
        simp only [hrest] at h
        cases h
        obtain ⟨a', hmem, ha'⟩ := ih hrest
        exact ⟨a', List.mem_cons_of_mem _ hmem, ha'⟩
      | ok bs =>
        simp only [hrest] at h
        cases h

/-- What a column of a result row holds. -/
inductive Cell where
  | value (v : Value)
  /-- Nothing that can be decoded, for a reason. -/
  | undecodable (reason : String)

/-- The value of a cell; what cannot be decoded is an error of the query. -/
def Cell.read : Cell → Except Error Value
  | .value v => .ok v
  | .undecodable reason => .error (.query reason)

/-- A result row: its columns, in order. -/
structure Row where
  columns : List (String × Cell)

namespace Row

/-- A row whose values are at hand. -/
def ofValues (columns : List (String × Value)) : Row :=
  ⟨columns.map fun column => (column.1, .value column.2)⟩

/-- The value of the column at a position. -/
def atIndex (row : Row) (index : Nat) : Except Error Value :=
  match row.columns[index]? with
  | some column => column.2.read
  | none => .error (.query s!"Column index {index} out of range")

/-- The value of the first column of a name. -/
def named (row : Row) (name : String) : Except Error Value :=
  match row.columns.lookup name with
  | some cell => cell.read
  | none => .error (.query s!"Column '{name}' not found")

/-- The number of columns. -/
def size (row : Row) : Nat :=
  row.columns.length

/-- The names of the columns, in order. -/
def names (row : Row) : List String :=
  row.columns.map (·.1)

/-- The columns with their values, or the error of the first that cannot be decoded. -/
def decoded (row : Row) : Except Error (List (String × Value)) :=
  row.columns.mapM fun column => do return (column.1, ← column.2.read)

/-- The columns by name; of equal names the last one counts. -/
def toMap (row : Row) : Except Error (KeyMap Value) := do
  return .ofList (← row.decoded)

/-- The row as a JSON object. -/
def toJson (row : Row) : Except Error Json := do
  return .object ((← row.decoded).map fun column => (column.1, column.2.toJson))

/-- The row of a JSON object, one column for each field. -/
def ofJson : Json → Except Error Row
  | .obj fields => .ok (.ofValues (fields.map fun field => (field.1, Value.ofJson field.2)))
  | _ => .error (.serialization "row must be a JSON object")

/-- All columns of a row of values can be decoded. -/
@[simp] theorem decoded_ofValues (columns : List (String × Value)) :
    (ofValues columns).decoded = .ok columns := by
  rw [ofValues, decoded, List.mapM_map]
  exact List.mapM_pure.trans (congrArg _ (List.map_id columns))

theorem named_ofValues {columns : List (String × Value)} {name : String} {v : Value}
    (h : columns.lookup name = some v) : (ofValues columns).named name = .ok v := by
  have hlookup : (ofValues columns).columns.lookup name = (columns.lookup name).map .value := by
    clear h
    induction columns with
    | nil => rfl
    | cons column rest ih =>
      rw [ofValues, List.map_cons, List.lookup_cons, List.lookup_cons]
      cases name == column.1 with
      | true => rfl
      | false => exact ih
  rw [named, hlookup, h]
  rfl

/-- A row that cannot be decoded has a cell that gives the reason. -/
theorem exists_of_decoded_eq_error {row : Row} {e : Error} (h : row.decoded = .error e) :
    ∃ column ∈ row.columns, ∃ reason, column.2 = .undecodable reason ∧ e = .query reason := by
  obtain ⟨column, hcolumn, hread⟩ := exists_of_mapM_eq_error h
  obtain ⟨name, v | reason⟩ := column
  · cases hread
  · cases hread
    exact ⟨_, hcolumn, reason, rfl, rfl⟩

/-- The JSON form fails where a column cannot be decoded, and with nothing else. -/
theorem exists_of_toJson_eq_error {row : Row} {e : Error} (h : row.toJson = .error e) :
    ∃ column ∈ row.columns, ∃ reason, column.2 = .undecodable reason ∧ e = .query reason := by
  rw [toJson] at h
  cases hdecoded : row.decoded with
  | error e' =>
    rw [hdecoded] at h
    cases h
    exact exists_of_decoded_eq_error hdecoded
  | ok columns =>
    rw [hdecoded] at h
    cases h

end Row

end EagerLoad
