/-!
# Entities and relations

An entity is stored in a table and exposes its primary key first, then its other columns. A relation
leads from the rows of one entity to rows of another, directly or through a junction table.
-/

namespace EagerLoad

/-- The names of a list that are not in `seen`, each once, in the order in which they first occur. -/
def freshNames (seen : List String) : List String → List String
  | [] => []
  | name :: rest =>
    if name ∈ seen then freshNames seen rest else name :: freshNames (name :: seen) rest

theorem not_mem_of_mem_freshNames {seen names : List String} {name : String}
    (h : name ∈ freshNames seen names) : name ∉ seen := by
  induction names generalizing seen with
  | nil => simp [freshNames] at h
  | cons first rest ih =>
    rw [freshNames] at h
    split at h
    · exact ih h
    · rename_i hfirst
      rcases List.mem_cons.mp h with rfl | h
      · exact hfirst
      · exact fun hseen => ih h (List.mem_cons_of_mem _ hseen)

theorem nodup_freshNames (seen names : List String) : (freshNames seen names).Nodup := by
  induction names generalizing seen with
  | nil => simp [freshNames]
  | cons first rest ih =>
    rw [freshNames]
    split
    · exact ih seen
    · refine List.nodup_cons.mpr ⟨fun h => ?_, ih _⟩
      exact not_mem_of_mem_freshNames h List.mem_cons_self

/-- A persisted record type. -/
structure Entity where
  /-- The name by which the entity is looked up. -/
  name : String
  /-- The table in which its rows are stored. -/
  table : String
  primaryKey : String
  /-- Every column, which should list the primary key first and no name twice. -/
  columns : List String

namespace Entity

/-- Declare an entity; the primary key and repeated names in `columns` are left out. -/
def declare (name table primaryKey : String) (columns : List String) : Entity where
  name := name
  table := table
  primaryKey := primaryKey
  columns := primaryKey :: freshNames [primaryKey] columns

/-- The columns are the primary key, once, and others, each once, as `declare` lists them. -/
def Declared (e : Entity) : Prop :=
  e.columns.head? = some e.primaryKey ∧ e.columns.Nodup

theorem declared_declare (name table primaryKey : String) (columns : List String) :
    (declare name table primaryKey columns).Declared :=
  ⟨rfl, List.nodup_cons.mpr
    ⟨fun h => not_mem_of_mem_freshNames h List.mem_cons_self, nodup_freshNames _ _⟩⟩

theorem Declared.primaryKey_mem {e : Entity} (h : e.Declared) : e.primaryKey ∈ e.columns :=
  List.mem_of_mem_head? h.1

/-- Whether the entity has a column of this name. -/
def hasColumn (e : Entity) (column : String) : Bool :=
  e.columns.contains column

end Entity

/-- How many targets a relation yields for one source. -/
inductive Cardinality where
  | one
  | many
  deriving DecidableEq

/-- Equalities between columns of a left and a right table. -/
abbrev JoinPairs := List (String × String)

/-- The left columns of a join. -/
def JoinPairs.left (pairs : JoinPairs) : List String :=
  pairs.map (·.1)

/-- The right columns of a join. -/
def JoinPairs.right (pairs : JoinPairs) : List String :=
  pairs.map (·.2)

/-- The table between the two sides of a relation. -/
structure Junction where
  table : String
  /-- Columns of this table with the columns of the target that equal them. -/
  target : JoinPairs
  deriving DecidableEq

/-- A relation as it is declared, between entities given by name. -/
structure Declaration where
  source : String
  name : String
  target : String
  cardinality : Cardinality
  /-- Source columns with target columns, or with junction columns if there is a junction. -/
  join : JoinPairs := []
  junction : Option Junction := none
  /-- The name of the opposite relation on the target. -/
  inverse : Option String := none
  deriving DecidableEq

namespace Declaration

/-- Join on one more pair of columns. -/
def on (d : Declaration) (source target : String) : Declaration :=
  { d with join := d.join ++ [(source, target)] }

/-- Join through a junction table, in place of earlier joins. -/
def through (d : Declaration) (table : String) (source target : String × String) : Declaration :=
  { d with join := [source], junction := some ⟨table, [target]⟩ }

/-- The name with the name of its source. -/
def qualifiedName (d : Declaration) : String :=
  d.source ++ "." ++ d.name

end Declaration

end EagerLoad
