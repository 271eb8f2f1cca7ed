import EagerLoad.Error
import EagerLoad.Schema.Entity

/-!
# Schemas

A schema lists entities and the relations between them. Entities and relations are named by their
positions, which are declaration order. `Schema.build` checks the declarations one after the other and
reports the first fault; inverses are checked last, since they may name later relations. As it goes, it
fills the maps by which a schema is searched: the entity of each name, and the relations of each source.
-/

namespace EagerLoad

/-- A relation between two of `n` entities. -/
structure Relation (n : Nat) where
  /-- Unique among the relations of the source. -/
  name : String
  source : Fin n
  target : Fin n
  cardinality : Cardinality
  /-- Source columns with target columns, or with junction columns if there is a junction. -/
  join : JoinPairs
  junction : Option Junction
  inverse : Option String
  deriving DecidableEq

/-- The positions of the relations that start at an entity. -/
def Relation.startingAt {n : Nat} (relations : List (Relation n)) (e : Fin n) : List Nat :=
  (relations.zipIdx.filter fun (r, _) => r.source = e).map (·.2)

theorem Relation.startingAt_concat {n : Nat} (relations : List (Relation n)) (r : Relation n) (e : Fin n) :
    startingAt (relations ++ [r]) e =
      startingAt relations e ++ if r.source = e then [relations.length] else [] := by
  by_cases h : r.source = e <;> simp [startingAt, List.zipIdx_append, h]

/-- Relations between `n` entities as they are registered, with what they are searched by. -/
structure Registry (n : Nat) where
  /-- The relations in the order in which they were registered. -/
  relations : List (Relation n)
  /-- For each entity the positions of the relations that start at it. -/
  adjacency : List (List Nat)
  /-- The sources and names of the relations. -/
  taken : List (Fin n × String)
  adjacency_eq : adjacency = (List.finRange n).map (Relation.startingAt relations)
  taken_eq : taken = relations.map fun r => (r.source, r.name)

namespace Registry

variable {n : Nat}

/-- The registry without relations. -/
def empty (n : Nat) : Registry n where
  relations := []
  adjacency := List.replicate n []
  taken := []
  adjacency_eq := List.ext_getElem (by simp) (by simp [Relation.startingAt])
  taken_eq := rfl

/-- The lists of the entities after one more relation, which is listed at its source only. -/
theorem adjacency_concat {adjacency : List (List Nat)} {relations : List (Relation n)}
    (h : adjacency = (List.finRange n).map (Relation.startingAt relations)) (r : Relation n) :
    adjacency.modify r.source (· ++ [relations.length]) =
      (List.finRange n).map (Relation.startingAt (relations ++ [r])) := by
  subst h
  refine List.ext_getElem (by simp) fun i hi _ => ?_
  have hin : i < n := by simpa using hi
  by_cases hsource : r.source = ⟨i, hin⟩
  · simp [Relation.startingAt_concat, hsource]
  · have hne : r.source.val ≠ i := fun heq => hsource (Fin.ext heq)
    simp [Relation.startingAt_concat, hsource, hne]

/-- Register a relation under the next position. -/
def add (g : Registry n) (r : Relation n) : Registry n where
  relations := g.relations ++ [r]
  adjacency := g.adjacency.modify r.source (· ++ [g.relations.length])
  taken := g.taken ++ [(r.source, r.name)]
  adjacency_eq := adjacency_concat g.adjacency_eq r
  taken_eq := by rw [g.taken_eq, List.map_append]; rfl

/-- The relations that start at an entity. -/
def startingAt (g : Registry n) (e : Fin n) : List (Relation n) :=
  (g.adjacency[e.val]?.getD []).filterMap fun i => g.relations[i]?

end Registry

/-- The positions of entities, each under its name. -/
abbrev NameMap (n : Nat) := List (String × Fin n)

/-- The name of each entity with its position. -/
def NameMap.ofEntities (entities : List Entity) : NameMap entities.length :=
  (List.finRange entities.length).map fun id => ((entities.get id).name, id)

theorem NameMap.lookup_ofEntities_eq_some {entities : List Entity} {name : String}
    {id : Fin entities.length} (h : (ofEntities entities).lookup name = some id) :
    (entities.get id).name = name := by
  obtain ⟨_, _, hsplit, -⟩ := List.lookup_eq_some_iff.mp h
  have hmem : (name, id) ∈ ofEntities entities := hsplit ▸ List.mem_append_right _ List.mem_cons_self
  obtain ⟨_, -, heq⟩ := List.mem_map.mp hmem
  cases heq
  rfl

theorem NameMap.lookup_ofEntities_eq_none {entities : List Entity} {name : String} :
    (ofEntities entities).lookup name = none ↔ ∀ e ∈ entities, e.name ≠ name := by
  rw [List.lookup_eq_none_iff]
  constructor
  · intro h e he heq
    obtain ⟨id, rfl⟩ := List.get_of_mem he
    have hother := h ((entities.get id).name, id) (List.mem_map.mpr ⟨id, List.mem_finRange id, rfl⟩)
    rw [heq, bne_self_eq_false] at hother
    cases hother
  · intro h entry hentry
    obtain ⟨id, -, rfl⟩ := List.mem_map.mp hentry
    simpa using (h _ (List.get_mem entities id)).symm

/-- Entities and the relations between them, each in declaration order. -/
structure Schema where
  entities : List Entity
  names : NameMap entities.length
  registry : Registry entities.length
  names_eq : names = .ofEntities entities

namespace Schema

/-- The schema of some entities and relations, which are not checked. -/
def ofRelations (entities : List Entity) (relations : List (Relation entities.length)) : Schema where
  entities := entities
  names := .ofEntities entities
  registry := ⟨relations, _, _, rfl, rfl⟩
  names_eq := rfl

@[simp] theorem entities_ofRelations (entities : List Entity)
    (relations : List (Relation entities.length)) : (ofRelations entities relations).entities = entities :=
  rfl

/-- An entity of the schema, by position. -/
abbrev EntityId (s : Schema) := Fin s.entities.length

/-- The relations of the schema. -/
abbrev relations (s : Schema) : List (Relation s.entities.length) :=
  s.registry.relations

/-- A relation of the schema, by position. -/
abbrev RelationId (s : Schema) := Fin s.relations.length

variable (s : Schema)

/-- The entity at a position. -/
def entity (id : s.EntityId) : Entity :=
  s.entities[id]

/-- The relation at a position. -/
def relation (id : s.RelationId) : Relation s.entities.length :=
  s.relations[id]

/-- Every entity is as `Entity.declare` makes it. -/
def Declared : Prop :=
  ∀ e ∈ s.entities, e.Declared

/-- The entity of a name. -/
def findEntity? (name : String) : Option s.EntityId :=
  s.names.lookup name

theorem name_of_findEntity? {s : Schema} {name : String} {id : s.EntityId}
    (h : s.findEntity? name = some id) : (s.entity id).name = name :=
  NameMap.lookup_ofEntities_eq_some (s.names_eq ▸ h)

theorem findEntity?_eq_none {s : Schema} {name : String} :
    s.findEntity? name = none ↔ ∀ e ∈ s.entities, e.name ≠ name := by
  rw [findEntity?, s.names_eq]
  exact NameMap.lookup_ofEntities_eq_none

/-- The entity of a name, or an error if there is none. -/
def entityNamed (name : String) : Except Error s.EntityId :=
  match s.findEntity? name with
  | some id => .ok id
  | none => .error (.schema s!"Unknown entity '{name}'")

/-- A number as the position of a relation. -/
def relationId? (i : Nat) : Option s.RelationId :=
  if h : i < s.relations.length then some ⟨i, h⟩ else none

/-- The relations that start at an entity, in declaration order. -/
def outgoing (source : s.EntityId) : List s.RelationId :=
  (s.registry.adjacency[source.val]?.getD []).filterMap s.relationId?

/-- The relation of a name that starts at an entity. -/
def relationNamed? (source : s.EntityId) (name : String) : Option s.RelationId :=
  (s.outgoing source).find? fun id => (s.relation id).name == name

end Schema

/-- Enter the names of further entities, and fail on the first that was entered before. -/
def NameMap.enter (entities : List Entity) (names : NameMap entities.length) :
    List (Fin entities.length) → Except SchemaError (NameMap entities.length)
  | [] => .ok names
  | id :: rest =>
    let name := (entities.get id).name
    match names.lookup name with
    | some _ => .error (.duplicateEntity name)
    | none => enter entities (names ++ [(name, id)]) rest

theorem NameMap.enter_eq {entities : List Entity} {names entered : NameMap entities.length}
    {ids : List (Fin entities.length)} (h : enter entities names ids = .ok entered) :
    entered = names ++ ids.map fun id => ((entities.get id).name, id) := by
  induction ids generalizing names with
  | nil =>
    cases h
    exact (List.append_nil _).symm
  | cons id rest ih =>
    rw [enter] at h
    split at h
    · cases h
    · rw [ih h, List.append_assoc]
      rfl

/-- Fail on the first of some columns that the entity does not have. -/
def Entity.checkJoin (e : Entity) (relation : String) (columns : List String) :
    Except SchemaError Unit :=
  match columns.find? fun column => !e.hasColumn column with
  | some column => .error (.unknownJoinColumn relation e.name column)
  | none => .ok ()

/-- Look an end of a relation up by name. -/
def Declaration.endpoint {n : Nat} (d : Declaration) (names : NameMap n) (name : String) :
    Except SchemaError (Fin n) :=
  match names.lookup name with
  | some id => .ok id
  | none => .error (.undeclaredEntity d.qualifiedName name)

/-- Fail unless every joined column exists: those of the source, and those of the target behind the
junction if there is one. -/
def Declaration.checkColumns (d : Declaration) (source target : Entity) :
    Except SchemaError Unit := do
  if d.join.isEmpty then
    throw (.invalidConfiguration s!"relationship '{d.qualifiedName}' has no join condition")
  source.checkJoin d.qualifiedName d.join.left
  match d.junction with
  | some junction =>
    if junction.target.isEmpty then
      throw (.invalidConfiguration s!"junction of '{d.qualifiedName}' has no join condition")
    target.checkJoin d.qualifiedName junction.target.right
  | none => target.checkJoin d.qualifiedName d.join.right

/-- The relation that a declaration stands for, given those registered before it. -/
def Declaration.resolve (entities : List Entity) (names : NameMap entities.length)
    (registry : Registry entities.length) (d : Declaration) :
    Except SchemaError (Relation entities.length) := do
  let source ← d.endpoint names d.source
  let target ← d.endpoint names d.target
  if (source, d.name) ∈ registry.taken then
    throw (.duplicateRelation d.source d.name)
  d.checkColumns entities[source] entities[target]
  return {
    name := d.name, source, target, cardinality := d.cardinality, join := d.join,
    junction := d.junction, inverse := d.inverse }

/-- Register the relations that declarations stand for, after those registered before. -/
def Declaration.resolveAll (entities : List Entity) (names : NameMap entities.length)
    (registry : Registry entities.length) :
    List Declaration → Except SchemaError (Registry entities.length)
  | [] => .ok registry
  | d :: rest => do
    let relation ← d.resolve entities names registry
    resolveAll entities names (registry.add relation) rest

/-- Fail unless the inverse of a relation, if it has one, is a relation of its target. -/
def Registry.checkInverse (entities : List Entity) (registry : Registry entities.length)
    (r : Relation entities.length) : Except SchemaError Unit :=
  match r.inverse with
  | none => .ok ()
  | some inverse =>
    if (registry.startingAt r.target).any (·.name == inverse) then .ok ()
    else .error (.missingInverse ((entities.get r.source).name ++ "." ++ r.name) inverse)

/-- The schema of some declarations, or the first fault among them. -/
def Schema.build (entities : List Entity) (declarations : List Declaration) :
    Except SchemaError Schema :=
  match hnames : NameMap.enter entities [] (List.finRange entities.length) with
  | .error e => .error e
  | .ok names => do
    let registry ← Declaration.resolveAll entities names (.empty _) declarations
    registry.relations.forM (registry.checkInverse entities)
    return ⟨entities, names, registry, NameMap.enter_eq hnames⟩

end EagerLoad
