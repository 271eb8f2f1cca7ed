import EagerLoad.Schema.Basic

/-!
# Paths to a relation

Breadth-first search for the shortest chain of relations that starts at an entity and ends in a
relation of a given name. Every entity is explored at most once, so the search ends on cyclic schemas.
Relations are tried in declaration order, which settles ties.
-/

namespace EagerLoad

namespace Schema

variable (s : Schema)

/-- The relations that start at an entity, each after the path to that entity. -/
def extensions (source : s.EntityId) (path : List s.RelationId) :
    List (s.EntityId × List s.RelationId) :=
  (s.outgoing source).map fun id => ((s.relation id).target, path ++ [id])

/-- Explore queued entities, of which only those in `unexplored` are still of interest, until a relation
named `name` leaves one of them. The result is the path to it, and empty if there is none. -/
def search (name : String) (unexplored : List s.EntityId) :
    List (s.EntityId × List s.RelationId) → List s.RelationId
  | [] => []
  | (here, path) :: queue =>
    if here ∈ unexplored then
      match s.relationNamed? here name with
      | some id => path ++ [id]
      | none =>
        let remaining := unexplored.erase here
        search name remaining
          (queue ++ (s.extensions here path).filter fun next => next.1 ∈ remaining)
    else search name unexplored queue
termination_by queue => (unexplored.length, queue.length)
decreasing_by
  · have := List.length_pos_of_mem ‹here ∈ unexplored›
    rw [List.length_erase_of_mem ‹here ∈ unexplored›]
    exact Prod.Lex.left _ _ (by omega)
  · exact Prod.Lex.right _ (by simp)

/-- The shortest path from `root` to a relation named `name`, empty if none leads there. -/
def path (root : s.EntityId) (name : String) : List s.RelationId :=
  s.search name (List.finRange s.entities.length) [(root, [])]

end Schema

end EagerLoad
