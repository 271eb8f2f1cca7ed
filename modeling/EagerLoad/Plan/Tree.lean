import EagerLoad.Plan.Basic

/-!
# The tree of a plan

The nodes of a plan hang together by parent numbers. `Plan.tree` is the same data as a tree, on which
hydration recurses. Children stand in the order in which they were attached.
-/

namespace EagerLoad

/-- A node with what is loaded below it. -/
inductive LoadTree where
  | node (info : Node) (children : List LoadTree)

namespace LoadTree

/-- The node at the top. -/
def info : LoadTree → Node
  | .node info _ => info

/-- The subtrees below the top. -/
def children : LoadTree → List LoadTree
  | .node _ children => children

mutual

/-- Attach a node without children under the node whose number is its parent, after the children that
are there. -/
def attach (n : Node) : LoadTree → LoadTree
  | .node info children =>
    .node info (attachBelow n children ++ if n.parent = some info.id then [.node n []] else [])

/-- Attach a node in each of some subtrees. -/
def attachBelow (n : Node) : List LoadTree → List LoadTree
  | [] => []
  | tree :: rest => tree.attach n :: attachBelow n rest

end

mutual

/-- The first subtree whose top has a number. -/
def find? (id : Nat) : LoadTree → Option LoadTree
  | .node info children =>
    if info.id = id then some (.node info children) else findBelow? id children

/-- The first subtree of some trees whose top has a number. -/
def findBelow? (id : Nat) : List LoadTree → Option LoadTree
  | [] => none
  | tree :: rest => (tree.find? id).or (findBelow? id rest)

end

end LoadTree

/-- The nodes of a plan as a tree. -/
def Plan.tree (p : Plan) : LoadTree :=
  p.others.foldl (fun tree n => tree.attach n) (.node p.root [])

end EagerLoad
