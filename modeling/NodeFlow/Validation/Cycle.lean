import NodeFlow.Graph
/-!
# Cycles

A node depends on the nodes its inputs are connected to. The search for a
cycle follows dependencies depth first, from every node that it has not come
to yet. It is a loop over a stack of half-followed nodes, with the path that
leads to the last of them and a mark on each node it has come to. A
dependency on a node of the path closes a cycle, which is read off the path.
-/

namespace NodeFlow

/-- How far the search has come with a node. -/
inductive Mark where
  /-- It stands on the path, and is being followed. -/
  | followed
  /-- It is finished. -/
  | done
  deriving DecidableEq

/-- Where the search is. -/
structure Search where
  /-- The nodes that are being followed, the last one first, each with the dependencies that are
  still to be looked at. -/
  stack : List (String × List String)
  /-- The nodes that are being followed, the first one first. -/
  path : List String
  /-- The nodes that the search has come to. -/
  marks : Dict Mark

namespace Search

/-- Begins to follow a node. -/
def enter (adjacent : String → List String) (s : Search) (id : String) : Search where
  stack := (id, adjacent id) :: s.stack
  path := s.path ++ [id]
  marks := s.marks.insert id .followed

/-- Looks at one more dependency of the last node, or finishes it. A dependency on a node of the
path is a cycle. -/
def step (adjacent : String → List String) (s : Search) : Except (List String) Search :=
  match s.stack with
  | [] => .ok s
  | (id, []) :: rest =>
    .ok { stack := rest, path := s.path.dropLast, marks := s.marks.insert id .done }
  | (id, next :: later) :: rest =>
    match s.marks.get? next with
    | some .followed => .error (s.path.dropWhile (· ≠ next) ++ [next])
    | some .done => .ok { s with stack := (id, later) :: rest }
    | none => .ok ({ s with stack := (id, later) :: rest }.enter adjacent next)

/-- Goes on until no node is being followed, for a number of steps at most. -/
def run (adjacent : String → List String) : Nat → Search → Except (List String) Search
  | 0, s => .ok s
  | steps + 1, s => if s.stack.isEmpty then .ok s else (s.step adjacent).bind (run adjacent steps)

/-- The steps that nodes take: one for each dependency, and one to finish it. -/
def cost (adjacent : String → List String) (ids : List String) : Nat :=
  ids.foldr (fun id steps => (adjacent id).length + 1 + steps) 0

/-- Follows a node, unless the search has come to it before. -/
def follow (adjacent : String → List String) (ids : List String) (marks : Dict Mark)
    (root : String) : Except (List String) (Dict Mark) :=
  if marks.contains root then .ok marks
  else (run adjacent (cost adjacent ids) (enter adjacent ⟨[], [], marks⟩ root)).map Search.marks

/-- Follows all nodes, one after the other. The result is a cycle, or the marks on all of them. -/
def followAll (adjacent : String → List String) (ids : List String) :
    Except (List String) (Dict Mark) :=
  ids.foldlM (follow adjacent ids) .empty

end Search

namespace Graph

/-- The nodes that a node depends on, in the order of its inputs. -/
def dependencies (g : Graph) (id : String) : List String :=
  match g.node? id with
  | some n => (n.links.map fun l => l.2.source).filter g.has
  | none => []

/-- A cycle, from a node back to it. -/
def cycle? (g : Graph) : Option (List String) :=
  match Search.followAll g.dependencies g.nodes.keys with
  | .error cycle => some cycle
  | .ok _ => none

end Graph

end NodeFlow
