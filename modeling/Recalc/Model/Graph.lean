namespace Recalc

abbrev NodeId := Nat

-- The dependent reads the precedent.
structure Edge where
  precedent : NodeId
  dependent : NodeId
  deriving DecidableEq, Repr

structure Graph where
  edges : List Edge
  deriving DecidableEq, Repr

namespace Graph

def empty : Graph := ⟨[]⟩

def add (g : Graph) (precedent dependent : NodeId) : Graph :=
  let edge : Edge := ⟨precedent,dependent⟩
  if edge ∈ g.edges then g else ⟨edge :: g.edges⟩

def dependents (g : Graph) (n : NodeId) : List NodeId :=
  (g.edges.filter fun e => e.precedent == n).map Edge.dependent

def precedents (g : Graph) (n : NodeId) : List NodeId :=
  (g.edges.filter fun e => e.dependent == n).map Edge.precedent

def visit (next : NodeId → List NodeId) : Nat → List NodeId → List NodeId → List NodeId
  | _, visited, [] => visited
  | 0, visited, _ => visited
  | steps + 1, visited, n :: pending =>
    if n ∈ visited then visit next steps visited pending
    else visit next steps (n :: visited) (next n ++ pending)

-- A node adds its successors once, so all edges and the first nodes bound the steps.
def closure (g : Graph) (next : NodeId → List NodeId) (start : List NodeId) : List NodeId :=
  visit next (start.length + g.edges.length) [] start

def downstream (g : Graph) (start : List NodeId) : List NodeId :=
  g.closure g.dependents (start.flatMap g.dependents)

-- Depth first along precedents. A node comes off the stack twice: when it is entered, and
-- marked, when all it leads to is finished. Meeting a node of the present path is a cycle.
def walk (next : NodeId → List NodeId) :
    Nat → List NodeId → List NodeId → List (NodeId × Bool) → Bool
  | _, _, _, [] => false
  | 0, _, _, _ => false
  | steps + 1, path, finished, (n,true) :: stack => walk next steps (path.erase n) (n :: finished) stack
  | steps + 1, path, finished, (n,false) :: stack =>
    if n ∈ finished then walk next steps path finished stack
    else
      let path := n :: path
      if (next n).any (· ∈ path) then true
      else
        let entered := ((next n).filter (· ∉ finished)).map fun p => (p,false)
        walk next steps path finished (entered ++ (n,true) :: stack)

def reachesCycle (g : Graph) (n : NodeId) : Bool :=
  walk g.precedents (3 * g.edges.length + 3) [] [] [(n,false)]

end Graph
end Recalc
