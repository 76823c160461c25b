import Shorthand.Tree.Node

/-!
The nodes of a tree around an offset.

A `TreePath` leads from the root to the innermost node that covers an offset. Its nodes are counted
from the root, which has depth 0. `rebuild` replaces a node of the path and rebuilds all above it.
-/

namespace Shorthand

namespace Node

/-- The node has the offset between its ends, or lacks a part there; a missing node covers nothing. -/
def covers (n : Node) (offset : Nat) : Bool :=
  !n.isMissing && (n.span.strictlyContains offset || n.hasMissingAt offset)

mutual

/-- The nodes below `n` that lead to an offset, each with its index in its parent. -/
def stepsTo (offset : Nat) : Node → List (Nat × Node)
  | ⟨_, _, _, _, children⟩ => stepsAmong offset 0 children

/-- The first of the children from index `i` on that covers an offset, and the way on from there. -/
def stepsAmong (offset i : Nat) : List Node → List (Nat × Node)
  | [] => []
  | c :: cs => if c.covers offset then (i, c) :: stepsTo offset c else stepsAmong offset (i + 1) cs

end

end Node

/-- A chain of nodes, each a child of the one before. -/
structure TreePath where
  root : Node
  /-- The nodes below the root, each with its index in its parent. -/
  steps : List (Nat × Node)

namespace TreePath

/-- The way from the root of a tree to the innermost node that covers an offset. -/
def ofOffset (root : Node) (offset : Nat) : TreePath := ⟨root, root.stepsTo offset⟩

/-- All nodes, the root first. -/
def nodes (p : TreePath) : List Node := p.root :: p.steps.map (·.2)

/-- The child indices that lead from the root to the last node. -/
def indices (p : TreePath) : Path := p.steps.map (·.1)

/-- The last node. -/
def leaf (p : TreePath) : Node := (p.steps.getLast?.map (·.2)).getD p.root

/-- The depth of the last node. -/
def leafDepth (p : TreePath) : Nat := p.steps.length

/-- The node at a depth. -/
def node? (p : TreePath) (depth : Nat) : Option Node := p.nodes[depth]?

/-- The index in its parent of the node at a depth; the root has none. -/
def indexInParent? (p : TreePath) : (depth : Nat) → Option Nat
  | 0 => none
  | depth + 1 => p.indices[depth]?

/-- The nodes with their depths, from the last to the root. -/
def ancestors (p : TreePath) : List (Nat × Node) :=
  (p.nodes.zipIdx.map fun (n, depth) => (depth, n)).reverse

/-- The tree with the node at a depth replaced; a depth past the last node stands for the last. -/
def rebuild (p : TreePath) (depth : Nat) (replacement : Node) : Node :=
  let depth := min depth p.leafDepth
  ((p.nodes.zip p.indices).take depth).foldr (fun (parent, i) child => parent.withChild i child)
    (replacement.inRole ((p.node? depth).getD p.root).role)

end TreePath

end Shorthand
