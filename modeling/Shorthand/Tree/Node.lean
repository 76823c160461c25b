import Shorthand.Span
import Shorthand.Tree.Kind

/-!
Syntax trees.

A node has a kind, the role it plays in its parent, a range of text, an optional spelling and its
children. Leaves are spelled by their text; in other nodes the text tells variants of one kind apart,
such as the operator of an infix expression. A part of the source that should be there and is not is a
node of kind `missing` with an empty range.

* `descendant?` and `withDescendant` read and replace the node at the end of a path of child indices.
  A replacement takes over the role of what it replaces.
* `nearestMissing` is the path to the missing part closest to an offset, read off the list
  `missingParts` of all of them.
-/

namespace Shorthand

/-- A syntax tree, or a part of one. -/
structure Node where
  kind : Kind
  role : Role
  span : Span
  text : Option String
  children : List Node
deriving Repr

/-- A way down from a node: at each step the index of a child. -/
abbrev Path := List Nat

namespace Node

/-! ### Building nodes -/

/-- A node without children that covers a range of text. -/
def leaf (kind : Kind) (span : Span) : Node := ⟨kind, .unplaced, span, none, []⟩

/-- A node that has no place in a text. -/
def detached (kind : Kind) : Node := leaf kind .detached

/-- The part in a role that is not there, where it should start. -/
def missing (role : Role) (offset : Nat) : Node := ⟨.missing, role, .empty offset, none, []⟩

instance : Inhabited Node := ⟨.missing .unplaced 0⟩

/-- The node in another role. -/
def inRole (n : Node) (role : Role) : Node := { n with role := role }

/-- The node with a text. -/
def withText (n : Node) (text : String) : Node := { n with text := some text }

/-- The node with other children. -/
def withChildren (n : Node) (children : List Node) : Node := { n with children := children }

/-- The node with one more child at the end. -/
def push (n : Node) (child : Node) : Node := { n with children := n.children ++ [child] }

/-! ### Looking at a node and its children -/

/-- The node is the place of something that is not there. -/
def isMissing (n : Node) : Bool := n.kind == .missing

/-- The text, or nothing. -/
def spelling (n : Node) : String := n.text.getD ""

/-- The first child in a role. -/
def child? (n : Node) (role : Role) : Option Node := n.children.find? (·.role == role)

/-- The index of the first child in a role. -/
def childIndex? (n : Node) (role : Role) : Option Nat := n.children.findIdx? (·.role == role)

/-- The children in a role. -/
def childrenWith (n : Node) (role : Role) : List Node := n.children.filter (·.role == role)

/-- The children in a role, each with its index among all children. -/
def indexedChildrenWith (n : Node) (role : Role) : List (Nat × Node) :=
  (n.children.zipIdx.filter (·.1.role == role)).map fun (c, i) => (i, c)

/-- The last word of the name of a declaration or access. -/
def name? (n : Node) : Option String := do
  let name ← n.child? .name
  match name.kind with
  | .simpleName => name.text
  | .qualifiedName => (← name.child? .name).text
  | _ => none

mutual

/-- The dotted spelling of a name. -/
def qualifiedName? : Node → Option String
  | ⟨.simpleName, _, _, text, _⟩ => text
  | ⟨.qualifiedName, _, _, _, children⟩ => do
    let qualifier ← qualifierIn? children
    let name ← (← children.find? (·.role == .name)).text
    return qualifier ++ "." ++ name
  | _ => none

/-- The dotted spelling of the first qualifier among some nodes. -/
def qualifierIn? : List Node → Option String
  | [] => none
  | c :: cs => if c.role = .qualifier then qualifiedName? c else qualifierIn? cs

end

/-- The declaration carries a modifier. -/
def hasModifier (n : Node) (keyword : String) : Bool :=
  (n.childrenWith .modifier).any fun m => m.kind == .modifier && m.spelling == keyword

/-! ### Missing parts -/

mutual

/-- The node or a part of it is missing. -/
def containsMissing : Node → Bool
  | ⟨kind, _, _, _, children⟩ => kind == .missing || anyMissing children

/-- One of the nodes has a missing part. -/
def anyMissing : List Node → Bool
  | [] => false
  | c :: cs => containsMissing c || anyMissing cs

end

mutual

/-- A part is missing at an offset. -/
def hasMissingAt (offset : Nat) : Node → Bool
  | ⟨kind, _, span, _, children⟩ =>
    if kind = .missing then span.start == offset else anyMissingAt offset children

/-- One of the nodes has a part missing at an offset. -/
def anyMissingAt (offset : Nat) : List Node → Bool
  | [] => false
  | c :: cs => hasMissingAt offset c || anyMissingAt offset cs

end

mutual

/-- The missing parts of a node that do not lie in other missing parts, in the order of the tree: for
each the path to it and its offset. -/
def missingParts : Node → List (Path × Nat)
  | ⟨kind, _, span, _, children⟩ =>
    if kind = .missing then [([], span.start)] else missingPartsFrom 0 children

/-- The missing parts of the children from index `i` on. -/
def missingPartsFrom (i : Nat) : List Node → List (Path × Nat)
  | [] => []
  | c :: cs =>
    (missingParts c).map (fun (path, offset) => (i :: path, offset)) ++ missingPartsFrom (i + 1) cs

end

/-- How far apart two offsets are. -/
def distance (a b : Nat) : Nat := (a - b) + (b - a)

/-- The path to the missing part closest to an offset, the first one of several. -/
def nearestMissing (n : Node) (offset : Nat) : Option Path :=
  (n.missingParts.foldl closer none).map (·.1)
where
  /-- Keeps the closest part seen so far. -/
  closer : Option (Path × Nat) → Path × Nat → Option (Path × Nat)
    | none, part => some part
    | some best, part =>
      some (if distance part.2 offset < distance best.2 offset then part else best)

/-! ### Reading and replacing descendants -/

/-- The node at the end of a path. -/
def descendant? (n : Node) : Path → Option Node
  | [] => some n
  | i :: path => do (← n.children[i]?).descendant? path

/-- The node with the child at an index replaced, if there is one. -/
def withChild (n : Node) (index : Nat) (replacement : Node) : Node :=
  { n with children := n.children.modify index fun c => replacement.inRole c.role }

/-- The node with one more child, before the one at an index or after all of them. -/
def withInsertedChild (n : Node) (index : Nat) (child : Node) : Node :=
  { n with children := n.children.insertIdx (min index n.children.length) child }

/-- The node with the one at the end of a path replaced, if there is one. -/
def withDescendant (n : Node) (path : Path) (replacement : Node) : Node :=
  match path with
  | [] => replacement.inRole n.role
  | i :: path =>
    match n.children[i]? with
    | some c => n.withChild i (c.withDescendant path replacement)
    | none => n

mutual

/-- The node and all below it, each before what is below it. -/
def descendants : Node → List Node
  | ⟨kind, role, span, text, children⟩ =>
    ⟨kind, role, span, text, children⟩ :: descendantsOfAll children

/-- All the nodes of several trees. -/
def descendantsOfAll : List Node → List Node
  | [] => []
  | c :: cs => descendants c ++ descendantsOfAll cs

end

/-! ### Trees without their places in the text -/

mutual

/-- The node with every range taken out, which is what remains of it when it is read from another
text. -/
def unplace : Node → Node
  | ⟨kind, role, _, text, children⟩ => ⟨kind, role, .detached, text, unplaceAll children⟩

/-- Each node without its ranges. -/
def unplaceAll : List Node → List Node
  | [] => []
  | c :: cs => unplace c :: unplaceAll cs

end

end Node

end Shorthand
