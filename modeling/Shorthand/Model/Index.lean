import Shorthand.Model.TypeInfo
import Shorthand.Tree.TreePath

/-!
What is known about a text and the types around it.

An `Index` holds the tree of a text, the types that come from elsewhere and, once it is resolved, the
header of the text and the types that the text declares. A type of the text hides one from elsewhere
that has the same qualified name, and of two types with one name from the same place the later counts:
`lookup?` says which type a name stands for and `allTypes` lists the types that are not hidden by the
text.
-/

namespace Shorthand

/-- An import of a text. -/
structure Import where
  /-- The type, package or static member that is imported. -/
  name : String
  isStatic : Bool
  /-- All that the name contains is imported. -/
  onDemand : Bool
deriving DecidableEq, Repr

/-- A type that a text declares. -/
structure SourceType where
  info : TypeInfo
  /-- The declaration in the tree. -/
  declaration : Node
  /-- The methods and constructors that are written down, with their places. -/
  callables : List (Span × MethodInfo)

/-- What is known about a text. -/
structure Index where
  /-- The tree of the text. -/
  tree : Node
  /-- The types from elsewhere. -/
  library : List TypeInfo
  /-- The header and the types of the text have been gone through. -/
  resolved : Bool
  package : String
  imports : List Import
  sources : List SourceType

namespace Index

/-- What is known about a text before it is gone through. -/
def ofTree (tree : Node) (library : List TypeInfo) : Index :=
  { tree, library, resolved := false, package := "", imports := [], sources := [] }

/-! ### Types by name -/

/-- The last type with a qualified name among some types. -/
def lastNamed? (name : String) (types : List TypeInfo) : Option TypeInfo :=
  types.foldl (fun found t => if t.name == name then some t else found) none

/-- The types that the text declares. -/
def sourceInfos (ix : Index) : List TypeInfo := ix.sources.map (·.info)

/-- The type that a qualified name stands for. -/
def lookup? (ix : Index) (name : String) : Option TypeInfo :=
  lastNamed? name ix.sourceInfos <|> lastNamed? name ix.library

/-- The types of the text, and those from elsewhere that no type of the text hides. -/
def allTypes (ix : Index) : List TypeInfo :=
  ix.sourceInfos ++ ix.library.filter fun t => ix.sourceInfos.all (·.name != t.name)

/-- All types that satisfy a condition; none before the text is gone through. -/
def findTypes (ix : Index) (p : TypeInfo → Bool) : List TypeInfo :=
  if ix.resolved then ix.allTypes.filter p else []

/-! ### The types around an offset -/

/-- The types of the text that have an offset between their ends, the innermost first. -/
def enclosingSources (ix : Index) (offset : Nat) : List SourceType :=
  (ix.sources.filter (·.declaration.span.strictlyContains offset)).mergeSort
    fun a b => a.declaration.span.length ≤ b.declaration.span.length

/-- The innermost type around an offset. -/
def enclosingType? (ix : Index) (offset : Nat) : Option TypeInfo :=
  (ix.enclosingSources offset).head?.map (·.info)

/-- A type and the types around it, at most so many. The qualified name of an outer type is shorter
than that of the type in it. -/
def outerChain (ix : Index) : (limit : Nat) → TypeInfo → List TypeInfo
  | 0, _ => []
  | limit + 1, t => t :: ((t.outer.bind ix.lookup?).map (ix.outerChain limit)).getD []

/-- The types around an offset as types of values, from the innermost to the outermost. -/
def enclosingChain (ix : Index) (offset : Nat) : List Ty :=
  match ix.enclosingType? offset with
  | some t => (ix.outerChain (t.name.length + 1) t).map (·.asTy)
  | none => []

/-- The first of the shortest ranges among some things with ranges. -/
def shortest? {α : Type} (xs : List (Span × α)) : Option (Span × α) :=
  xs.foldl shorter none
where
  /-- Keeps the shortest one seen so far. -/
  shorter : Option (Span × α) → Span × α → Option (Span × α)
    | none, x => some x
    | some best, x => some (if x.1.length < best.1.length then x else best)

/-- The innermost method or constructor around an offset, in the innermost type that has one there. -/
def enclosingMethod? (ix : Index) (offset : Nat) : Option MethodInfo :=
  (ix.enclosingSources offset).findSome? fun s =>
    (shortest? (s.callables.filter (·.1.strictlyContains offset))).map (·.2)

end Index

end Shorthand
