import Shorthand.Edit.Basic
import Shorthand.Fragment.Code

/-!
Adding an import to a text.

A new import goes behind the last one, or else behind the package, or else to the top. `importEdit` is
the change of the text and the index of the new declaration among the children of the tree, and
`importNode` is that declaration.
-/

namespace Shorthand

/-- The line that imports a type. -/
def importLine (name : String) : String := "import " ++ name ++ ";"

/-- The declaration that imports a type. -/
def importNode (name : String) : Node :=
  ((Node.detached .importDeclaration).inRole .importDecl).withChildren
    [(Node.ofName name).inRole .name]

/-- The edit that adds an import, and the index that the declaration has then in the tree. -/
def importEdit (tree : Node) (name : String) : TextEdit × Nat :=
  match (tree.indexedChildrenWith .importDecl).getLast? with
  | some (index, last) => (.insertion last.span.stop ("\n" ++ importLine name), index + 1)
  | none =>
    match (tree.children.zipIdx.find? (·.1.kind == .packageDeclaration)) with
    | some (package, index) =>
      (.insertion package.span.stop ("\n\n" ++ importLine name), index + 1)
    | none => (.insertion 0 (importLine name ++ "\n\n"), 0)

/-- The declaration imports just the type with a name. -/
def importsType (name : String) (declaration : Node) : Bool :=
  !declaration.hasModifier "static" && declaration.spelling != "*"
    && (declaration.child? .name).bind Node.qualifiedName? == some name

/-- The text imports a type by its name. -/
def alreadyImported (tree : Node) (name : String) : Bool :=
  (tree.childrenWith .importDecl).any (importsType name)

end Shorthand
