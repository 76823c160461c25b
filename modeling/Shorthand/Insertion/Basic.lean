import Shorthand.Edit.Transaction
import Shorthand.Grammar.Parse
import Shorthand.Insertion.Header
import Shorthand.Insertion.Splice

/-!
Putting a fragment into a text.

An insertion is the splice of the fragment together with the import that it needs: the edits of the
text, the cursor behind the fragment and the new tree.
-/

namespace Shorthand

/-- The change that puts a fragment into a text. -/
structure Insertion where
  /-- The splice and the import, in the order of their ranges. -/
  edits : List TextEdit
  /-- Where the fragment ends in the new text. -/
  cursor : Nat
  /-- The tree of the new text. -/
  tree : Node
deriving Repr

/-- The type that a fragment asks to import, if the text does not import it yet. -/
def missingImport? (tree : Node) (f : Fragment) : Option String :=
  f.importName?.filter fun name => !alreadyImported tree name

namespace Splice

/-- The edits of the splice and of an import. -/
def edits (s : Splice) (tree : Node) (name : Option String) : List TextEdit :=
  TextEdit.inOrder (s.edit :: (name.map fun name => (importEdit tree name).1).toList)

/-- The tree of the new text: the one that is known with the import put in, or the one that is read from
the new text. -/
def newTree (s : Splice) (d : Document) (tree : Node) (name : Option String) :
    Except EditError Node :=
  match s.tree with
  | some root =>
    match name with
    | some name => .ok (root.withInsertedChild (importEdit tree name).2 (importNode name))
    | none => .ok root
  | none => do
    let edited ← d.apply (s.edits tree name)
    return (parse edited.text).tree

end Splice

/-- The insertion of a fragment at the cursor of a document with a tree; nothing if there is no place
for it. -/
def insertion? (d : Document) (tree : Node) (f : Fragment) :
    Except EditError (Option Insertion) :=
  match spliceCode? d.text.toList tree d.cursor f.code with
  | none => .ok none
  | some s => do
    let name := missingImport? tree f
    let edits := s.edits tree name
    return some ⟨edits, TextEdit.rebaseAll edits s.edit.span.stop, ← s.newTree d tree name⟩

end Shorthand
