import Shorthand.Edit.Basic
import Shorthand.Fragment.Code
import Shorthand.Insertion.Host
import Shorthand.Text.Blank
import Shorthand.Text.Letters
import Shorthand.Tree.TreePath

/-!
Putting code at a caret.

An expression changes the tree and the text side by side: a node of the tree is made anew around it, and
the written expression goes to the same place of the text. A word or a type only changes the text, since
it starts something that the user goes on writing.

* `adjacentMissing?` is the missing part that only white space separates from the caret.
* `Graft.intoHost?` says what becomes of each sort of host.
* `spliceExpression?` finds the host and puts the new tree together.
-/

namespace Shorthand

/-! ### Characters around a place -/

/-- The character is part of a word. -/
def isWordChar (c : Char) : Bool := Text.isAlphanumeric c || c == '_' || c == '$'

/-- The last character before an offset. -/
def charBefore? (source : List Char) (offset : Nat) : Option Char :=
  (Text.splitAt? offset source).bind (·.1.getLast?)

/-- The first character behind an offset. -/
def charAfter? (source : List Char) (offset : Nat) : Option Char :=
  (Text.splitAt? offset source).bind (·.2.head?)

/-- The text with a space on each side on which it would run into a word. -/
def padded (source : List Char) (span : Span) (text : String) : String :=
  let cs := text.toList
  let before := (charBefore? source span.start).any isWordChar && cs.head?.any isWordChar
  let after := (charAfter? source span.stop).any isWordChar && cs.getLast?.any isWordChar
  (if before then " " else "") ++ text ++ (if after then " " else "")

/-! ### Missing parts -/

/-- The path to the missing part closest to the caret, if there is only white space between. -/
def adjacentMissing? (source : List Char) (n : Node) (caret : Nat) : Option Path := do
  let path ← n.nearestMissing caret
  let start := (← n.descendant? path).span.start
  let gap ← Text.slice? (min start caret) (max start caret) source
  if gap.all Text.isBlank then some path else none

/-- The index of a new statement at the caret: that of the first child that starts at or behind it. -/
def statementIndex (n : Node) (caret : Nat) : Nat :=
  (n.children.takeWhile (·.span.start < caret)).length

/-- A text has another one in it. -/
def containsText (part : List Char) : List Char → Bool
  | [] => part.isEmpty
  | c :: cs => part.isPrefixOf (c :: cs) || containsText part cs

/-- The node has a missing part when it is written down. -/
def showsMissing (n : Node) : Bool := containsText missingMarker.toList n.render.toList

/-! ### Grafts -/

/-- A node made anew, and the edit of the text that does the same. -/
structure Graft where
  edit : TextEdit
  node : Node
deriving Repr

namespace Graft

variable (source : List Char) (n : Node) (caret : Nat) (e : Node)

/-- What is written at the caret. -/
def editAtCaret (written : Node) : TextEdit :=
  .insertion caret (padded source (.empty caret) written.render)

/-- What fills a missing part in a role. Types and names are not filled by an expression, and in the
place of a statement it is one. -/
def filling? (e : Node) : Role → Option Node
  | .type | .returnType | .name => none
  | .statement | .thenBranch | .elseBranch | .body => some e.asStatement
  | _ => some e

/-- The expression in place of a missing part. -/
def intoMissing? (path : Path) : Option Graft := do
  let filling ← filling? e (← n.descendant? path).role
  return ⟨editAtCaret source caret filling, n.withDescendant path filling⟩

/-- The expression in place of the missing part at the caret. -/
def intoGap? : Option Graft := do
  intoMissing? source n caret e (← adjacentMissing? source n caret)

/-- The expression as a new statement, unless it fills a missing part. -/
def intoStatements? : Option Graft :=
  match adjacentMissing? source n caret with
  | some path => intoMissing? source n caret e path
  | none =>
    let statement := e.asStatement
    some ⟨editAtCaret source caret statement,
      n.withInsertedChild (statementIndex n caret) statement⟩

/-- The expression as the result of a return statement. -/
def intoReturn? : Option Graft :=
  match adjacentMissing? source n caret with
  | some path => intoMissing? source n caret e path
  | none =>
    if (n.child? .expression).isNone then
      some ⟨editAtCaret source caret e,
        n.withInsertedChild n.children.length (e.inRole .expression)⟩
    else none

/-- The expression in place of a missing part of the first argument that has one. -/
def intoArguments? : Option Graft := do
  let (index, argument) ← (n.indexedChildrenWith .argument).find? fun (_, a) => showsMissing a
  let path := index :: (← argument.nearestMissing caret)
  let missing ← n.descendant? path
  return ⟨.insertion missing.span.start e.render, n.withDescendant path e⟩

/-- A creation in place of one that has no type yet, and otherwise the expression as an argument. The
range of the one without a type ends before the white space in which the caret may be. -/
def intoCreation? : Option Graft :=
  if (n.child? .type).all (·.isMissing) && e.kind == .classInstanceCreation then
    let span : Span := ⟨n.span.start, max n.span.stop caret⟩
    some ⟨⟨span, padded source span e.render⟩, e⟩
  else intoArguments? n caret e

/-- The expression in a host. New statements are made only right around the caret. -/
def intoHost? (isInnermost : Bool) : Option Graft :=
  match Host.ofKind n.kind with
  | .statements => if isInnermost then intoStatements? source n caret e else none
  | .result => intoReturn? source n caret e
  | .gaps => intoGap? source n caret e
  | .arguments => intoArguments? n caret e
  | .creation => intoCreation? source n caret e
  | .closed | .transparent => none

end Graft

/-! ### Splices -/

/-- A change of the text, with the tree that it leads to where that is known. -/
structure Splice where
  edit : TextEdit
  tree : Option Node
deriving Repr

/-- The innermost node that does not leave it to what is around it, with its depth. -/
def hostOf? (path : TreePath) : Option (Nat × Node) :=
  path.ancestors.find? fun (_, n) => Host.ofKind n.kind != .transparent

/-- An expression at a caret, if something around it can take it up. -/
def spliceExpression? (source : List Char) (tree : Node) (caret : Nat) (e : Node) :
    Option Splice := do
  let path := TreePath.ofOffset tree caret
  let (depth, host) ← hostOf? path
  let graft ← Graft.intoHost? source host caret e (depth == path.leafDepth)
  return ⟨graft.edit, some (path.rebuild depth graft.node)⟩

/-- The character needs no space before it. -/
def isCloser (c : Char) : Bool := Text.isBlank c || [')', '>', ']', ',', ';'].contains c

/-- A text at a caret with a space behind it; where the text asks for none, only before a word or an
opening. -/
def spliceText (source : List Char) (caret : Nat) (text : String) (alwaysSpace : Bool) : Splice :=
  let closed := (charAfter? source caret).any isCloser
  let space := if alwaysSpace || !closed then " " else ""
  ⟨.insertion caret (padded source (.empty caret) text ++ space), none⟩

/-- The code at a caret. -/
def spliceCode? (source : List Char) (tree : Node) (caret : Nat) : Code → Option Splice
  | .word text => some (spliceText source caret text true)
  | .type n => some (spliceText source caret n.render false)
  | .expression e => spliceExpression? source tree caret e

end Shorthand
