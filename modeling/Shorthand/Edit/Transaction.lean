import Shorthand.Edit.Basic

/-!
Edits that are carried out all together or not at all.

`Document.apply` looks at the cursor and at every edit before it carries out the first one. Of two edits
one has to start before the other and end at or before its start: of two insertions at one offset none
would be the first.
-/

namespace Shorthand

/-- Why edits are refused. -/
inductive EditError where
  | invalidCursor
  | invalidRange
  | overlap
deriving DecidableEq, Repr

namespace EditError

/-- The words for a refusal. -/
def message : EditError → String
  | invalidCursor => "invalid cursor"
  | invalidRange => "invalid edit range"
  | overlap => "overlapping edits"

end EditError

namespace TextEdit

/-- The edit replaces a range of the text. -/
def isWithin (e : TextEdit) (source : List Char) : Bool :=
  e.span.start ≤ e.span.stop && Text.isBoundary e.span.start source
    && Text.isBoundary e.span.stop source

/-- The edit starts behind the start of an earlier one and not before its end. -/
def follows (e : TextEdit) : Option Span → Bool
  | none => true
  | some earlier => earlier.stop ≤ e.span.start && e.span.start != earlier.start

/-- The first fault of edits in order, behind the range of an earlier one. -/
def fault? (source : List Char) : (earlier : Option Span) → List TextEdit → Option EditError
  | _, [] => none
  | earlier, e :: es =>
    if !e.isWithin source then some .invalidRange
    else if !e.follows earlier then some .overlap
    else fault? source (some e.span) es

end TextEdit

namespace Document

/-- The document with edits carried out, whatever their order, if nothing speaks against them. -/
def apply (d : Document) (edits : List TextEdit) : Except EditError Document :=
  let source := d.text.toList
  let edits := TextEdit.inOrder edits
  if !Text.isBoundary d.cursor source then .error .invalidCursor
  else
    match TextEdit.fault? source none edits with
    | some e => .error e
    | none => .ok (d.edited edits)

end Document

end Shorthand
