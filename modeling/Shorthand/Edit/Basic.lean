import Shorthand.Span
import Shorthand.Text.Bytes

/-!
Edits of a text and of a cursor in it.

An edit puts a new text in place of a range. Several edits of one text all speak of the offsets before
any of them; they are carried out from the last to the first, so that the offsets of those to come stay
valid.
-/

namespace Shorthand

/-- A new text in place of a range. -/
structure TextEdit where
  span : Span
  text : String
deriving DecidableEq, Repr

namespace TextEdit

/-- A new text at an offset. -/
def insertion (offset : Nat) (text : String) : TextEdit := ⟨.empty offset, text⟩

/-- The number of bytes of the new text. -/
def inserted (e : TextEdit) : Nat := Text.bytes e.text.toList

/-- Edits are ordered by the starts and then by the ends of their ranges. -/
def precedes (a b : TextEdit) : Bool :=
  compare a.span.start b.span.start |>.then (compare a.span.stop b.span.stop) |>.isLE

/-- The edits in the order of their ranges. -/
def inOrder (edits : List TextEdit) : List TextEdit := edits.mergeSort precedes

/-- The text with the edit carried out. A range that is none of the text changes nothing. -/
def apply (e : TextEdit) (source : List Char) : List Char :=
  match Text.splitAt? e.span.start source, Text.splitAt? e.span.stop source with
  | some (before, _), some (_, after) => before ++ e.text.toList ++ after
  | _, _ => source

/-- The text with all edits carried out, the last one first. -/
def applyAll (edits : List TextEdit) (source : List Char) : List Char := edits.foldr apply source

/-- The greatest offset that there is. -/
def lastOffset : Nat := 0xFFFFFFFF

/-- The cursor when the edit has been carried out. An edit that ends at or before the cursor moves it by
as much as the text grows or shrinks; a cursor inside the range goes to the start of it. -/
def rebase (e : TextEdit) (cursor : Nat) : Nat :=
  if e.span.stop ≤ cursor then min (cursor + e.inserted - e.span.length) lastOffset
  else if e.span.start < cursor then e.span.start
  else cursor

/-- The cursor when all edits have been carried out, the last one first. -/
def rebaseAll (edits : List TextEdit) (cursor : Nat) : Nat := edits.foldr rebase cursor

end TextEdit

/-- A text with a cursor in it. -/
structure Document where
  text : String
  cursor : Nat
deriving DecidableEq, Repr

namespace Document

/-- The document with edits carried out that are in order and known to be ranges of its text. -/
def edited (d : Document) (edits : List TextEdit) : Document where
  text := .ofList (TextEdit.applyAll edits d.text.toList)
  cursor := TextEdit.rebaseAll edits d.cursor

end Document

end Shorthand
