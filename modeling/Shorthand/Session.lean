import Shorthand.Request

/-!
Writing with abbreviations.

A session goes from document to document: the user types and deletes at the cursor, moves it and has
abbreviations expanded. What goes wrong leaves the document as it is.
-/

namespace Shorthand.Document

/-- The document with a text typed at the cursor. -/
def type (d : Document) (text : String) : Except EditError Document :=
  d.apply [.insertion d.cursor text]

/-- The document with so many bytes before the cursor deleted, or as many as there are. -/
def deleteBack (d : Document) (count : Nat) : Except EditError Document :=
  d.apply [⟨⟨d.cursor - count, d.cursor⟩, ""⟩]

/-- The document with the cursor somewhere else. -/
def moveTo (d : Document) (cursor : Nat) : Document := { d with cursor := cursor }

/-- The expansion of an abbreviation at the cursor, where the text is all that is known besides some
types. -/
def expand (d : Document) (abbreviation : String) (library : List TypeInfo) (settings : Settings)
    (pick : List Fragment → Option Nat) : Except RequestError Expansion :=
  Shorthand.expand d.text d.cursor abbreviation (Index.ofTree (parse d.text).tree library) settings
    pick

/-- The document after an expansion: the new one, or the old one if nothing was inserted. -/
def after (d : Document) (e : Expansion) : Document :=
  match e.outcome with
  | .inserted a => a.document
  | _ => d

end Shorthand.Document
