import Shorthand.Abbreviation
import Shorthand.Model.Typing
import Shorthand.Token.Keyword

/-!
What an abbreviation can stand for.

A `Fragment` is a piece of code that can be put at a caret: a word of the language, a type, a value or a
call. It holds all that is needed to write it down. To the user a fragment is its `display`: fragments
that look the same count as one, and they are listed in the order of their displays.

* `name` is what the abbreviation of a fragment is taken from.
* `importName?` is the type that has to be imported before the fragment can be used.
-/

namespace Shorthand

/-- A declared type as it is written at a caret. -/
structure TypeMention where
  /-- The qualified name. -/
  name : String
  /-- The name as it is written, that of a nested type behind the names of the types around it. -/
  written : String
  /-- The type to import before the name can be written like this. -/
  importName : Option String
deriving DecidableEq, Repr

namespace TypeMention

/-- The last part of the name. -/
def simpleName (t : TypeMention) : String := Ty.lastSegment t.written

end TypeMention

/-- What a member is reached through. -/
inductive Receiver where
  /-- A value, by its name. -/
  | value (name : String)
  /-- A type, for static members. -/
  | type (t : TypeMention)
deriving DecidableEq, Repr

namespace Receiver

/-- The receiver as it is written. -/
def written : Receiver → String
  | value name => name
  | type t => t.written

/-- The type to import for the receiver. -/
def importName? : Receiver → Option String
  | value _ => none
  | type t => t.importName

end Receiver

/-- What is called. -/
inductive Callee where
  | method (receiver : Option Receiver)
  | constructor (type : TypeMention)
deriving DecidableEq, Repr

/-- An argument of a call. -/
inductive Argument where
  /-- A value in scope. -/
  | symbol (name : String)
  /-- A literal that stands in for a value. -/
  | default (literal : String)
deriving DecidableEq, Repr

namespace Argument

/-- The argument was found in scope. -/
def isSymbol : Argument → Bool
  | symbol _ => true
  | default _ => false

end Argument

/-- A call of a method or constructor. -/
structure Call where
  callee : Callee
  method : MethodInfo
  /-- The arguments; none before they are chosen. -/
  args : List Argument
deriving DecidableEq, Repr

namespace Call

/-- The number of parameters. -/
def arity (c : Call) : Nat := c.method.arity

/-- The number of arguments that were found in scope. -/
def symbolCount (c : Call) : Nat := (c.args.filter (·.isSymbol)).length

/-- All arguments were found in scope. -/
def isComplete (c : Call) : Bool := c.symbolCount == c.arity

/-- The name of the method, or of the type that is constructed. -/
def name (c : Call) : String :=
  match c.callee with
  | .method _ => c.method.name
  | .constructor t => t.simpleName

/-- The call with the types of the parameters in place of arguments. -/
def display (c : Call) : String :=
  match c.callee with
  | .method (some receiver) => receiver.written ++ "." ++ c.method.signature
  | .method none => c.method.signature
  | .constructor t => "new " ++ { c.method with name := t.written }.signature

/-- The type to import for the call. -/
def importName? (c : Call) : Option String :=
  match c.callee with
  | .method receiver => receiver.bind (·.importName?)
  | .constructor t => t.importName

/-- What is called, apart from the parameters: what it is reached through, its name, and whether it is
a constructor. -/
def target (c : Call) : Option String × String × Bool :=
  match c.callee with
  | .method receiver => (receiver.map (·.written), c.method.name, false)
  | .constructor t => (some t.name, "new", true)

end Call

/-- A field or constant that is used. -/
structure Access where
  /-- What the field is reached through; nothing for a constant that is named by itself. -/
  owner : Option Receiver
  field : FieldInfo
deriving DecidableEq, Repr

/-- A literal that is a word. -/
inductive LiteralWord where
  | yes
  | no
  | null
deriving DecidableEq, Repr

namespace LiteralWord

/-- Every literal word. -/
def all : List LiteralWord := [yes, no, null]

/-- The word itself. -/
def text : LiteralWord → String
  | yes => "true"
  | no => "false"
  | null => "null"

/-- The type of the value. -/
def ty : LiteralWord → Ty
  | yes | no => .primitive .boolean
  | null => .null

end LiteralWord

/-- A piece of code that an abbreviation can stand for. -/
inductive Fragment where
  | keyword (k : Keyword)
  | modifier (k : Keyword)
  | primitive (p : Primitive)
  | type (t : TypeMention)
  | access (a : Access)
  | call (c : Call)
  | element (e : Element)
  | literal (l : LiteralWord)
deriving DecidableEq, Repr

namespace Fragment

/-- The name that the abbreviation is taken from. -/
def name : Fragment → String
  | keyword k | modifier k => k.spelling
  | primitive p => p.keyword
  | type t => t.simpleName
  | access a => a.field.name
  | call c => c.name
  | element e => e.name
  | literal l => l.text

/-- The fragment as it is shown to the user. -/
def display : Fragment → String
  | keyword k | modifier k => k.spelling
  | primitive p => p.keyword
  | type t => t.written
  | access ⟨some owner, field⟩ => owner.written ++ "." ++ field.name
  | access ⟨none, field⟩ => field.name
  | call c => c.display
  | element e => e.name
  | literal l => l.text

/-- The type to import before the fragment can be used. -/
def importName? : Fragment → Option String
  | type t => t.importName
  | access a => a.owner.bind (·.importName?)
  | call c => c.importName?
  | _ => none

/-- Two fragments look the same. -/
def looksLike (a b : Fragment) : Bool := a.display == b.display

/-- Fragments are listed in the order of their displays. -/
def precedes (a b : Fragment) : Bool := (compare a.display b.display).isLE

/-- The fragments in the order of their displays. -/
def inOrder (fs : List Fragment) : List Fragment := fs.mergeSort precedes

end Fragment

end Shorthand
