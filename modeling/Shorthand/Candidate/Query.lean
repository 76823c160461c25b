import Shorthand.Caret.Expected
import Shorthand.Fragment.Basic
import Shorthand.Model.Assignable

/-!
What is asked of the things that can be written at a caret.

A `Query` has the abbreviation that was typed and what is known about the caret. For an abbreviation of
the form `owner.member` it has the member part, and the owners are found beforehand.
-/

namespace Shorthand

/-- What the first part of an abbreviation with a dot stands for. -/
inductive Owner where
  | value (name : String) (ty : Ty)
  | type (t : TypeMention)
deriving DecidableEq, Repr

namespace Owner

/-- The type that has the members. -/
def ty : Owner → Ty
  | value _ t => t
  | type t => .named t.name

/-- The owner as the receiver of a member. -/
def receiver : Owner → Receiver
  | value name _ => .value name
  | type t => .type t

/-- The members that are reached through the owner are static ones. -/
def isType : Owner → Bool
  | value _ _ => false
  | type _ => true

end Owner

namespace Index

/-- How a type is written at an offset. Where its name stands for nothing or for another type, the
outermost type around it has to be imported. -/
def mention (ix : Index) (offset : Nat) (t : TypeInfo) : TypeMention :=
  let written := t.displayName
  let visible := (ix.resolveTypeName? written offset).any (·.name == t.name)
  { name := t.name, written, importName := if visible then none else some t.topLevelName }

/-- The caret is in a static method, where objects have no members of their own. -/
def isStaticAt (ix : Index) (offset : Nat) : Bool := (ix.enclosingMethod? offset).any (·.isStatic)

end Index

/-- What is asked for. -/
structure Query where
  index : Index
  caret : Nat
  /-- The abbreviation, without the owner. -/
  abbreviation : String
  expected : Option Ty
  /-- What the members are asked of; nothing for an abbreviation without an owner. -/
  owners : List Owner

namespace Query

variable (q : Query)

/-- The name has the abbreviation. -/
def asksFor (name : String) : Bool := abbreviates q.abbreviation name

/-- A value of the type fits what is expected. -/
def fits (t : Ty) : Bool := q.expected.all fun expected => q.index.isAssignable t expected

/-- How a type is written at the caret. -/
def mention (t : TypeInfo) : TypeMention := q.index.mention q.caret t

/-- The caret is in a static method. -/
def inStatic : Bool := q.index.isStaticAt q.caret

/-- The members of an owner that are static if it is a type and not static if it is a value. -/
def methodsOf (o : Owner) : List MethodInfo :=
  (q.index.membersOf o.ty).methods.filter fun m => m.isStatic == o.isType && q.asksFor m.name

/-- The fields of an owner that are static if it is a type and not static if it is a value. -/
def fieldsOf (o : Owner) : List FieldInfo :=
  (q.index.membersOf o.ty).fields.filter fun f => f.isStatic == o.isType && q.asksFor f.name

end Query

end Shorthand
