import Shorthand.Candidate.Query

/-!
Candidates that are declared types, and calls of their constructors.

Types that can be named at the caret come before those that have to be imported.
-/

namespace Shorthand

/-- The type is of a sort. -/
def TypeSort.accepts (sort : TypeSort) (ix : Index) (t : TypeInfo) : Bool :=
  match sort with
  | .any => true
  | .classes => t.kind == .classType
  | .interfaces => t.kind == .interfaceType
  | .exceptions => t.kind == .classType && ix.isAssignable (.named t.name) throwable

/-- The constructor of a class of which none is known. -/
def TypeInfo.implicitConstructor (t : TypeInfo) : MethodInfo where
  name := t.simpleName
  params := []
  ret := .void
  isStatic := false
  declaring := t.name

/-- The constructors of a class, the implicit one if no other is known. -/
def TypeInfo.knownConstructors (t : TypeInfo) : List MethodInfo :=
  if t.constructors.isEmpty then [t.implicitConstructor] else t.constructors

namespace Query

variable (q : Query)

/-- Types with the way they are written, those that need no import first. -/
def mentioned (types : List TypeInfo) : List (TypeInfo × TypeMention) :=
  let pairs := types.map fun t => (t, q.mention t)
  pairs.filter (·.2.importName.isNone) ++ pairs.filter (·.2.importName.isSome)

/-- The types of a sort that are nested in another type or are not. -/
def typesOf (nested : Bool) (sort : TypeSort) : List Fragment :=
  (q.mentioned (q.index.findTypes fun t =>
    t.outer.isSome == nested && q.asksFor t.simpleName && sort.accepts q.index t)).map (.type ·.2)

/-- The types of a sort that are in no other type. -/
def declaredTypes (sort : TypeSort) : List Fragment := q.typesOf false sort

/-- The types of a sort that are nested in another one. -/
def innerTypes (sort : TypeSort) : List Fragment := q.typesOf true sort

/-- A call for every constructor of every class. -/
def constructors : List Fragment :=
  (q.mentioned (q.index.findTypes fun t => t.kind == .classType && q.asksFor t.simpleName)).flatMap
    fun (t, mention) => t.knownConstructors.map fun m => .call ⟨.constructor mention, m, []⟩

end Query

end Shorthand
