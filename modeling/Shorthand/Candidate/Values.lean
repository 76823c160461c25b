import Shorthand.Candidate.Query

/-!
Candidates that are named without an owner: values in scope, methods of the type around the caret, static
imports and, in the label of a case, constants of an enumeration.
-/

namespace Shorthand

/-- A call of a method by its name alone. -/
def Fragment.plainCall (m : MethodInfo) : Fragment := .call ⟨.method none, m, []⟩

/-- A field by its name alone. -/
def Fragment.plainAccess (f : FieldInfo) : Fragment := .access ⟨none, f⟩

/-- The type and the member that a static import names; no member where it imports all. -/
def Import.staticTarget? (i : Import) : Option (String × Option String) :=
  if !i.isStatic then none
  else if i.onDemand then some (i.name, none)
  else (Index.splitLast? i.name).map fun (owner, member) => (owner, some member)

namespace Query

variable (q : Query)

/-- The element can be used: it is no field of an object where there is none. -/
def canUse (e : Element) : Bool := !q.inStatic || e.kind != .field || e.isStatic

/-- The values in scope. -/
def localElements : List Fragment :=
  ((q.index.elementsInScope q.caret).filter fun e =>
    q.canUse e && q.asksFor e.name && q.fits e.ty).map .element

/-- The methods of the type around the caret. -/
def ownMethods : List Fragment :=
  match q.index.enclosingType? q.caret with
  | some t =>
    ((q.index.membersOf t.asTy).methods.filter fun m =>
      (!q.inStatic || m.isStatic) && q.asksFor m.name).map .plainCall
  | none => []

/-- The static fields and methods of a type, one or all of them. -/
def staticMembers (owner : String) (member : Option String) : List Fragment :=
  let ms := q.index.membersOf (.named owner)
  let wanted := fun (name : String) => member.all (· == name) && q.asksFor name
  (ms.fields.filter fun f => f.isStatic && wanted f.name).map .plainAccess
    ++ (ms.methods.filter fun m => m.isStatic && wanted m.name).map .plainCall

/-- What the static imports bring. -/
def staticImports : List Fragment :=
  (q.index.imports.filterMap (·.staticTarget?)).flatMap fun (owner, member) =>
    q.staticMembers owner member

/-- The constants of the expected enumeration. -/
def enumConstants : List Fragment :=
  match (q.expected.bind (·.qualifiedName?)).bind q.index.lookup? with
  | some t =>
    if t.kind = .enumType then (t.enumConstants.filter (q.asksFor ·.name)).map .plainAccess else []
  | none => []

end Query

end Shorthand
