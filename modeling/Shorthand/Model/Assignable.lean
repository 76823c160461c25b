import Shorthand.Model.Index

/-!
Values of one type as values of another.

A declared type fits another one if it reaches it by following supertypes with their type arguments
filled in. The types reached can be without number, when the arguments grow from step to step; then the
search need not end. `search` takes as many steps as there are to take. `reaches` is the same search with
a bound on its steps, which nearly all stay below: it is tried first, since it computes by reduction.
-/

namespace Shorthand

/-- Two type arguments go together: one is a type variable, or they are the same. -/
def argumentsMatch : Ty → Ty → Bool
  | .var _, _ | _, .var _ => true
  | a, b => a = b

/-- Type arguments go with those asked for. Where one side has none everything goes. -/
def allArgumentsMatch (args wanted : List Ty) : Bool :=
  args.isEmpty || wanted.isEmpty
    || (args.length == wanted.length && (args.zip wanted).all fun (a, b) => argumentsMatch a b)

/-- The types that every array fits. -/
def arraySupertypes : List String :=
  [Ty.objectName, "java.lang.Cloneable", "java.io.Serializable"]

namespace Index

/-- The direct supertypes of a declared type with its arguments filled in. -/
def supertypesOf (ix : Index) : Ty → List Ty
  | .declared name args =>
    match ix.lookup? name with
    | some info => info.supertypes.map (·.substitute (info.typeParams.zip args))
    | none => []
  | _ => []

/-- The type is the one with a name and goes with the arguments asked for. -/
def isTarget (name : String) (wanted : List Ty) : Ty → Bool
  | .declared n args => n == name && allArgumentsMatch args wanted
  | _ => false

/-- One of the types on a stack reaches the type with a name and arguments; nothing if the steps are used
up. Types that were followed already are in `seen`. -/
def reaches (ix : Index) (name : String) (wanted : List Ty) :
    (steps : Nat) → (pending seen : List Ty) → Option Bool
  | _, [], _ => some false
  | 0, _ :: _, _ => none
  | steps + 1, t :: pending, seen =>
    if isTarget name wanted t then some true
    else if seen.contains t then ix.reaches name wanted steps pending seen
    else ix.reaches name wanted steps ((ix.supertypesOf t).reverse ++ pending) (t :: seen)

/-- One of the types on a stack reaches the type with a name and arguments; nothing if the search never
ends. -/
def search (ix : Index) (name : String) (wanted : List Ty) : (pending seen : List Ty) → Option Bool
  | [], _ => some false
  | t :: pending, seen =>
    if isTarget name wanted t then some true
    else if seen.contains t then ix |>.search name wanted pending seen
    else ix |>.search name wanted ((ix.supertypesOf t).reverse ++ pending) (t :: seen)
partial_fixpoint

/-- The number of steps that are tried first. -/
def searchSteps : Nat := 1000000

/-- A declared type fits another one. -/
def isSubtype (ix : Index) (sub : Ty) : Ty → Bool
  | .declared name wanted =>
    name = Ty.objectName
      || (ix.reaches name wanted searchSteps [sub] [] <|> ix.search name wanted [sub] []) = some true
  | _ => false

/-- The elements of an array fit those of another array. Between primitive types they must be the
same. -/
def elementsFit (fits : Bool) : Ty → Ty → Bool
  | .primitive p, .primitive q => p = q
  | .primitive _, _ | _, .primitive _ => false
  | _, _ => fits

/-- A value of the first type can be given to a variable of the second. Every value fits a variable of
unknown type, and a value of unknown type fits no other. -/
def isAssignable (ix : Index) (source target : Ty) : Bool :=
  match source, target with
  | _, .unknown => true
  | .unknown, _ | .void, _ | _, .void => false
  | .var _, _ | _, .var _ => true
  | .primitive p, .primitive q => p.widens q
  | .null, _ => target.isReference
  | _, .null => false
  | .primitive p, .declared _ _ => ix.isSubtype (.named p.boxed) target
  | .declared name _, .primitive q => (Primitive.unboxed? name).any (·.widens q)
  | .declared _ _, .declared _ _ => source = target || ix.isSubtype source target
  | .array _, .declared name _ => arraySupertypes.contains name
  | .array a, .array b => source = target || elementsFit (ix.isAssignable a b) a b
  | _, _ => false

end Index

end Shorthand
