import Shorthand.Model.Index

/-!
What written types stand for.

The name of a type is looked for in the types around the place where it is written, then among the
imports, in the package of the text, in the packages imported on demand and at last in `java.lang`. A
name that stands for nothing is kept as it is written.
-/

namespace Shorthand

namespace Index

/-! ### Names of types -/

/-- The supertypes of a type by their names. -/
def supertypeNames (ix : Index) (name : String) : List String :=
  match ix.lookup? name with
  | some t => t.supertypes.filterMap (·.qualifiedName?)
  | none => []

/-- A bound on the names that come up when supertypes are followed and no name is followed twice. -/
def supertypeCount (ix : Index) : Nat :=
  (ix.sourceInfos ++ ix.library).foldr (fun t n => t.supertypes.length + n) 1

/-- The type with a simple name in one of the types on a stack of names or in their supertypes. The
supertypes of a type come on top of the stack, the last one first. -/
def memberTypeFrom (ix : Index) (simple : String) :
    (limit : Nat) → (pending seen : List String) → Option TypeInfo
  | 0, _, _ => none
  | _ + 1, [], _ => none
  | limit + 1, name :: pending, seen =>
    if seen.contains name then ix.memberTypeFrom simple limit pending seen
    else
      match ix.lookup? (name ++ "." ++ simple) with
      | some t => some t
      | none =>
        ix.memberTypeFrom simple limit ((ix.supertypeNames name).reverse ++ pending) (name :: seen)

/-- The type with a simple name that a type or one of its supertypes contains. -/
def memberType? (ix : Index) (owner simple : String) : Option TypeInfo :=
  ix.memberTypeFrom simple (ix.supertypeCount + 1) [owner] []

/-- The type that a simple name stands for in the types around an offset. -/
def enclosedType? (ix : Index) (simple : String) (offset : Nat) : Option TypeInfo :=
  (ix.enclosingSources offset).findSome? fun s =>
    if s.info.simpleName == simple then some s.info else ix.memberType? s.info.name simple

/-- A name in a package; the package without a name adds nothing. -/
def inPackage (package simple : String) : String :=
  if package = "" then simple else package ++ "." ++ simple

/-- The type that a simple name stands for at an offset. -/
def simpleType? (ix : Index) (simple : String) (offset : Nat) : Option TypeInfo :=
  ix.enclosedType? simple offset
    <|> (ix.imports.findSome? fun i =>
      if !i.onDemand && !i.isStatic && Ty.lastSegment i.name == simple then ix.lookup? i.name
      else none)
    <|> ix.lookup? (inPackage ix.package simple)
    <|> (ix.imports.findSome? fun i =>
      if i.onDemand && !i.isStatic then ix.lookup? (i.name ++ "." ++ simple) else none)
    <|> ix.lookup? ("java.lang." ++ simple)

/-- The parts of a dotted name before and behind its first dot. -/
def splitFirst? (name : String) : Option (String × String) :=
  match Ty.segments name with
  | head :: next :: rest => some (head, ".".intercalate (next :: rest))
  | _ => none

/-- The type that a simple or dotted name stands for at an offset, also before the text is gone
through. -/
def writtenType? (ix : Index) (name : String) (offset : Nat) : Option TypeInfo :=
  match splitFirst? name with
  | some (head, rest) =>
    ((ix.simpleType? head offset).bind fun outer => ix.lookup? (outer.name ++ "." ++ rest))
      <|> ix.lookup? name
  | none => ix.simpleType? name offset

/-- The type that a simple or dotted name stands for at an offset. -/
def resolveTypeName? (ix : Index) (name : String) (offset : Nat) : Option TypeInfo :=
  if ix.resolved then ix.writtenType? name offset else none

/-! ### Written types -/

/-- The type variables of a declaration. -/
def typeVariablesOf (n : Node) : List String :=
  (n.childrenWith .typeParameter).filterMap (·.name?)

/-- The type variables that can be named at an offset. -/
def typeVariables (ix : Index) (offset : Nat) : List String :=
  (TreePath.ofOffset ix.tree offset).nodes.flatMap fun n =>
    if n.kind.isTypeDeclaration || n.kind == .methodDeclaration then typeVariablesOf n else []

end Index

/-- The place from which written types are looked at. -/
structure TypeScope where
  index : Index
  offset : Nat
  /-- The type variables that can be named there. -/
  typeVariables : List String

namespace TypeScope

/-- What can be named at an offset. -/
def ofOffset (ix : Index) (offset : Nat) : TypeScope := ⟨ix, offset, ix.typeVariables offset⟩

/-- The type that a simple or dotted name stands for. -/
def ofName (sc : TypeScope) (name : String) : Ty :=
  if sc.typeVariables.contains name then .var name
  else .named (((sc.index.writtenType? name sc.offset).map (·.name)).getD name)

/-- The type that the keyword of a primitive type stands for. -/
def ofKeyword (word : String) : Ty :=
  if word = "void" then .void else ((Primitive.ofKeyword? word).map .primitive).getD .unknown

/-- A type with type arguments, if it is a declared one. -/
def applied (args : List Ty) : Ty → Ty
  | .declared name _ => .declared name args
  | t => t

/-- The type with a name inside a declared type. -/
def nested (outer : Ty) (name : Option String) : Ty :=
  match outer.qualifiedName?, name with
  | some outer, some name => .named (outer ++ "." ++ name)
  | _, _ => .unknown

mutual

/-- The type that a written type stands for. -/
def tyOf (sc : TypeScope) : Node → Ty
  | n@⟨.primitiveType, _, _, _, _⟩ => ofKeyword n.spelling
  | n@⟨.simpleType, _, _, _, _⟩ =>
    match (n.child? .name).bind Node.qualifiedName? with
    | some name => sc.ofName name
    | none => .unknown
  | ⟨.parameterizedType, _, _, _, children⟩ =>
    applied (sc.tysIn .typeArgument children) (sc.tyIn .type children)
  | n@⟨.qualifiedType, _, _, _, children⟩ => nested (sc.tyIn .qualifier children) n.name?
  | ⟨.arrayType, _, _, _, children⟩ => .array (sc.tyIn .element children)
  | n@⟨.wildcardType, _, _, text, children⟩ =>
    if text = some "extends" && (n.child? .bound).isSome then sc.tyIn .bound children else .var "?"
  | ⟨.unionType, _, _, _, children⟩ | ⟨.intersectionType, _, _, _, children⟩ =>
    sc.tyIn .type children
  | _ => .unknown

/-- The type that the first of some nodes in a role stands for. -/
def tyIn (sc : TypeScope) (role : Role) : List Node → Ty
  | [] => .unknown
  | c :: cs => if c.role = role then sc.tyOf c else sc.tyIn role cs

/-- The types that the nodes in a role stand for. -/
def tysIn (sc : TypeScope) (role : Role) : List Node → List Ty
  | [] => []
  | c :: cs => if c.role = role then sc.tyOf c :: sc.tysIn role cs else sc.tysIn role cs

end

/-- The type of a declaration or expression that has one written down. -/
def declaredTy (sc : TypeScope) (n : Node) : Ty := sc.tyIn .type n.children

/-- The name and the type of a parameter. -/
def parameter (sc : TypeScope) (n : Node) : ParamInfo where
  name := n.name?.getD ""
  ty := if n.spelling = "..." then .array (sc.declaredTy n) else sc.declaredTy n

end TypeScope

end Shorthand
