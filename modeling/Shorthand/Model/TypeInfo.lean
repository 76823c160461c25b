import Shorthand.Model.Ty

/-!
Declarations of types and their members.

A `TypeInfo` is what is known of a declared type: its names, its supertypes and its members. The
functions that build one (`declaration`, `generic`, `extending`, `withMethod` and so on) are chained to
write a type down.
-/

namespace Shorthand

/-- The ways of declaring a type. -/
inductive TypeKind where
  | classType
  | interfaceType
  | enumType
deriving DecidableEq, Repr

/-- Where a declared type comes from: from the text itself or from the types it is compiled or run
with. -/
inductive Origin where
  | source
  | compile
  | boot
deriving DecidableEq, Repr

/-- A field of a type. -/
structure FieldInfo where
  name : String
  ty : Ty
  isStatic : Bool
  isFinal : Bool
  isEnumConstant : Bool
  /-- The qualified name of the type that declares the field. -/
  declaring : String
deriving DecidableEq, Repr

/-- A parameter of a method. -/
structure ParamInfo where
  name : String
  ty : Ty
deriving DecidableEq, Repr

/-- A method or constructor of a type. The result of a constructor is `void`. -/
structure MethodInfo where
  name : String
  params : List ParamInfo
  ret : Ty
  isStatic : Bool
  /-- The qualified name of the type that declares the method. -/
  declaring : String
deriving DecidableEq, Repr

namespace MethodInfo

/-- The number of parameters. -/
def arity (m : MethodInfo) : Nat := m.params.length

/-- The name with the types of the parameters. -/
def signature (m : MethodInfo) : String :=
  m.name ++ "(" ++ ", ".intercalate (m.params.map (·.ty.display)) ++ ")"

end MethodInfo

/-- What is known of a declared type. -/
structure TypeInfo where
  /-- The qualified name. The name of a nested type follows that of its outer type and a dot. -/
  name : String
  simpleName : String
  package : String
  /-- The qualified name of the type around a nested type. -/
  outer : Option String
  kind : TypeKind
  superclass : Option Ty
  interfaces : List Ty
  typeParams : List String
  fields : List FieldInfo
  methods : List MethodInfo
  constructors : List MethodInfo
  origin : Origin
deriving DecidableEq, Repr

namespace TypeInfo

/-! ### Names -/

/-- What is left of a text behind a first part. -/
def behind? (first text : String) : Option String :=
  if first.toList.isPrefixOf text.toList then
    some (String.ofList (text.toList.drop first.length))
  else none

/-- The name within the package. -/
def displayName (t : TypeInfo) : String :=
  if t.package = "" then t.name else (behind? (t.package ++ ".") t.name).getD t.simpleName

/-- The part of a dotted name before its first dot. -/
def firstSegment (name : String) : String := (Ty.segments name).head?.getD name

/-- The part of the qualified name up to the first segment within the package: the name of the type
that is in no other one. -/
def topLevelName (t : TypeInfo) : String :=
  let top := firstSegment t.displayName
  if t.package = "" then String.ofList (t.name.toList.take top.length)
  else String.ofList (t.name.toList.take (t.package.length + 1 + top.length))

/-- The type of the objects of a declaration, with its type parameters as arguments. -/
def asTy (t : TypeInfo) : Ty := .declared t.name (t.typeParams.map .var)

/-- The constants of an enumeration. -/
def enumConstants (t : TypeInfo) : List FieldInfo := t.fields.filter (·.isEnumConstant)

/-- The superclass and the interfaces, in this order. -/
def supertypes (t : TypeInfo) : List Ty := t.superclass.toList ++ t.interfaces

/-! ### Writing a type down -/

/-- The superclass of a type that names none. -/
def defaultSuperclass (name : String) : TypeKind → Option Ty
  | .interfaceType => none
  | .enumType => if name = Ty.objectName then none else some (.declared "java.lang.Enum" [.named name])
  | .classType => if name = Ty.objectName then none else some .object

/-- The word starts with a capital letter, as the name of a type does. -/
def isCapitalized (word : String) : Bool := word.toList.head?.any Char.isUpper

/-- A type of which only the name is known. The first capitalized part of the name is the outermost
type; what stands before it is the package. -/
def declaration (kind : TypeKind) (name : String) (origin : Origin) : TypeInfo :=
  let segments := Ty.segments name
  let depth := (segments.findIdx? isCapitalized).getD (segments.length - 1)
  { name
    simpleName := segments.getLast?.getD name
    package := ".".intercalate (segments.take depth)
    outer :=
      if segments.length > depth + 1 then some (".".intercalate segments.dropLast) else none
    kind
    superclass := defaultSuperclass name kind
    interfaces := []
    typeParams := []
    fields := []
    methods := []
    constructors := []
    origin }

/-- The type with type parameters. -/
def generic (t : TypeInfo) (params : List String) : TypeInfo := { t with typeParams := params }

/-- The type with a superclass; for an interface, with one more interface. -/
def extending (t : TypeInfo) (superclass : Ty) : TypeInfo :=
  if t.kind = .interfaceType then { t with interfaces := t.interfaces ++ [superclass] }
  else { t with superclass := some superclass }

/-- The type with one more interface. -/
def implementing (t : TypeInfo) (interface : Ty) : TypeInfo :=
  { t with interfaces := t.interfaces ++ [interface] }

/-- The type with one more field. A static field is a constant. -/
def withAnyField (t : TypeInfo) (name : String) (ty : Ty) (isStatic : Bool) : TypeInfo :=
  { t with fields := t.fields ++
      [{ name, ty, isStatic, isFinal := isStatic, isEnumConstant := false, declaring := t.name }] }

/-- The type with one more field of its objects. -/
def withField (t : TypeInfo) (name : String) (ty : Ty) : TypeInfo := t.withAnyField name ty false

/-- The type with one more constant. -/
def withConstant (t : TypeInfo) (name : String) (ty : Ty) : TypeInfo := t.withAnyField name ty true

/-- A constant of the enumeration with a name. -/
def enumConstant (enumeration name : String) : FieldInfo where
  name
  ty := .named enumeration
  isStatic := true
  isFinal := true
  isEnumConstant := true
  declaring := enumeration

/-- The type with more enumeration constants. -/
def withEnumConstants (t : TypeInfo) (names : List String) : TypeInfo :=
  { t with fields := t.fields ++ names.map (enumConstant t.name) }

/-- The type with one more method, which it declares. -/
def withMethod (t : TypeInfo) (m : MethodInfo) : TypeInfo :=
  { t with methods := t.methods ++ [{ m with declaring := t.name }] }

/-- The type with more methods. -/
def withMethods (t : TypeInfo) (ms : List MethodInfo) : TypeInfo := ms.foldl withMethod t

/-- The type with one more constructor. -/
def withConstructor (t : TypeInfo) (params : List ParamInfo) : TypeInfo :=
  { t with constructors := t.constructors ++
      [{ name := t.simpleName, params, ret := .void, isStatic := false, declaring := t.name }] }

end TypeInfo

end Shorthand
