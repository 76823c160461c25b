import Shorthand.Model.TypeNames

/-!
Going through a text.

First the header is read and every declared type is entered by name; nested types follow the type around
them. Then the supertypes and members of each are filled in. Written types are looked at from the first
of these two states, so the order of the declarations makes no difference.
-/

namespace Shorthand

namespace Index

/-! ### The header -/

/-- The package that a text says it belongs to. -/
def packageOf (tree : Node) : String :=
  match (tree.children.filter (·.kind == .packageDeclaration)).getLast? with
  | some d => ((d.child? .name).bind Node.qualifiedName?).getD ""
  | none => ""

/-- The import that a declaration makes, if it has a name. -/
def importOf? (n : Node) : Option Import :=
  if n.kind = .importDeclaration then
    ((n.child? .name).bind Node.qualifiedName?).map fun name =>
      { name, isStatic := n.hasModifier "static", onDemand := n.spelling == "*" }
  else none

/-! ### Entering types -/

/-- How a declaration declares a type. -/
def typeKindOf (n : Node) : TypeKind :=
  if n.kind = .enumDeclaration then .enumType
  else if n.kind = .typeDeclaration && n.spelling == "class" then .classType
  else .interfaceType

/-- A declared type of which the members are not known yet. -/
def enteredType (package : String) (outer : Option String) (qualified simple : String) (n : Node) :
    TypeInfo :=
  { TypeInfo.declaration (typeKindOf n) qualified .source with
    package
    simpleName := simple
    outer
    typeParams := typeVariablesOf n }

mutual

/-- The types that a node declares if it is a member of something. -/
def typesOf (package : String) (outer : Option String) : Node → List SourceType
  | n@⟨kind, role, _, _, children⟩ =>
    if role = .member && kind.isTypeDeclaration then
      match n.name? with
      | some simple =>
        let qualified := inPackage (outer.getD package) simple
        ⟨enteredType package outer qualified simple n, n, []⟩
          :: typesAmong package (some qualified) children
      | none => []
    else []

/-- The types that some members declare. -/
def typesAmong (package : String) (outer : Option String) : List Node → List SourceType
  | [] => []
  | c :: cs => typesOf package outer c ++ typesAmong package outer cs

end

/-- The text with its header and its types by name. -/
def entered (ix : Index) : Index :=
  let package := packageOf ix.tree
  { ix with
    resolved := true
    package
    imports := ix.tree.children.filterMap importOf?
    sources := typesAmong package none ix.tree.children }

/-! ### Members -/

/-- The fields that the constants of an enumeration are. -/
def constantsOf (owner : String) (n : Node) : List FieldInfo :=
  (n.childrenWith .enumConstant).filterMap fun c => c.name?.map (TypeInfo.enumConstant owner)

/-- The fields that a declaration declares. Those of an interface are static and final. -/
def fieldsOf (sc : TypeScope) (owner : TypeInfo) (n : Node) : List FieldInfo :=
  let always := owner.kind == .interfaceType
  (n.childrenWith .fragment).filterMap fun fragment =>
    fragment.name?.map fun name =>
      { name
        ty := sc.declaredTy n
        isStatic := always || n.hasModifier "static"
        isFinal := always || n.hasModifier "final"
        isEnumConstant := false
        declaring := owner.name }

/-- The method or constructor that a declaration declares. One without a result type is a constructor. -/
def callableOf? (ix : Index) (owner : String) (n : Node) : Option MethodInfo :=
  let sc := TypeScope.ofOffset ix (n.span.start + 1)
  n.name?.map fun name =>
    let params := (n.childrenWith .parameter).map sc.parameter
    if (n.child? .returnType).isSome then
      { name, params, ret := sc.tyIn .returnType n.children, isStatic := n.hasModifier "static"
        declaring := owner }
    else { name, params, ret := .void, isStatic := false, declaring := owner }

/-- The declaration is that of a constructor. -/
def isConstructor (n : Node) : Bool := (n.child? .returnType).isNone

/-- The constructor of a class that declares none. -/
def defaultConstructor (t : TypeInfo) : MethodInfo :=
  { name := t.simpleName, params := [], ret := .void, isStatic := false, declaring := t.name }

/-- The methods and constructors that a type declares, with their declarations. -/
def callablesOf (ix : Index) (owner : String) (n : Node) : List (Node × MethodInfo) :=
  (n.childrenWith .member).filterMap fun m =>
    if m.kind = .methodDeclaration then (callableOf? ix owner m).map (m, ·) else none

/-- A type with its supertypes and members. -/
def completed (ix : Index) (s : SourceType) : SourceType :=
  let n := s.declaration
  let sc := TypeScope.ofOffset ix (n.span.start + 1)
  let fields := (n.childrenWith .member).flatMap fun m =>
    if m.kind = .fieldDeclaration then fieldsOf sc s.info m else []
  let callables := callablesOf ix s.info.name n
  let constructors := (callables.filter fun (m, _) => isConstructor m).map (·.2)
  { s with
    callables := callables.map fun (m, callable) => (m.span, callable)
    info := { s.info with
      superclass := if (n.child? .superClass).isSome then some (sc.tyIn .superClass n.children)
        else s.info.superclass
      interfaces := sc.tysIn .superInterface n.children
      fields := constantsOf s.info.name n ++ fields
      methods := (callables.filter fun (m, _) => !isConstructor m).map (·.2)
      constructors :=
        if s.info.kind = .classType && constructors.isEmpty then [defaultConstructor s.info]
        else constructors } }

/-- The text with its header and its types gone through. Doing it again changes nothing. -/
def resolve (ix : Index) : Index :=
  if ix.resolved then ix
  else { ix.entered with sources := ix.entered.sources.map ix.entered.completed }

end Index

end Shorthand
