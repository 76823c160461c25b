import Shorthand.Caret.Slot
import Shorthand.Model.Scope
import Shorthand.Tree.Render

/-!
The type that a value at a caret should have.

`Site.expectedTy?` finds it from what the value is for: a condition, a result, an initial value, an
argument and so on. Nothing is expected where the place accepts any value or where the type that it asks
for is not known.
-/

namespace Shorthand

/-- The type, if it is known. -/
def knownTy? (t : Ty) : Option Ty := if t = .unknown then none else some t

namespace Index

/-- A type argument; one that is not known goes with any other. -/
def knownArgument (t : Ty) : Ty := if t = .unknown then .var "?" else t

mutual

/-- The type that a written type stands for, if it is that of a known declaration. -/
def knownTyOf (ix : Index) (offset : Nat) : Node → Ty
  | n@⟨.primitiveType, _, _, _, _⟩ => TypeScope.ofKeyword n.spelling
  | n@⟨.simpleType, _, _, _, _⟩ =>
    match ((n.child? .name).bind Node.qualifiedName?).bind (ix.resolveTypeName? · offset) with
    | some t => .named t.name
    | none => .unknown
  | ⟨.parameterizedType, _, _, _, children⟩ =>
    TypeScope.applied (ix.knownArgumentsIn offset children) (ix.knownTyIn offset .type children)
  | ⟨.arrayType, _, _, _, children⟩ =>
    if (children.find? (·.role == .element)).isSome then
      .array (ix.knownTyIn offset .element children)
    else .unknown
  | _ => .unknown

/-- The type that the first of some nodes in a role stands for. -/
def knownTyIn (ix : Index) (offset : Nat) (role : Role) : List Node → Ty
  | [] => .unknown
  | c :: cs => if c.role = role then ix.knownTyOf offset c else ix.knownTyIn offset role cs

/-- The type arguments among some nodes. -/
def knownArgumentsIn (ix : Index) (offset : Nat) : List Node → List Ty
  | [] => []
  | c :: cs =>
    let rest := ix.knownArgumentsIn offset cs
    if c.role = .typeArgument then knownArgument (ix.knownTyOf offset c) :: rest else rest

end

/-- The type of a node as an expression that is written at an offset. -/
def tyOfCopy (ix : Index) (n : Node) (offset : Nat) : Ty := ix.tyOfSnippet n.render offset

/-- The methods of a type that have a name. -/
def methodsNamed (ix : Index) (owner : Ty) (name : String) : List MethodInfo :=
  (ix.membersOf owner).methods.filter (·.name == name)

/-- The constructors of the type with a qualified name. -/
def constructorsOf (ix : Index) (name : String) : List MethodInfo :=
  ((ix.lookup? name).map (·.constructors)).getD []

/-- The methods or constructors that a call around an offset may call. -/
def callables (ix : Index) (call : Node) (offset : Nat) : List MethodInfo :=
  let enclosing := ix.enclosingType? offset
  match call.kind with
  | .methodInvocation =>
    let owner := match call.child? .receiver with
      | some receiver => some (ix.tyOfCopy receiver offset)
      | none => enclosing.map (·.asTy)
    match call.name?, owner with
    | some name, some owner => ix.methodsNamed owner name
    | _, _ => []
  | .superMethodInvocation =>
    match call.name?, enclosing.bind (·.superclass) with
    | some name, some superclass => ix.methodsNamed superclass name
    | _, _ => []
  | .classInstanceCreation =>
    match ix.knownTyIn offset .type call.children with
    | .declared name _ => ix.constructorsOf name
    | _ => []
  | .constructorInvocation | .enumConstantDeclaration =>
    (enclosing.map (·.constructors)).getD []
  | .superConstructorInvocation =>
    match (enclosing.bind (·.superclass)).bind (·.qualifiedName?) with
    | some name => ix.constructorsOf name
    | none => []
  | _ => []

end Index

/-- The type on which some parameter types agree, if there are any and they do. -/
def agreedTy? : List Ty → Option Ty
  | [] => none
  | t :: ts => if ts.all (· = t) then some t else none

/-- The methods with so many parameters; without any, those with a parameter at the index. -/
def candidatesFor (methods : List MethodInfo) (count index : Nat) : List MethodInfo :=
  let exact := methods.filter (·.arity == count)
  if exact.isEmpty then methods.filter (index < ·.arity) else exact

/-- The types of the parameters at an index. -/
def paramTysAt (index : Nat) (methods : List MethodInfo) : List Ty :=
  methods.filterMap fun m => m.params[index]?.map (·.ty)

namespace Surroundings

/-- The index of the argument of a call in which the caret is. -/
def argumentIndexIn? (s : Surroundings) (call : Node) : Option Nat :=
  let name := call.child? .name <|> call.child? .type
  let behind := (name.map (·.span.stop)).getD call.span.start
  (s.openParenAfter? behind).map fun t => s.argumentIndex t.span.start

/-- The type of the parameter for the argument in which the caret is, when all that the call may call
agree on it. -/
def argumentTy? (s : Surroundings) (ix : Index) (call : Node) : Option Ty := do
  let index ← s.argumentIndexIn? call
  let count := max (call.childrenWith .argument).length (index + 1)
  agreedTy? (paramTysAt index (candidatesFor (ix.callables call s.caret) count index))

end Surroundings

/-- The type of what can be thrown. -/
def throwable : Ty := .named "java.lang.Throwable"

namespace Site

variable (site : Site) (s : Surroundings) (ix : Index)

/-- The type of the value that the switch around a label looks at. -/
def selectorTy? : Option Ty := do
  let selector ← (← site.parent.filter (·.kind == .switchStatement)).child? .expression
  knownTy? (ix.tyOfCopy selector s.caret)

/-- The type that the method around the caret returns. -/
def resultTy? : Option Ty := do
  let method ← ix.enclosingMethod? s.caret
  if method.ret = .void then none else knownTy? method.ret

/-- The type of the variables that are declared around the caret. -/
def variableTy? : Option Ty := do
  knownTy? (ix.knownTyOf s.caret (← (← site.parent).child? .type))

/-- The type of what is assigned to, for an assignment without another operation. -/
def targetTy? : Option Ty :=
  if site.node.spelling == "=" then do
    knownTy? (ix.tyOfCopy (← site.node.child? .left) s.caret)
  else none

/-- The type of an index or a size in brackets; nothing behind them. -/
def bracketTy? : Option Ty :=
  if (site.node.childrenWith .initializer).all (s.caret ≤ ·.span.start) then
    some (.primitive .int)
  else none

/-- The type that an expression at the caret should have. -/
def expressionTy? : Option Ty :=
  match site.construct with
  | .returnStatement => resultTy? s ix
  | .variableFragment => site.variableTy? s ix
  | .assignment => site.targetTy? s ix
  | .invocation | .instanceCreation | .enumConstant => s.argumentTy? ix site.node
  | .arrayAccess | .arrayCreation => site.bracketTy? s
  | .throwStatement => some throwable
  | _ => none

/-- The type that a value at the caret should have. -/
def expectedTy? : Option Ty :=
  match site.slot with
  | .condition => some (.primitive .boolean)
  | .caseLabel => site.selectorTy? s ix
  | .expression => site.expressionTy? s ix
  | _ => none

end Site

end Shorthand
