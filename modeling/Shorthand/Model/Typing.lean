import Shorthand.Model.Members
import Shorthand.Model.TypeNames

/-!
Types of expressions.

An expression is looked at from an offset, with the elements that can be named there. What it denotes is
a value of some type, a type, or nothing: only names can denote something other than a value. The
methods of a name are told apart by the number of arguments alone.
-/

namespace Shorthand

/-- What a named value is. -/
inductive ElementKind where
  | parameter
  | field
  | localVariable
  | enumConstant
  | exceptionParameter
  | resourceVariable
deriving DecidableEq, Repr

/-- A value that can be named at some place. -/
structure Element where
  name : String
  ty : Ty
  kind : ElementKind
  /-- A static field or an enumeration constant. -/
  isStatic : Bool
deriving DecidableEq, Repr

/-- What an expression denotes. -/
inductive Denotation where
  | value (ty : Ty)
  /-- The type with a qualified name. -/
  | type (name : String)
  | nothing
deriving DecidableEq, Repr

namespace Denotation

/-- The type of the value, if it is one. -/
def ty : Denotation → Ty
  | value t => t
  | _ => .unknown

/-- The value or the type with a qualified name, or nothing. -/
def ofType? : Option TypeInfo → Denotation
  | some t => type t.name
  | none => nothing

/-- The type whose members are reached through what is denoted. -/
def owner? : Denotation → Option Ty
  | value t => some t
  | type name => some (.named name)
  | nothing => none

end Denotation

/-! ### Literals and operators -/

/-- The text ends with a character. -/
def endsWith (c : Char) (text : List Char) : Bool := text.getLast? == some c

/-- The type of a number by its spelling. The letters at its end count, except where they are
hexadecimal digits; a point or an exponent makes a fraction. -/
def numberTy (spelling : String) : Primitive :=
  let text := spelling.toList.map Char.toLower
  let hex := ['0', 'x'].isPrefixOf text
  if endsWith 'l' text then .long
  else if !hex && endsWith 'f' text then .float
  else if !hex && (endsWith 'd' text || text.contains '.' || text.contains 'e') then .double
  else .int

/-- The numeric type whose values a type has or holds. -/
def numeric? (t : Ty) : Option Primitive := t.unboxed?.filter (·.isNumeric)

/-- The type of an operator before an operand. -/
def prefixTy (op : String) (operand : Ty) : Ty :=
  if op = "!" then .primitive .boolean
  else if op = "++" || op = "--" then operand
  else ((numeric? operand).map fun p => .primitive p.promoted).getD operand

/-- The type of arithmetic on two operands. -/
def arithmeticTy (left right : Ty) : Ty :=
  match numeric? left, numeric? right with
  | some p, some q => .primitive (p.promotedWith q)
  | _, _ => .unknown

/-- The type of an operator between two operands. -/
def infixTy (op : String) (left right : Ty) : Ty :=
  if op ∈ ["==", "!=", "<", ">", "<=", ">=", "&&", "||"] then .primitive .boolean
  else if op = "+" && (left = .string || right = .string) then .string
  else if op ∈ ["&", "|", "^"] && left.isBoolean && right.isBoolean then .primitive .boolean
  else if op ∈ ["<<", ">>", ">>>"] then
    ((numeric? left).map fun p => .primitive p.promoted).getD .unknown
  else arithmeticTy left right

/-- The type of the literal of a type. -/
def typeLiteralTy (t : Ty) : Ty :=
  let arg := match t with
    | .primitive p => .named p.boxed
    | t => t
  .declared "java.lang.Class" [arg]

/-- An array with so many dimensions, and with one at least. -/
def arrayTy (dimensions : Nat) (element : Ty) : Ty := (List.range (max dimensions 1)).foldl
  (fun t _ => .array t) element

/-! ### Methods by name -/

/-- The method takes any number of arguments from its last parameter on. -/
def takesRest (m : MethodInfo) : Bool :=
  match m.params.getLast? with
  | some ⟨_, .array _⟩ => true
  | _ => false

/-- The first method with a name and so many parameters, or else the first one that takes so many
arguments at the end of its parameters. -/
def pickMethod? (methods : List MethodInfo) (name : String) (arguments : Nat) : Option MethodInfo :=
  let candidates := methods.filter (·.name == name)
  candidates.find? (·.arity == arguments)
    <|> candidates.find? fun m => takesRest m && m.arity ≤ arguments + 1

namespace Index

/-- The parts of a dotted name before and behind its last dot. -/
def splitLast? (name : String) : Option (String × String) :=
  match (Ty.segments name).reverse with
  | last :: next :: rest => some (".".intercalate (next :: rest).reverse, last)
  | _ => none

/-- The type in which a static import looks for a name. -/
def staticOwner? (i : Import) (name : String) : Option String :=
  if i.onDemand then some i.name
  else match splitLast? i.name with
    | some (owner, member) => if member = name then some owner else none
    | none => none

/-- The types in which the static imports look for a name. -/
def staticOwners (ix : Index) (name : String) : List String :=
  (ix.imports.filter (·.isStatic)).filterMap (staticOwner? · name)

/-- The type of a statically imported field. -/
def staticImportField? (ix : Index) (name : String) : Option Ty :=
  (ix.staticOwners name).findSome? fun owner => ix.fieldTy? (.named owner) name

/-- The statically imported methods with a name. -/
def staticImportMethods (ix : Index) (name : String) : List MethodInfo :=
  (ix.staticOwners name).flatMap fun owner =>
    (ix.membersOf (.named owner)).methods.filter fun m => m.isStatic && m.name == name

end Index

/-! ### Expressions -/

/-- The place from which expressions are looked at. -/
structure ExprScope where
  index : Index
  offset : Nat
  /-- The values that can be named there, computed when they are asked for. -/
  elements : Thunk (List Element)

namespace ExprScope

/-- What a simple name denotes: a value, a statically imported field or a type. -/
def ofSimpleName (sc : ExprScope) (name : String) : Denotation :=
  match sc.elements.get.find? (·.name == name) with
  | some e => .value e.ty
  | none =>
    match sc.index.staticImportField? name with
    | some t => .value t
    | none => .ofType? (sc.index.resolveTypeName? name sc.offset)

/-- What a name behind a dot denotes, from what stands before the dot. Where that is nothing, the whole
may be the qualified name of a type. -/
def ofSelection (sc : ExprScope) (before : Denotation) (name : String) (whole : Option String) :
    Denotation :=
  match before with
  | .value t => ((sc.index.fieldTy? t name).map .value).getD .nothing
  | .type owner =>
    match sc.index.fieldTy? (.named owner) name with
    | some t => .value t
    | none => .ofType? (sc.index.lookup? (owner ++ "." ++ name))
  | .nothing => .ofType? (whole.bind sc.index.lookup?)

/-- The type that is written in an expression. -/
def writtenTy (sc : ExprScope) (n : Node) : Ty :=
  (TypeScope.ofOffset sc.index sc.offset).declaredTy n

/-- The number of arguments of a call. -/
def argumentCount (n : Node) : Nat := (n.childrenWith .argument).length

/-- The superclass of the innermost type. -/
def superclass? (sc : ExprScope) : Option Ty :=
  (sc.index.enclosingType? sc.offset).bind (·.superclass)

/-- The method that a call without a receiver calls: that of an enclosing type, or an imported one. -/
def unqualifiedMethod? (sc : ExprScope) (name : String) (arguments : Nat) : Option MethodInfo :=
  ((sc.index.enclosingChain sc.offset).findSome? fun t =>
      pickMethod? (sc.index.membersOf t).methods name arguments)
    <|> pickMethod? (sc.index.staticImportMethods name) name arguments

/-- The type of a call of a method of some type. -/
def callTy (sc : ExprScope) (owner : Option Ty) (name : String) (arguments : Nat) : Ty :=
  ((owner.bind fun t => pickMethod? (sc.index.membersOf t).methods name arguments).map (·.ret)).getD
    .unknown

/-- The type of the object itself, or of that of a type around it. -/
def thisTy (sc : ExprScope) : Option Denotation → Ty
  | some (.type name) => ((sc.index.lookup? name).map (·.asTy)).getD (.named name)
  | some _ => .unknown
  | none => ((sc.index.enclosingType? sc.offset).map (·.asTy)).getD .unknown

/-- The type of a choice between two values: that of the first, unless this says nothing. -/
def choiceTy (first : Ty) (second : Option Ty) : Ty :=
  if first = .null || first = .unknown then second.getD first else first

/-- The type of what an index picks from an array. -/
def elementOf : Ty → Ty
  | .array t => t
  | _ => .unknown

mutual

/-- What an expression denotes. -/
def denote (sc : ExprScope) : Node → Denotation
  | n@⟨.simpleName, _, _, _, _⟩ => sc.ofSimpleName n.spelling
  | n@⟨.qualifiedName, _, _, _, children⟩ =>
    match sc.denoteIn .qualifier children, n.name? with
    | some before, some name => sc.ofSelection before name n.qualifiedName?
    | _, _ => .nothing
  | n@⟨.fieldAccess, _, _, _, children⟩ =>
    match sc.denoteIn .receiver children, n.name? with
    | some before, some name => sc.ofSelection before name none
    | _, _ => .nothing
  | n@⟨.numberLiteral, _, _, _, _⟩ => .value (.primitive (numberTy n.spelling))
  | ⟨.stringLiteral, _, _, _, _⟩ | ⟨.textBlock, _, _, _, _⟩ => .value .string
  | ⟨.characterLiteral, _, _, _, _⟩ => .value (.primitive .char)
  | ⟨.booleanLiteral, _, _, _, _⟩ => .value (.primitive .boolean)
  | ⟨.nullLiteral, _, _, _, _⟩ => .value .null
  | n@⟨.superFieldAccess, _, _, _, _⟩ =>
    .value ((n.name?.bind fun name => sc.superclass?.bind (sc.index.fieldTy? · name)).getD .unknown)
  | n@⟨.methodInvocation, _, _, _, children⟩ =>
    match n.name? with
    | none => .value .unknown
    | some name =>
      match sc.denoteIn .receiver children with
      | some before => .value (sc.callTy before.owner? name (argumentCount n))
      | none =>
        .value (((sc.unqualifiedMethod? name (argumentCount n)).map (·.ret)).getD .unknown)
  | n@⟨.superMethodInvocation, _, _, _, _⟩ =>
    match n.name? with
    | some name => .value (sc.callTy sc.superclass? name (argumentCount n))
    | none => .value .unknown
  | n@⟨.classInstanceCreation, _, _, _, _⟩ | n@⟨.castExpression, _, _, _, _⟩ =>
    .value (sc.writtenTy n)
  | n@⟨.arrayCreation, _, _, _, _⟩ =>
    if (n.child? .type).isSome then
      .value (arrayTy (n.childrenWith .dimension).length (sc.writtenTy n))
    else .value .unknown
  | ⟨.parenthesizedExpression, _, _, _, children⟩ => .value (sc.tyIn .expression children)
  | ⟨.assignment, _, _, _, children⟩ => .value (sc.tyIn .left children)
  | ⟨.conditionalExpression, _, _, _, children⟩ =>
    .value (choiceTy (sc.tyIn .thenBranch children)
      ((sc.denoteIn .elseBranch children).map (·.ty)))
  | n@⟨.infixExpression, _, _, _, children⟩ =>
    .value (infixTy n.spelling (sc.tyIn .left children) (sc.tyIn .right children))
  | ⟨.instanceofExpression, _, _, _, _⟩ => .value (.primitive .boolean)
  | n@⟨.prefixExpression, _, _, _, children⟩ =>
    .value (prefixTy n.spelling (sc.tyIn .operand children))
  | ⟨.postfixExpression, _, _, _, children⟩ => .value (sc.tyIn .operand children)
  | ⟨.thisExpression, _, _, _, children⟩ => .value (sc.thisTy (sc.denoteIn .qualifier children))
  | ⟨.arrayAccess, _, _, _, children⟩ => .value (elementOf (sc.tyIn .receiver children))
  | n@⟨.typeLiteral, _, _, _, _⟩ => .value (typeLiteralTy (sc.writtenTy n))
  | _ => .value .unknown

/-- What the first of some nodes in a role denotes. -/
def denoteIn (sc : ExprScope) (role : Role) : List Node → Option Denotation
  | [] => none
  | c :: cs => if c.role = role then some (sc.denote c) else sc.denoteIn role cs

/-- The type of the first of some nodes in a role. -/
def tyIn (sc : ExprScope) (role : Role) : List Node → Ty
  | [] => .unknown
  | c :: cs => if c.role = role then (sc.denote c).ty else sc.tyIn role cs

end

/-- The type of an expression. -/
def tyOf (sc : ExprScope) (n : Node) : Ty := (sc.denote n).ty

end ExprScope

end Shorthand
