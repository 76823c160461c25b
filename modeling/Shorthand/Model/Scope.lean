import Shorthand.Grammar.Parse
import Shorthand.Model.Resolve
import Shorthand.Model.Typing

/-!
The values that can be named at an offset.

Local variables, parameters and resources come from the constructs around the offset, the innermost
first, and then the fields of the types around it. Of several elements with one name only the innermost
can be named.

The type of a variable that is declared without one is that of its initial value, which is looked at
from where it stands. It stands before the offset, so elements at one offset depend on elements at
smaller offsets only.
-/

namespace Shorthand

/-- The node of a type says that it is to be inferred. -/
def isInferred (ty : Node) : Bool :=
  ty.kind == .simpleType
    && (ty.child? .name).any fun n => n.kind == .simpleName && n.spelling == "var"

namespace Element

/-- The elements of which no earlier one has the name. -/
def visible (es : List Element) : List Element :=
  es.foldl (fun out e => if out.all (·.name != e.name) then out ++ [e] else out) []

/-- The element that a field is. -/
def ofField (f : FieldInfo) : Element :=
  { name := f.name, ty := f.ty, kind := if f.isEnumConstant then .enumConstant else .field
    isStatic := f.isStatic }

/-- An element other than a field. -/
def ofVariable (name : String) (ty : Ty) (kind : ElementKind) : Element :=
  { name, ty, kind, isStatic := false }

end Element

namespace Index

/-- The type of the elements of an array, or of what can be iterated over. -/
def elementTy (ix : Index) : Ty → Ty
  | .array t => t
  | t@(.declared _ _) =>
    match (ix.membersOf t).methods.find? fun m => m.name == "iterator" && m.params.isEmpty with
    | some ⟨_, _, .declared _ (arg :: _), _, _⟩ => arg
    | _ => .unknown
  | _ => .unknown

end Index

/-- What is needed to find the elements at an offset. -/
structure ElementScope where
  types : TypeScope
  /-- The types of expressions, each looked at from where it stands. -/
  exprTy : Node → Ty

namespace ElementScope

variable (sc : ElementScope)

/-- The type of a variable with a type and an initial value. -/
def variableTy (declaration fragment : Node) : Ty :=
  if (declaration.child? .type).any isInferred then
    ((fragment.child? .initializer).map sc.exprTy).getD .unknown
  else sc.types.declaredTy declaration

/-- The variables of a declaration. -/
def declared (kind : ElementKind) (declaration : Node) : List Element :=
  (declaration.childrenWith .fragment).filterMap fun fragment =>
    fragment.name?.map fun name =>
      .ofVariable name (sc.variableTy declaration fragment) kind

/-- The parameter of a method, lambda, loop or catch clause, if it has a name. -/
def parameter (kind : ElementKind) (param : Node) : Option Element :=
  match param.kind with
  | .singleVariableDeclaration =>
    let info := sc.types.parameter param
    if info.name = "" then none else some (.ofVariable info.name info.ty kind)
  | .simpleName => some (.ofVariable param.spelling .unknown kind)
  | _ => none

/-- The variable of a loop over the elements of something. -/
def loopVariable (loop param : Node) : Option Element :=
  (sc.parameter .localVariable param).map fun e =>
    if (param.child? .type).any isInferred then
      { e with ty := ((loop.child? .expression).map fun iterable =>
          sc.types.index.elementTy (sc.exprTy iterable)).getD .unknown }
    else e

/-- The node declares variables and ends at or before an offset. -/
def declaredBy (kind : Kind) (offset : Nat) (n : Node) : Bool :=
  n.kind == kind && n.span.stop ≤ offset

/-- The elements that a construct around the offset adds to those outside of it, when the way to the
offset goes on through the child at an index. -/
def introduced (n : Node) (through : Option Nat) : List Element :=
  let role := (through.bind (n.children[·]?)).map (·.role)
  match n.kind with
  | .block | .switchStatement =>
    let before := n.children.take (through.getD n.children.length)
    ((before.filter (declaredBy .variableDeclarationStatement sc.types.offset)).flatMap
      (sc.declared .localVariable)).reverse
  | .forStatement =>
    ((n.childrenWith .init).filter (·.kind == .variableDeclarationExpression)).flatMap
      (sc.declared .localVariable)
  | .enhancedForStatement =>
    if role = some .body then ((n.child? .parameter).bind (sc.loopVariable n)).toList else []
  | .catchClause => ((n.child? .parameter).bind (sc.parameter .exceptionParameter)).toList
  | .tryStatement =>
    if role = some .body || role = some .resource then
      ((n.childrenWith .resource).filter
          (declaredBy .variableDeclarationExpression sc.types.offset)).flatMap
        (sc.declared .resourceVariable)
    else []
  | .methodDeclaration | .lambdaExpression =>
    (n.childrenWith .parameter).filterMap (sc.parameter .parameter)
  | _ => []

end ElementScope

namespace Index

/-- The nodes around an offset from the innermost to the outermost, each with the index of the child
through which the way to the offset goes on. -/
def waysOut (ix : Index) (offset : Nat) : List (Node × Option Nat) :=
  let path := TreePath.ofOffset ix.tree offset
  (path.nodes.zip (path.indices.map some ++ [none])).reverse

/-- The fields of the types around an offset. -/
def enclosingFields (ix : Index) (offset : Nat) : List Element :=
  (ix.enclosingChain offset).flatMap fun t => (ix.membersOf t).fields.map .ofField

/-- The elements that can be named at an offset, from those at smaller offsets. -/
def elementsGiven (ix : Index) (offset : Nat) (before : (o : Nat) → o < offset → List Element) :
    List Element :=
  let exprTy := fun (n : Node) =>
    let start := n.span.start
    ExprScope.tyOf ⟨ix, start, Thunk.mk fun _ => if h : start < offset then before start h else []⟩ n
  let sc : ElementScope := ⟨.ofOffset ix offset, exprTy⟩
  Element.visible (((ix.waysOut offset).flatMap fun (n, through) => sc.introduced n through)
    ++ ix.enclosingFields offset)

/-- The elements that can be named at an offset, also before the text is gone through. -/
def elementsAt (ix : Index) (offset : Nat) : List Element :=
  ix.elementsGiven offset fun o _ => ix.elementsAt o
termination_by offset

/-- The elements that can be named at an offset, the innermost first. -/
def elementsInScope (ix : Index) (offset : Nat) : List Element :=
  if ix.resolved then ix.elementsAt offset else []

/-- The place from which expressions at an offset are looked at. -/
def exprScope (ix : Index) (offset : Nat) : ExprScope :=
  ⟨ix, offset, Thunk.mk fun _ => ix.elementsAt offset⟩

/-- The type of a text as an expression at an offset, if it is a faultless one. -/
def tyOfSnippet (ix : Index) (snippet : String) (offset : Nat) : Ty :=
  let parsed := parseExpression snippet
  if parsed.diagnostics.isEmpty then (ix.exprScope offset).tyOf parsed.tree else .unknown

end Index

end Shorthand
