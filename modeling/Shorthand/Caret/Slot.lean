import Shorthand.Caret.Construct
import Shorthand.Caret.Surroundings
import Shorthand.Tree.TreePath

/-!
What can be written at a caret.

The innermost node around the caret gives the construct, and the tokens before the caret give the slot
in it. `Site.ofOffset` finds both.
-/

namespace Shorthand

/-- The sort of types that is asked for. -/
inductive TypeSort where
  | any
  | classes
  | interfaces
  /-- Classes of objects that can be thrown. -/
  | exceptions
deriving DecidableEq, Repr

/-- A place in a construct. -/
inductive Slot where
  /-- Nothing can be completed. -/
  | nothing
  | compilationUnit
  /-- Between the name of a type and its body. -/
  | typeHeader
  | members
  | parameters
  /-- Behind the parameters of a method, before its body. -/
  | afterParameters
  | types (sort : TypeSort) (primitives : Bool)
  | statement
  /-- Directly behind the opening brace of a switch. -/
  | switchStart
  /-- Behind a label or a statement of a switch. -/
  | switchStatement
  | caseLabel
  | expression
  | condition
  /-- Behind `new`. -/
  | instanceCreation
deriving DecidableEq, Repr

namespace Slot

/-- Any type, primitive ones included. -/
def anyType : Slot := types .any true

/-- A declared type of any sort. -/
def declaredType : Slot := types .any false

/-- The class of an exception. -/
def exceptionType : Slot := types .exceptions false

/-- An expression behind one of some tokens, and nothing elsewhere. -/
def expressionBehind (found : Option Punct) : Slot := if found.isSome then expression else nothing

end Slot

/-- The keywords of the head of a type. -/
def headKeywords : List Keyword := [.extendsKw, .implementsKw]

namespace Surroundings

variable (s : Surroundings)

/-- The slot in the head of a type. -/
def headSlot (n : Node) : Slot :=
  match s.keywordBefore? n headKeywords with
  | some .extendsKw => .types (if n.spelling == "interface" then .interfaces else .classes) false
  | some _ => .types .interfaces false
  | none => if (n.child? .name).any (·.span.stop ≤ s.caret) then .typeHeader else .nothing

/-- The slot in the declaration of a class or interface. -/
def typeSlot (n : Node) : Slot :=
  match s.punctBefore? n [.openBrace, .closeBrace, .semi, .comma] with
  | some .closeBrace | some .semi | some .openBrace => .members
  | _ => s.headSlot n

/-- The slot in the declaration of an enumeration. The names of its constants are new ones. -/
def enumSlot (n : Node) : Slot :=
  match s.punctBefore? n [.openBrace, .closeBrace, .semi, .comma] with
  | some .closeBrace | some .semi => .members
  | some _ => if (s.punctBefore? n [.semi]).isSome then .members else .nothing
  | none => s.headSlot n

/-- The slot in the declaration of a method. -/
def methodSlot (n : Node) : Slot :=
  match s.punctBefore? n [.openParen, .comma, .closeParen, .openBrace, .semi, .closeBrace] with
  | some .openBrace | some .semi | some .closeBrace | none => .nothing
  | some p =>
    if (s.keywordBefore? n [.throwsKw]).isSome then .exceptionType
    else if p = .closeParen then .afterParameters
    else .parameters

/-- The slot in the declaration of a parameter: its type, up to the name. -/
def parameterSlot (n : Node) (parent : Option Node) : Slot :=
  if (n.child? .name).all fun name => name.isMissing || s.caret ≤ name.span.start then
    if parent.any (·.kind == .catchClause) then .exceptionType else .anyType
  else .nothing

/-- The slot in the declaration of fields or variables, where `otherwise` is what stands before the
names. -/
def declarationSlot (n : Node) (otherwise : Slot) : Slot :=
  match s.punctBefore? n [.eq, .comma, .semi] with
  | some .eq => .expression
  | some _ => .nothing
  | none => otherwise

/-- The slot in a statement with a head in parentheses, by what stands in the head. -/
def headedSlot (n : Node) (head : Slot) : Slot :=
  match s.punctBefore? n [.openParen, .closeParen] with
  | some .openParen => head
  | some _ => .statement
  | none => .nothing

/-- The slot in a loop over the elements of something. -/
def enhancedForSlot (n : Node) : Slot :=
  match s.punctBefore? n [.openParen, .colon, .closeParen] with
  | some .openParen => .anyType
  | some .colon => .expression
  | some _ => .statement
  | none => .nothing

/-- The slot in a loop with a counter. The condition stands behind the first semicolon. -/
def forSlot (n : Node) : Slot :=
  match s.punctBefore? n [.openParen, .semi, .closeParen] with
  | some .openParen => .expression
  | some .semi => if s.semicolonsSince n.span.start = 1 then .condition else .expression
  | some _ => .statement
  | none => .nothing

/-- The first branch of an if statement ends at or before the caret. -/
def isBehindThen (n : Node) : Bool :=
  (n.child? .thenBranch).any fun branch => !branch.isMissing && branch.span.stop ≤ s.caret

/-- The slot in a switch. -/
def switchSlot (n : Node) : Slot :=
  match s.punctBefore? n [.openParen, .closeParen, .openBrace, .colon, .semi, .closeBrace] with
  | some .openParen => .expression
  | some .openBrace => .switchStart
  | some .colon | some .semi | some .closeBrace => .switchStatement
  | _ => .nothing

/-- The slot in a construct. -/
def slotIn (construct : Construct) (n : Node) (parent : Option Node) : Slot :=
  match construct with
  | .other => .nothing
  | .compilationUnit => .compilationUnit
  | .typeDeclaration => s.typeSlot n
  | .enumDeclaration => s.enumSlot n
  | .annotationTypeDeclaration =>
    if (s.punctBefore? n [.openBrace]).isSome then .members else .nothing
  | .anonymousClassBody => .members
  | .enumConstant | .invocation => .expressionBehind (s.punctBefore? n [.openParen, .comma])
  | .fieldDeclaration => s.declarationSlot n .members
  | .methodDeclaration => s.methodSlot n
  | .parameter => s.parameterSlot n parent
  | .variableFragment => .expressionBehind (s.punctBefore? n [.eq])
  | .variableDeclaration => s.declarationSlot n .anyType
  | .typeParameter =>
    if (s.keywordBefore? n [.extendsKw]).isSome then .declaredType else .nothing
  | .block => .statement
  | .assertion => if (s.punctBefore? n [.colon]).isSome then .expression else .condition
  | .instanceCreation =>
    if (s.punctBefore? n [.openParen, .comma]).isSome then .expression else .instanceCreation
  | .doLoop => if (s.punctBefore? n [.openParen]).isSome then .condition else .statement
  | .whileLoop => s.headedSlot n .condition
  | .enhancedFor => s.enhancedForSlot n
  | .forLoop => s.forSlot n
  | .ifStatement => if s.isBehindThen n then .statement else s.headedSlot n .condition
  | .labeled => if (s.punctBefore? n [.colon]).isSome then .statement else .nothing
  | .switchBody => s.switchSlot n
  | .switchCase => if n.spelling == "default" then .nothing else .caseLabel
  | .synchronizedStatement => .expressionBehind (s.punctBefore? n [.openParen])
  | .tryStatement =>
    match s.punctBefore? n [.openParen, .semi, .closeParen, .openBrace] with
    | some .openParen | some .semi => .types .classes false
    | _ => .nothing
  | .catchClause =>
    match s.punctBefore? n [.openParen, .closeParen] with
    | some .openParen => .exceptionType
    | _ => .nothing
  | .unionType => .exceptionType
  | .arrayAccess => .expressionBehind (s.punctBefore? n [.openBracket])
  | .arrayCreation => .expressionBehind (s.punctBefore? n [.openBracket, .openBrace, .comma])
  | .cast =>
    match s.punctBefore? n [.openParen, .closeParen] with
    | some .openParen => .anyType
    | some _ => .expression
    | none => .nothing
  | .instanceTest | .typeArguments => .declaredType
  | .lambda => .expressionBehind (s.punctBefore? n [.arrow])
  | .expressionStatement | .returnStatement | .throwStatement | .yieldStatement
  | .arrayInitializer | .assignment | .conditional | .infixOperation | .parenthesized
  | .prefixOperation => .expression

end Surroundings

/-- Where a caret is in a tree. -/
structure Site where
  construct : Construct
  slot : Slot
  /-- The innermost node around the caret. -/
  node : Node
  parent : Option Node

namespace Site

/-- The place of a caret in a tree. -/
def ofOffset (root : Node) (s : Surroundings) : Site :=
  let path := TreePath.ofOffset root s.caret
  let construct := Construct.ofKind path.leaf.kind
  let parent := if path.leafDepth = 0 then none else path.node? (path.leafDepth - 1)
  { construct, slot := s.slotIn construct path.leaf parent, node := path.leaf, parent }

end Site

end Shorthand
