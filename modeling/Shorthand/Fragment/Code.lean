import Shorthand.Fragment.Basic
import Shorthand.Tree.Render

/-!
The code that a fragment is.

A fragment becomes an expression, a type or a single word. Expressions and types are trees without places
in a text.
-/

namespace Shorthand

namespace Node

/-- A name without dots. -/
def ofWord (name : String) : Node := (detached .simpleName).withText name

/-- A name with the given parts, the last one first. -/
def ofSegments : (last : String) → (before : List String) → Node
  | last, [] => ofWord last
  | last, next :: before =>
    (detached .qualifiedName).withChildren
      [(ofSegments next before).inRole .qualifier, (ofWord last).inRole .name]

/-- A simple or dotted name. -/
def ofName (name : String) : Node :=
  match (Ty.segments name).reverse with
  | last :: before => ofSegments last before
  | [] => ofWord name

/-- A type with a simple or dotted name. -/
def ofTypeName (name : String) : Node :=
  (detached .simpleType).withChildren [(ofName name).inRole .name]

/-- The kind of a literal that stands for `true`, `false`, `null` or a number. -/
def literalKind (text : String) : Kind :=
  if text = "true" || text = "false" then .booleanLiteral
  else if text = "null" then .nullLiteral
  else .numberLiteral

/-- The literal `true`, `false`, `null` or a number. -/
def ofLiteral (text : String) : Node := (detached (literalKind text)).withText text

/-- An expression as a statement. -/
def asStatement (e : Node) : Node :=
  ((detached .expressionStatement).inRole .statement).withChildren [e.inRole .expression]

end Node

namespace Argument

/-- The expression that the argument is. -/
def toNode : Argument → Node
  | symbol name => .ofWord name
  | default literal => .ofLiteral literal

end Argument

namespace Call

/-- The arguments in their place. -/
def argumentNodes (c : Call) : List Node := c.args.map fun a => a.toNode.inRole .argument

/-- The expression that the call is. -/
def toNode (c : Call) : Node :=
  match c.callee with
  | .method receiver =>
    let before := receiver.toList.map fun r => (Node.ofName r.written).inRole .receiver
    (Node.detached .methodInvocation).withChildren
      (before ++ (Node.ofWord c.method.name).inRole .name :: c.argumentNodes)
  | .constructor t =>
    (Node.detached .classInstanceCreation).withChildren
      ((Node.ofTypeName t.written).inRole .type :: c.argumentNodes)

end Call

/-- What kind of code a fragment is. -/
inductive Code where
  | expression (n : Node)
  | type (n : Node)
  /-- A word behind which the user goes on writing. -/
  | word (text : String)
deriving Repr

namespace Fragment

/-- The code that the fragment is. The keyword `this` is an expression. -/
def code : Fragment → Code
  | keyword .thisKw => .expression (.detached .thisExpression)
  | keyword k | modifier k => .word k.spelling
  | primitive p => .type ((Node.detached .primitiveType).withText p.keyword)
  | type t => .type (.ofTypeName t.written)
  | access ⟨some owner, field⟩ => .expression (.ofName (owner.written ++ "." ++ field.name))
  | access ⟨none, field⟩ => .expression (.ofWord field.name)
  | call c => .expression c.toNode
  | element e => .expression (.ofWord e.name)
  | literal l => .expression (.ofLiteral l.text)

end Fragment

end Shorthand
