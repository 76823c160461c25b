import Shorthand.Tree.Kind

/-!
Which nodes can take up an expression.

An expression that is put at a caret goes into the innermost node around it that is no part of a larger
expression, type or declaration of variables.
-/

namespace Shorthand

/-- How a node takes up an expression. -/
inductive Host where
  /-- As a new statement. -/
  | statements
  /-- As the result of a return statement. -/
  | result
  /-- In a part that is missing at the caret. -/
  | gaps
  /-- In the first argument with a missing part. -/
  | arguments
  /-- In place of a creation without a type, or in the first argument with a missing part. -/
  | creation
  /-- Not at all. -/
  | closed
  /-- Not by itself: what is around it decides. -/
  | transparent
deriving DecidableEq, Repr

namespace Host

/-- How a node of a kind takes up an expression. -/
def ofKind : Kind → Host
  | .block | .switchStatement | .switchExpression => statements
  | .returnStatement => result
  | .assertStatement | .ifStatement | .whileStatement | .doStatement | .enhancedForStatement
  | .forStatement | .expressionStatement | .switchCase | .catchClause
  | .variableDeclarationFragment | .assignment | .parenthesizedExpression | .throwStatement
  | .yieldStatement | .synchronizedStatement | .labeledStatement => gaps
  | .methodInvocation | .superMethodInvocation | .constructorInvocation
  | .superConstructorInvocation | .enumConstantDeclaration => arguments
  | .classInstanceCreation => creation
  | .arrayAccess | .arrayCreation | .arrayInitializer | .booleanLiteral | .castExpression
  | .characterLiteral | .conditionalExpression | .fieldAccess | .infixExpression
  | .instanceofExpression | .lambdaExpression | .expressionMethodReference | .nullLiteral
  | .numberLiteral | .postfixExpression | .prefixExpression | .qualifiedName | .simpleName
  | .stringLiteral | .superFieldAccess | .textBlock | .thisExpression | .typeLiteral
  | .variableDeclarationExpression | .variableDeclarationStatement | .singleVariableDeclaration
  | .arrayType | .intersectionType | .parameterizedType | .primitiveType | .qualifiedType
  | .simpleType | .unionType | .wildcardType | .dimension => transparent
  | _ => closed

end Host

end Shorthand
