import Shorthand.Tree.Kind

/-!
The constructs that a caret can be in.

`Construct.ofKind` says for every kind of node what it is to the user who writes in it. Kinds in which
nothing can be completed are `other`.
-/

namespace Shorthand

/-- What surrounds a caret. -/
inductive Construct where
  /-- Nothing can be completed. -/
  | other
  | compilationUnit
  | typeDeclaration
  | enumDeclaration
  | annotationTypeDeclaration
  | anonymousClassBody
  | enumConstant
  | fieldDeclaration
  | methodDeclaration
  | parameter
  | variableFragment
  | variableDeclaration
  | typeParameter
  | block
  | assertion
  | invocation
  | instanceCreation
  | doLoop
  | whileLoop
  | enhancedFor
  | expressionStatement
  | forLoop
  | ifStatement
  | labeled
  | returnStatement
  | switchBody
  | switchCase
  | synchronizedStatement
  | throwStatement
  | yieldStatement
  | tryStatement
  | catchClause
  | unionType
  | arrayAccess
  | arrayCreation
  | arrayInitializer
  | assignment
  | cast
  | conditional
  | infixOperation
  | instanceTest
  | lambda
  | parenthesized
  | prefixOperation
  | typeArguments
deriving DecidableEq, Repr

namespace Construct

/-- The construct that a node of a kind is. -/
def ofKind : Kind → Construct
  | .compilationUnit => compilationUnit
  | .typeDeclaration => typeDeclaration
  | .enumDeclaration => enumDeclaration
  | .annotationTypeDeclaration => annotationTypeDeclaration
  | .anonymousClassDeclaration => anonymousClassBody
  | .enumConstantDeclaration => enumConstant
  | .fieldDeclaration => fieldDeclaration
  | .methodDeclaration => methodDeclaration
  | .singleVariableDeclaration => parameter
  | .variableDeclarationFragment => variableFragment
  | .variableDeclarationStatement | .variableDeclarationExpression => variableDeclaration
  | .typeParameter => typeParameter
  | .block => block
  | .assertStatement => assertion
  | .methodInvocation | .superMethodInvocation | .constructorInvocation
  | .superConstructorInvocation => invocation
  | .classInstanceCreation => instanceCreation
  | .doStatement => doLoop
  | .whileStatement => whileLoop
  | .enhancedForStatement => enhancedFor
  | .expressionStatement => expressionStatement
  | .forStatement => forLoop
  | .ifStatement => ifStatement
  | .labeledStatement => labeled
  | .returnStatement => returnStatement
  | .switchStatement | .switchExpression => switchBody
  | .switchCase => switchCase
  | .synchronizedStatement => synchronizedStatement
  | .throwStatement => throwStatement
  | .yieldStatement => yieldStatement
  | .tryStatement => tryStatement
  | .catchClause => catchClause
  | .unionType => unionType
  | .arrayAccess => arrayAccess
  | .arrayCreation => arrayCreation
  | .arrayInitializer => arrayInitializer
  | .assignment => assignment
  | .castExpression => cast
  | .conditionalExpression => conditional
  | .infixExpression => infixOperation
  | .instanceofExpression => instanceTest
  | .lambdaExpression => lambda
  | .parenthesizedExpression => parenthesized
  | .prefixExpression => prefixOperation
  | .parameterizedType => typeArguments
  | _ => other

end Construct

end Shorthand
