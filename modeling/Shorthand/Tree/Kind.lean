/-!
Kinds of syntax tree nodes and the places that nodes take in their parent.

Both sets are closed. A kind says what a node is; a role says which part of its parent it fills, and
the children of a node are found by role.
-/

namespace Shorthand

/-- What a node of a syntax tree is. -/
inductive Kind where
  -- declarations
  | compilationUnit
  | packageDeclaration
  | importDeclaration
  | moduleDeclaration
  | typeDeclaration
  | enumDeclaration
  | annotationTypeDeclaration
  | annotationTypeMemberDeclaration
  | anonymousClassDeclaration
  | enumConstantDeclaration
  | fieldDeclaration
  | methodDeclaration
  | initializer
  | singleVariableDeclaration
  | variableDeclarationFragment
  | typeParameter
  | modifier
  | annotationMarker
  | annotationWithArguments
  | annotationWithValue
  | memberValuePair
  -- statements
  | block
  | assertStatement
  | breakStatement
  | constructorInvocation
  | continueStatement
  | doStatement
  | emptyStatement
  | enhancedForStatement
  | expressionStatement
  | forStatement
  | ifStatement
  | labeledStatement
  | returnStatement
  | superConstructorInvocation
  | switchStatement
  | switchCase
  | synchronizedStatement
  | throwStatement
  | tryStatement
  | catchClause
  | typeDeclarationStatement
  | variableDeclarationStatement
  | whileStatement
  | yieldStatement
  -- expressions
  | arrayAccess
  | arrayCreation
  | arrayInitializer
  | assignment
  | booleanLiteral
  | castExpression
  | characterLiteral
  | classInstanceCreation
  | conditionalExpression
  | fieldAccess
  | infixExpression
  | instanceofExpression
  | lambdaExpression
  | methodInvocation
  | expressionMethodReference
  | nullLiteral
  | numberLiteral
  | parenthesizedExpression
  | postfixExpression
  | prefixExpression
  | qualifiedName
  | simpleName
  | stringLiteral
  | superFieldAccess
  | superMethodInvocation
  | switchExpression
  | textBlock
  | thisExpression
  | typeLiteral
  | variableDeclarationExpression
  -- types
  | arrayType
  | intersectionType
  | parameterizedType
  | primitiveType
  | qualifiedType
  | simpleType
  | unionType
  | wildcardType
  -- documentation and comments
  | javadoc
  | tagElement
  | textElement
  | memberRef
  | methodRef
  | methodRefParameter
  | lineComment
  | blockComment
  -- miscellaneous
  | dimension
  /-- The place of an expression, statement, type or name that is not there. -/
  | missing
deriving DecidableEq, Repr

namespace Kind

/-- The kinds of statements. -/
def isStatement : Kind → Bool
  | block | assertStatement | breakStatement | constructorInvocation | continueStatement
  | doStatement | emptyStatement | enhancedForStatement | expressionStatement
  | forStatement | ifStatement | labeledStatement | returnStatement
  | superConstructorInvocation | switchStatement | switchCase | synchronizedStatement
  | throwStatement | tryStatement | typeDeclarationStatement | variableDeclarationStatement
  | whileStatement | yieldStatement => true
  | _ => false

/-- The kinds of types. -/
def isType : Kind → Bool
  | arrayType | intersectionType | parameterizedType | primitiveType | qualifiedType
  | simpleType | unionType | wildcardType => true
  | _ => false

/-- The kinds of names. -/
def isName : Kind → Bool
  | simpleName | qualifiedName => true
  | _ => false

/-- The kinds of declarations of named types. -/
def isTypeDeclaration : Kind → Bool
  | typeDeclaration | enumDeclaration | annotationTypeDeclaration => true
  | _ => false

end Kind

/-- The part of its parent that a node fills. -/
inductive Role where
  /-- The root, or a node that has no place yet. -/
  | unplaced
  | package
  | importDecl
  | member
  | modifier
  | name
  | qualifier
  | label
  | typeParameter
  | bound
  | superClass
  | superInterface
  | enumConstant
  | type
  | returnType
  | parameter
  | throws
  | body
  | fragment
  | initializer
  | statement
  | expression
  | condition
  | thenBranch
  | elseBranch
  | init
  | update
  | message
  | receiver
  | argument
  | left
  | right
  | operand
  | typeArgument
  | element
  | index
  | dimension
  | resource
  | catchClause
  | finallyBlock
deriving DecidableEq, Repr

end Shorthand
