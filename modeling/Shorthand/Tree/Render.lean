import Shorthand.Tree.Node

/-!
Writing a syntax tree as source text.

The text stands on one line, with a single space wherever the language or the reader needs one.
`Node.render` writes the children of a node first and lets `assemble` put them together, so what a
node looks like is told once for each kind, over the written children.
-/

namespace Shorthand

/-- The text of a missing part. -/
def missingMarker : String := "$missing$"

/-- A child that has been written. -/
structure Rendered where
  role : Role
  kind : Kind
  text : String
deriving Repr

namespace Rendered

variable (parts : List Rendered)

/-- The texts of the parts in a role. -/
def texts (role : Role) : List String := (parts.filter (·.role == role)).map (·.text)

/-- The text of the first part in a role, if there is one. -/
def first? (role : Role) : Option String := (texts parts role).head?

/-- The text of the first part in a role, or nothing. -/
def part (role : Role) : String := (first? parts role).getD ""

/-- The first part in a role between two texts, or nothing. -/
def within (before : String) (role : Role) (after : String) : String :=
  match first? parts role with
  | some text => before ++ text ++ after
  | none => ""

/-- The parts in a role with a separator between them. -/
def joined (role : Role) (sep : String) : String := sep.intercalate (texts parts role)

/-- The parts in a role with a separator between them and texts around them, or nothing. -/
def joinedWithin (before : String) (role : Role) (sep after : String) : String :=
  if (texts parts role).isEmpty then "" else before ++ joined parts role sep ++ after

/-- The parts in a role, each followed by a space. -/
def spaced (role : Role) : String := String.join ((texts parts role).map (· ++ " "))

/-- The type parameters of a declaration. -/
def typeParameters : String := joinedWithin parts "<" .typeParameter ", " ">"

/-- The arguments of a call. -/
def arguments : String := "(" ++ joined parts .argument ", " ++ ")"

/-- The parts in a role between braces. -/
def braced (role : Role) : String :=
  if (texts parts role).isEmpty then "\x7b\x7d" else "\x7b " ++ joined parts role " " ++ " \x7d"

/-- One of the parts is the modifier of a name. -/
def hasModifier (keyword : String) : Bool :=
  parts.any fun p => p.role == .modifier && p.kind == .modifier && p.text == keyword

/-- The sizes of an array that is created, those left open included. -/
def dimensions : String :=
  String.join ((parts.filter (·.role == .dimension)).map fun p =>
    if p.kind = .dimension then "[]" else "[" ++ p.text ++ "]")

end Rendered

open Rendered in
/-- The text of a node of a kind, from its own text and its written children. -/
def assemble (kind : Kind) (text : String) (parts : List Rendered) : String :=
  match kind with
  | .missing => missingMarker
  -- declarations
  | .compilationUnit => " ".intercalate (parts.map (·.text))
  | .packageDeclaration => "package " ++ part parts .name ++ ";"
  | .importDeclaration =>
    "import " ++ (if hasModifier parts "static" then "static " else "") ++ part parts .name
      ++ (if text = "*" then ".*" else "") ++ ";"
  | .moduleDeclaration => "module " ++ part parts .name ++ " \x7b\x7d"
  | .typeDeclaration =>
    spaced parts .modifier ++ (if text = "" then "class" else text) ++ " " ++ part parts .name
      ++ typeParameters parts ++ within parts " extends " .superClass ""
      ++ joinedWithin parts (if text = "interface" then " extends " else " implements ")
          .superInterface ", " ""
      ++ " " ++ braced parts .member
  | .enumDeclaration =>
    spaced parts .modifier ++ "enum " ++ part parts .name
      ++ joinedWithin parts " implements " .superInterface ", " ""
      ++ " \x7b " ++ joined parts .enumConstant ", " ++ joinedWithin parts "; " .member " " ""
      ++ " \x7d"
  | .annotationTypeDeclaration =>
    spaced parts .modifier ++ "@interface " ++ part parts .name ++ " " ++ braced parts .member
  | .annotationTypeMemberDeclaration => part parts .type ++ " " ++ part parts .name ++ "();"
  | .anonymousClassDeclaration => braced parts .member
  | .enumConstantDeclaration =>
    part parts .name ++ joinedWithin parts "(" .argument ", " ")" ++ within parts " " .body ""
  | .fieldDeclaration | .variableDeclarationStatement =>
    spaced parts .modifier ++ part parts .type ++ " " ++ joined parts .fragment ", " ++ ";"
  | .variableDeclarationExpression =>
    spaced parts .modifier ++ part parts .type ++ " " ++ joined parts .fragment ", "
  | .methodDeclaration =>
    spaced parts .modifier ++ joinedWithin parts "<" .typeParameter ", " "> "
      ++ within parts "" .returnType " " ++ part parts .name
      ++ "(" ++ joined parts .parameter ", " ++ ")" ++ joinedWithin parts " throws " .throws ", " ""
      ++ (match first? parts .body with
          | some body => " " ++ body
          | none => ";")
  | .initializer => spaced parts .modifier ++ part parts .body
  | .singleVariableDeclaration =>
    spaced parts .modifier ++ part parts .type ++ (if text = "..." then "..." else "") ++ " "
      ++ part parts .name
  | .variableDeclarationFragment => part parts .name ++ within parts " = " .initializer ""
  | .typeParameter => part parts .name ++ joinedWithin parts " extends " .bound " & " ""
  | .modifier => text
  | .annotationMarker => "@" ++ part parts .name
  | .annotationWithArguments => "@" ++ part parts .name ++ arguments parts
  | .annotationWithValue => "@" ++ part parts .name ++ "(" ++ part parts .expression ++ ")"
  | .memberValuePair => part parts .name ++ " = " ++ part parts .expression
  -- statements
  | .block => braced parts .statement
  | .assertStatement =>
    "assert " ++ part parts .condition ++ within parts " : " .message "" ++ ";"
  | .breakStatement => "break" ++ within parts " " .label "" ++ ";"
  | .continueStatement => "continue" ++ within parts " " .label "" ++ ";"
  | .constructorInvocation => "this" ++ arguments parts ++ ";"
  | .superConstructorInvocation => "super" ++ arguments parts ++ ";"
  | .doStatement => "do " ++ part parts .body ++ " while (" ++ part parts .condition ++ ");"
  | .emptyStatement => ";"
  | .enhancedForStatement =>
    "for (" ++ part parts .parameter ++ " : " ++ part parts .expression ++ ") " ++ part parts .body
  | .expressionStatement => part parts .expression ++ ";"
  | .forStatement =>
    "for (" ++ joined parts .init ", " ++ "; " ++ part parts .condition ++ "; "
      ++ joined parts .update ", " ++ ") " ++ part parts .body
  | .ifStatement =>
    "if (" ++ part parts .condition ++ ") " ++ part parts .thenBranch
      ++ within parts " else " .elseBranch ""
  | .labeledStatement => part parts .label ++ ": " ++ part parts .body
  | .returnStatement => "return" ++ within parts " " .expression "" ++ ";"
  | .switchStatement | .switchExpression =>
    "switch (" ++ part parts .expression ++ ") " ++ braced parts .statement
  | .switchCase =>
    if text = "default" then "default:" else "case " ++ part parts .expression ++ ":"
  | .synchronizedStatement =>
    "synchronized (" ++ part parts .expression ++ ") " ++ part parts .body
  | .throwStatement => "throw " ++ part parts .expression ++ ";"
  | .tryStatement =>
    "try " ++ joinedWithin parts "(" .resource "; " ") " ++ part parts .body
      ++ String.join ((texts parts .catchClause).map (" " ++ ·))
      ++ within parts " finally " .finallyBlock ""
  | .catchClause => "catch (" ++ part parts .parameter ++ ") " ++ part parts .body
  | .typeDeclarationStatement => part parts .member
  | .whileStatement => "while (" ++ part parts .condition ++ ") " ++ part parts .body
  | .yieldStatement => "yield " ++ part parts .expression ++ ";"
  -- expressions
  | .arrayAccess => part parts .receiver ++ "[" ++ part parts .index ++ "]"
  | .arrayCreation =>
    "new " ++ part parts .type ++ dimensions parts ++ within parts " " .initializer ""
  | .arrayInitializer => "\x7b" ++ joined parts .element ", " ++ "\x7d"
  | .assignment | .infixExpression => part parts .left ++ " " ++ text ++ " " ++ part parts .right
  | .booleanLiteral | .characterLiteral | .nullLiteral | .numberLiteral | .stringLiteral
  | .textBlock | .simpleName => text
  | .castExpression => "(" ++ part parts .type ++ ") " ++ part parts .operand
  | .classInstanceCreation =>
    within parts "" .receiver "." ++ "new " ++ part parts .type ++ arguments parts
      ++ within parts " " .body ""
  | .conditionalExpression =>
    part parts .condition ++ " ? " ++ part parts .thenBranch ++ " : " ++ part parts .elseBranch
  | .fieldAccess => part parts .receiver ++ "." ++ part parts .name
  | .instanceofExpression => part parts .left ++ " instanceof " ++ part parts .type
  | .lambdaExpression => "(" ++ joined parts .parameter ", " ++ ") -> " ++ part parts .body
  | .methodInvocation => within parts "" .receiver "." ++ part parts .name ++ arguments parts
  | .expressionMethodReference => part parts .receiver ++ "::" ++ part parts .name
  | .parenthesizedExpression => "(" ++ part parts .expression ++ ")"
  | .postfixExpression => part parts .operand ++ text
  | .prefixExpression => text ++ part parts .operand
  | .superFieldAccess => "super." ++ part parts .name
  | .superMethodInvocation => "super." ++ part parts .name ++ arguments parts
  | .thisExpression => within parts "" .qualifier "." ++ "this"
  | .typeLiteral => part parts .type ++ ".class"
  -- names and types
  | .qualifiedName | .qualifiedType => part parts .qualifier ++ "." ++ part parts .name
  | .arrayType => part parts .element ++ "[]"
  | .intersectionType => joined parts .type " & "
  | .parameterizedType => part parts .type ++ "<" ++ joined parts .typeArgument ", " ++ ">"
  | .primitiveType => text
  | .simpleType => part parts .name
  | .unionType => joined parts .type " | "
  | .wildcardType => "?" ++ within parts (" " ++ text ++ " ") .bound ""
  -- comments
  | .javadoc => "/**" ++ text ++ "*/"
  | .tagElement | .textElement | .memberRef | .methodRef | .methodRefParameter => text
  | .lineComment => "//" ++ text
  | .blockComment => "/*" ++ text ++ "*/"
  | .dimension => "[]"

namespace Node

mutual

/-- The source text of a tree. -/
def render : Node → String
  | ⟨kind, _, _, text, children⟩ => assemble kind (text.getD "") (renderAll children)

/-- Each tree with its source text. -/
def renderAll : List Node → List Rendered
  | [] => []
  | c :: cs => ⟨c.role, c.kind, render c⟩ :: renderAll cs

end

end Node

end Shorthand
