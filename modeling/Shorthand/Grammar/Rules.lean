import Shorthand.Grammar.Types

/-!
The rules that contain each other, and the pieces they share.

Expressions hold blocks and class bodies, blocks hold declarations, and declarations hold expressions.
`Rules` names the rules through which one construct is read inside another. Each piece of the grammar
is told in terms of such rules and uses them only behind a token that it has taken, so rules good for
fewer than `n` tokens make rules good for `n` tokens.
-/

namespace Shorthand.Parser

/-- The rules for what stands inside of something else. -/
structure Rules where
  /-- An expression. -/
  expression : Parser Node
  /-- An expression without an assignment outside of brackets. -/
  conditional : Parser Node
  /-- An expression of operators that bind at least as strongly as a given one. -/
  operation : Nat → Parser Node
  /-- An expression without an operator between two operands. -/
  unary : Parser Node
  /-- The elements of an array between braces. -/
  arrayInitializer : Role → Parser Node
  /-- A statement, or nothing if a token had to be skipped. -/
  statement : Parser (Option Node)
  /-- A member of a class, or nothing if a token had to be skipped. -/
  member : Parser (Option Node)

namespace Rules

/-- The rules, good only where fewer than so many tokens are ahead. -/
def below (bound : Nat) (r : Rules) : Rules where
  expression := Parser.below bound (.missing .unplaced 0) r.expression
  conditional := Parser.below bound (.missing .unplaced 0) r.conditional
  operation least := Parser.below bound (.missing .unplaced 0) (r.operation least)
  unary := Parser.below bound (.missing .unplaced 0) r.unary
  arrayInitializer role := Parser.below bound (.missing role 0) (r.arrayInitializer role)
  statement := Parser.below bound none r.statement
  member := Parser.below bound none r.member

/-- Rules that read nothing and stall. -/
def empty : Rules where
  expression := do stall; return .missing .unplaced 0
  conditional := do stall; return .missing .unplaced 0
  operation _ := do stall; return .missing .unplaced 0
  unary := do stall; return .missing .unplaced 0
  arrayInitializer role := do stall; return .missing role 0
  statement := do stall; return none
  member := do stall; return none

end Rules

variable (r : Rules)

/-- An expression in a role, which is missing if none can start. -/
def expressionOr (role : Role) (what : String) : Parser Node := do
  if ← atExpression then return (← r.expression).inRole role
  else missing role what

/-- An operand of a rule, which is missing if no expression can start. -/
def operandOr (rule : Parser Node) (role : Role) : Parser Node := do
  if ← atExpression then return (← rule).inRole role
  else missing role "expression"

/-- The array initializer or else the expression that gives a value. -/
def valueOr (role : Role) (what : String) : Parser Node := do
  if ← atPunct .openBrace then r.arrayInitializer role
  else expressionOr r role what

/-- The arguments of a call. A place between commas where none can start is a missing argument. -/
def arguments : Parser (List Node) := do
  let _ ← bump
  if ← eat .closeParen then return []
  let args ← sepBy1 .comma (expressionOr r .argument "argument")
  expect .closeParen
  return args

/-- The next token is a closing brace, or there is none. -/
def atBodyEnd : Parser Bool := do return (← atPunct .closeBrace) || (← atEnd)

/-- The next token is a closing parenthesis, or there is none. -/
def atParenEnd : Parser Bool := do return (← atPunct .closeParen) || (← atEnd)

/-- The elements of an array between braces. -/
def arrayInitializer (role : Role) : Parser Node := do
  let start ← start
  let _ ← bump
  let elements ← sepUntil atBodyEnd .comma (valueOr r .element "expression")
  expect .closeBrace
  return (← node .arrayInitializer start elements).inRole role

/-! ### Blocks and class bodies -/

/-- The statements up to a closing brace. -/
def statementsIn : Parser (List Node) :=
  manyUntil atBodyEnd do return (← r.statement).map (·.inRole .statement)

/-- The members up to a closing brace. -/
def membersIn : Parser (List Node) :=
  manyUntil atBodyEnd do return (← r.member).map (·.inRole .member)

/-- A block, which is missing if there is no opening brace. -/
def block (role : Role) : Parser Node := do
  let start ← start
  if ← expectAs .openBrace (quote Punct.openBrace.spelling) then
    let statements ← statementsIn r
    expect .closeBrace
    return (← node .block start statements).inRole role
  else return .missing role start

/-- The members of a class between braces. -/
def classBody : Parser (List Node) := do
  if ← expectAs .openBrace (quote Punct.openBrace.spelling) then
    let members ← membersIn r
    expect .closeBrace
    return members
  else return []

/-- The body of a class without a name, if one comes next. -/
def anonymousBody : Parser (List Node) := do
  if ← atPunct .openBrace then
    let start ← start
    let members ← classBody r
    return [(← node .anonymousClassDeclaration start members).inRole .body]
  else return []

/-! ### Modifiers -/

/-- A name with a value in an annotation. -/
def memberValuePair : Parser Node := do
  let start ← start
  let key ← ident .name
  expect .eq
  let value ← expressionOr r .expression "annotation value"
  return (← node .memberValuePair start [key, value]).inRole .argument

/-- The next token is not a name. -/
def notAtIdent : Parser Bool := do return !(← atIdent)

/-- What stands between the parentheses of an annotation, and the kind that this makes it. -/
def annotationArguments : Parser (Kind × List Node) := do
  if (← atIdent) && (← atPunct .eq 1) then
    let pairs ← sepUntil notAtIdent .comma (memberValuePair r)
    return (.annotationWithArguments, pairs)
  else if ← atPunct .closeParen then return (.annotationWithArguments, [])
  else return (.annotationWithValue, [← valueOr r .expression "annotation value"])

/-- An annotation. -/
def annotation : Parser Node := do
  let start ← start
  let _ ← bump
  let name ← qualifiedName .name
  if ← eat .openParen then
    let (kind, arguments) ← annotationArguments r
    expect .closeParen
    return (← node kind start (name :: arguments)).inRole .modifier
  else return (← node .annotationMarker start [name]).inRole .modifier

/-- A modifier or an annotation, if one comes next. The sign of an annotation type does not start an
annotation. -/
def modifier? : Parser (Option Node) := do
  match (← peek 0).kind with
  | .keyword k => if k.isModifier then return some (← leaf .modifier .modifier) else return none
  | .punct .atSign =>
    if ← atKeyword .interfaceKw 1 then return none else return some (← annotation r)
  | _ => return none

/-- Modifiers and annotations in any order. -/
def modifiers : Parser (List Node) := chain step []
where
  /-- Adds the next modifier. -/
  step (before : List Node) : Parser (Option (List Node)) := do
    return (← modifier? r).map fun m => before ++ [m]

/-! ### Declared variables -/

/-- The types that a catch clause names. -/
def catchType : Parser Node := do
  let start ← start
  let first ← type .type
  if ← eat .pipe then
    let others ← sepBy1 .pipe (type .type)
    return (← node .unionType start (first :: others)).inRole .type
  else return first

/-- The name of a parameter. -/
def parameterName : Parser Node := do
  if ← atIdent then ident .name else missing .name "parameter name"

/-- The node of a parameter, from what stands before its dots and its name. -/
def parameterRest (start : Nat) (before : List Node) : Parser Node := do
  let varargs ← eat .ellipsis
  let name ← parameterName
  let param := (← node .singleVariableDeclaration start (before ++ [name])).inRole .parameter
  return if varargs then param.withText "..." else param

/-- A parameter of a method. -/
def parameter : Parser Node := do
  let start ← start
  let modifiers ← modifiers r
  let ty ← type .type
  parameterRest start (modifiers ++ [ty])

/-- The type of the parameter of a catch clause. A name on its own is the name of the parameter and its
type is missing. -/
def catchParameterType : Parser Node := do
  let alone := (← atIdent)
    && ((← atPunct .closeParen 1) || (← atPunct .comma 1) || (← isAt .eof 1))
  if alone then return .missing .type (← start) else catchType

/-- The parameter of a catch clause. -/
def catchParameter : Parser Node := do
  let start ← start
  let modifiers ← modifiers r
  let ty ← catchParameterType
  parameterRest start (modifiers ++ [ty])

/-- A declared name with an initial value, if it has one. -/
def variableFragment : Parser Node := do
  let start ← start
  let name ← ident .name
  skipEmptyBrackets
  let value ← itemIf (eat .eq) (valueOr r .initializer "initializer")
  return (← node .variableDeclarationFragment start (name :: value)).inRole .fragment

/-- The declared names of a declaration. -/
def variableFragments : Parser (List Node) := sepBy1 .comma (variableFragment r)

end Shorthand.Parser
