import Shorthand.Grammar.Declarations
import Shorthand.Grammar.Expressions

/-!
Statements.
-/

namespace Shorthand.Parser

variable (r : Rules)

/-! ### Pieces of statements -/

/-- A statement inside another one. It is missing where the token that comes had to be skipped. -/
def subStatement (role : Role) : Parser Node := do
  let start ← start
  match ← r.statement with
  | some s => return s.inRole role
  | none => return .missing role start

/-- A condition between parentheses. -/
def parenthesizedCondition : Parser Node := do
  expect .openParen
  let condition ← expressionOr r .condition "condition"
  expect .closeParen
  return condition

/-- An expression between parentheses. -/
def parenthesized : Parser Node := do
  expect .openParen
  let inner ← expressionOr r .expression "expression"
  expect .closeParen
  return inner

/-- The modifiers and the type of a declaration of local variables, if one comes next. It is known by
its modifiers or by a type and a name behind it; otherwise nothing is taken. -/
def tryLocalHead : Parser (Option (List Node)) := do
  let before ← get
  let modifiers ← modifiers r
  match ← tryType with
  | some ty =>
    if !modifiers.isEmpty || (← atIdent) then return some (modifiers ++ [ty])
    else
      rewind before
      return none
  | none =>
    if modifiers.isEmpty then
      rewind before
      return none
    else return some (modifiers ++ [← missing .type "type"])

/-! ### Branches and loops -/

/-- A conditional statement. It reaches as far as the place of a missing branch. -/
def ifStatement (start : Nat) : Parser Node := do
  let _ ← bump
  let condition ← parenthesizedCondition r
  let whenTrue ← subStatement r .thenBranch
  let whenFalse ← itemIf (eatKeyword .elseKw) (subStatement r .elseBranch)
  let statement ← node .ifStatement start (condition :: whenTrue :: whenFalse)
  let last := whenFalse.getLastD whenTrue
  let stop := statement.span.stop
  return { statement with
    span := ⟨start, if last.isMissing then max stop last.span.start else stop⟩ }

/-- A loop with its condition in front. -/
def whileStatement (start : Nat) : Parser Node := do
  let _ ← bump
  let condition ← parenthesizedCondition r
  let body ← subStatement r .body
  node .whileStatement start [condition, body]

/-- The condition behind the body of a loop. -/
def conditionBehind : Parser Node := do
  if ← expectKeyword .whileKw then parenthesizedCondition r
  else return .missing .condition (← start)

/-- A loop with its condition behind. -/
def doStatement (start : Nat) : Parser Node := do
  let _ ← bump
  let body ← subStatement r .body
  let condition ← conditionBehind r
  expect .semi
  node .doStatement start [body, condition]

/-- A loop over the elements of something, from the name of its variable on. -/
def enhancedFor (start initStart : Nat) (head : List Node) : Parser Node := do
  let name ← ident .name
  let element ← node .singleVariableDeclaration initStart (head ++ [name])
  let _ ← bump
  let iterable ← expressionOr r .expression "expression"
  expect .closeParen
  let body ← subStatement r .body
  node .enhancedForStatement start [element.inRole .parameter, iterable, body]

/-- A loop with a counter, from the semicolon behind its first part on. -/
def classicFor (start : Nat) (init : List Node) : Parser Node := do
  expect .semi
  let condition ← itemIf (notAtPunct .semi) (expressionOr r .condition "condition")
  expect .semi
  let updates ← itemsIf (notAtPunct .closeParen)
    (sepBy1 .comma (expressionOr r .update "expression"))
  expect .closeParen
  let body ← subStatement r .body
  node .forStatement start (init ++ condition ++ updates ++ [body])

/-- A loop of one of the two kinds that share a keyword. -/
def forStatement (start : Nat) : Parser Node := do
  let _ ← bump
  expect .openParen
  let initStart ← Parser.start
  match ← tryLocalHead r with
  | some head =>
    if (← atIdent) && (← atPunct .colon 1) then enhancedFor r start initStart head
    else
      let fragments ← variableFragments r
      let init ← node .variableDeclarationExpression initStart (head ++ fragments)
      classicFor r start [init.inRole .init]
  | none =>
    let init ← itemsIf (notAtPunct .semi) (sepBy1 .comma (expressionOr r .init "expression"))
    classicFor r start init

/-! ### Switches -/

/-- What stands behind the keyword of a label. -/
def caseLabel : Parser Node := do
  if ← atPunct .colon then missing .expression "case label"
  else expressionOr r .expression "case label"

/-- A label of a switch, or a statement in it. -/
def switchEntry : Parser (Option Node) := do
  let start ← start
  if ← eatKeyword .caseKw then
    let label ← caseLabel r
    expect .colon
    return some ((← node .switchCase start [label]).inRole .statement)
  else if ← eatKeyword .defaultKw then
    expect .colon
    return some (((← node .switchCase start []).withText Keyword.defaultKw.spelling).inRole .statement)
  else return (← r.statement).map (·.inRole .statement)

/-- What stands in a switch between braces. -/
def switchEntries : Parser (List Node) := do
  if ← expectAs .openBrace (quote Punct.openBrace.spelling) then
    let entries ← manyUntil atBodyEnd (switchEntry r)
    expect .closeBrace
    return entries
  else return []

/-- A switch. -/
def switchStatement (start : Nat) : Parser Node := do
  let _ ← bump
  let selector ← parenthesized r
  let entries ← switchEntries r
  node .switchStatement start (selector :: entries)

/-! ### Exceptions -/

/-- A resource that is closed at the end of a block: a declaration or an expression. -/
def resource : Parser Node := do
  let start ← start
  match ← tryLocalHead r with
  | some head =>
    let fragments ← variableFragments r
    return (← node .variableDeclarationExpression start (head ++ fragments)).inRole .resource
  | none => expressionOr r .resource "resource"

/-- A block that handles exceptions. -/
def catchClause : Parser Node := do
  let start ← start
  let _ ← bump
  expect .openParen
  let parameter ← catchParameter r
  expect .closeParen
  let body ← block r .body
  return (← node .catchClause start [parameter, body]).inRole .catchClause

/-- The resources of a block between parentheses, if there are any. -/
def resources : Parser (List Node) := do
  if ← eat .openParen then
    let resources ← sepUntil atParenEnd .semi (resource r)
    expect .closeParen
    return resources
  else return []

/-- The next token is not the keyword of a catch clause. -/
def notAtCatch : Parser Bool := do return !(← atKeyword .catchKw)

/-- A block with its resources and with the blocks that handle what happens in it. -/
def tryStatement (start : Nat) : Parser Node := do
  let _ ← bump
  let resources ← resources r
  let body ← block r .body
  let clauses ← manyUntil notAtCatch (some <$> catchClause r)
  let last ← itemIf (eatKeyword .finallyKw) (block r .finallyBlock)
  node .tryStatement start (resources ++ body :: clauses ++ last)

/-! ### Simple statements -/

/-- A return, with or without a value. -/
def returnStatement (start : Nat) : Parser Node := do
  let _ ← bump
  let value ← itemIf atExpression do return (← r.expression).inRole .expression
  expect .semi
  node .returnStatement start value

/-- A jump, with or without a label. -/
def jumpStatement (kind : Kind) (start : Nat) : Parser Node := do
  let _ ← bump
  let label ← itemIf atIdent (ident .label)
  expect .semi
  node kind start label

/-- A statement that throws. -/
def throwStatement (start : Nat) : Parser Node := do
  let _ ← bump
  let thrown ← expressionOr r .expression "expression"
  expect .semi
  node .throwStatement start [thrown]

/-- A block that holds a lock. -/
def synchronizedStatement (start : Nat) : Parser Node := do
  let _ ← bump
  let lock ← parenthesized r
  let body ← block r .body
  node .synchronizedStatement start [lock, body]

/-- An assertion, with or without a message. -/
def assertStatement (start : Nat) : Parser Node := do
  let _ ← bump
  let condition ← expressionOr r .condition "expression"
  let message ← itemIf (eat .colon) (expressionOr r .message "expression")
  expect .semi
  node .assertStatement start (condition :: message)

/-- The call of another constructor. -/
def constructorCall (kind : Kind) (start : Nat) : Parser Node := do
  let _ ← bump
  let args ← arguments r
  expect .semi
  node kind start args

/-- A statement with a label. -/
def labeledStatement (start : Nat) : Parser Node := do
  let label ← ident .label
  let _ ← bump
  let body ← subStatement r .body
  node .labeledStatement start [label, body]

/-- The expression that a statement is, which is missing if none can start. -/
def statedExpression : Parser Node := do
  if ← atExpression then return (← expression r).inRole .expression
  else missing .expression "expression"

/-- A declaration of a type or of variables, or an expression. -/
def plainStatement (start : Nat) : Parser Node := do
  if ← atTypeDeclaration then
    let declaration ← typeDeclaration r
    node .typeDeclarationStatement start [declaration.inRole .member]
  else
    match ← tryLocalHead r with
    | some head =>
      let fragments ← variableFragments r
      expect .semi
      node .variableDeclarationStatement start (head ++ fragments)
    | none =>
      let value ← statedExpression r
      expect .semi
      node .expressionStatement start [value]

/-! ### All statements -/

/-- The keywords that start a statement but no expression. -/
def statementKeywords : List Keyword :=
  [.ifKw, .whileKw, .doKw, .forKw, .switchKw, .returnKw, .breakKw, .continueKw, .throwKw, .tryKw,
   .synchronizedKw, .assertKw, .classKw, .interfaceKw, .enumKw, .finalKw, .abstractKw, .staticKw]

/-- The token can be the first of a statement. -/
def canBeginStatement : TokenKind → Bool
  | .punct p => p ∈ [.openBrace, .semi, .atSign] || (TokenKind.punct p).canBeginExpr
  | .keyword k => k ∈ statementKeywords || (TokenKind.keyword k).canBeginExpr
  | kind => kind.canBeginExpr

/-- The statement that a keyword starts. -/
def keywordStatement (start : Nat) : Keyword → Parser Node
  | .ifKw => ifStatement r start
  | .whileKw => whileStatement r start
  | .doKw => doStatement r start
  | .forKw => forStatement r start
  | .switchKw => switchStatement r start
  | .returnKw => returnStatement r start
  | .breakKw => jumpStatement .breakStatement start
  | .continueKw => jumpStatement .continueStatement start
  | .throwKw => throwStatement r start
  | .tryKw => tryStatement r start
  | .assertKw => assertStatement r start
  | .synchronizedKw => do
    if ← atPunct .openParen 1 then synchronizedStatement r start else plainStatement r start
  | .thisKw => do
    if ← atPunct .openParen 1 then constructorCall r .constructorInvocation start
    else plainStatement r start
  | .superKw => do
    if ← atPunct .openParen 1 then constructorCall r .superConstructorInvocation start
    else plainStatement r start
  | _ => plainStatement r start

/-- A statement. A token that cannot start one is skipped, unless it closes a block. -/
def statement : Parser (Option Node) := do
  let start ← start
  let kind := (← peek 0).kind
  if !canBeginStatement kind then
    unexpected "statement"
    if kind != .punct .closeBrace then
      let _ ← bump
    return none
  match kind with
  | .punct .openBrace => return some (← block r .unplaced)
  | .punct .semi =>
    let _ ← bump
    return some (← node .emptyStatement start [])
  | .keyword k => return some (← keywordStatement r start k)
  | .ident _ =>
    if ← atPunct .colon 1 then return some (← labeledStatement r start)
    else return some (← plainStatement r start)
  | _ => return some (← plainStatement r start)

end Shorthand.Parser
