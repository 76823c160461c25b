import Shorthand.Grammar.Statements
import Shorthand.Token.Lexer

/-!
Reading a whole text as a syntax tree.

`rulesTo n` reads what nests at most `n` rules deep. Each level of nesting takes a token, so the number
of tokens of a text is deep enough for it. `parse` reads a compilation unit and `parseExpression` an
expression; both read any text to its end.
-/

namespace Shorthand

namespace Parser

/-- The rules made from the given ones, each with them only behind a token that it has taken. -/
def rulesOver (r : Rules) : Rules where
  expression := do expression (r.below (← remaining))
  conditional := do conditional (r.below (← remaining))
  operation least := do operation (r.below (← remaining)) least
  unary := do unary (r.below (← remaining))
  arrayInitializer role := do arrayInitializer (r.below (← remaining)) role
  statement := do statement (r.below (← remaining))
  member := do member (r.below (← remaining))

/-- The rules for what nests at most so deep. -/
def rulesTo : (depth : Nat) → Rules
  | 0 => .empty
  | depth + 1 => rulesOver (rulesTo depth)

/-- The declaration of the package. -/
def packageDeclaration : Parser Node := do
  let start ← start
  let _ ← bump
  let name ← qualifiedName .name
  expect .semi
  return (← node .packageDeclaration start [name]).inRole .package

/-- Takes a dot and a star if they come next. -/
def eatDotStar : Parser Bool := do
  if (← atPunct .dot) && (← atPunct .star 1) then
    bumpAll 2
    return true
  else return false

/-- An import. -/
def importDeclaration : Parser Node := do
  let start ← start
  let _ ← bump
  let modifiers ← itemIf (atKeyword .staticKw) (leaf .modifier .modifier)
  let name ← qualifiedName .name
  let onDemand ← eatDotStar
  expect .semi
  let declaration := (← node .importDeclaration start (modifiers ++ [name])).inRole .importDecl
  return if onDemand then declaration.withText "*" else declaration

/-- A type at the top of a text, or nothing if a semicolon or another token had to be skipped. -/
def topLevelType (r : Rules) : Parser (Option Node) := do
  if ← eat .semi then return none
  else if ← atTypeDeclaration then
    return some ((← typeDeclaration (r.below (← remaining))).inRole .member)
  else
    unexpected "type declaration"
    let _ ← bump
    return none

/-- The next token is not the keyword of an import. -/
def notAtImport : Parser Bool := do return !(← atKeyword .importKw)

/-- A whole text: package, imports and types. -/
def compilationUnit (r : Rules) : Parser Node := do
  let package ← itemIf (atKeyword .packageKw) packageDeclaration
  let imports ← manyUntil notAtImport (some <$> importDeclaration)
  let types ← manyUntil atEnd (topLevelType r)
  return ⟨.compilationUnit, .unplaced, ⟨0, (← get).textEnd⟩, none, package ++ imports ++ types⟩

/-- A text that is one expression. -/
def wholeExpression (r : Rules) : Parser Node := do
  let e ← expressionOr r .unplaced "expression"
  if !(← atEnd) then unexpected "end of input"
  return e

end Parser

/-- The cursor before the first token of a text. -/
def Cursor.ofTokens (tokens : List Token) (textEnd : Nat) : Cursor :=
  ⟨tokens.filter fun t => !t.isTrivia && t.kind != .eof, textEnd, none, [], false⟩

/-- A tree that was read from a text, with all that is wrong with the text. -/
structure ParseOutput where
  tree : Node
  diagnostics : List Diagnostic
  /-- The tokens of the text, comments included. -/
  tokens : List Token
  /-- Reading would have gone on for ever. -/
  stalled : Bool

/-- Reads a text by a rule. -/
def ParseOutput.ofSource (rule : Parser.Rules → Parser Node) (source : String) : ParseOutput :=
  let lexed := lex source
  let cursor := Cursor.ofTokens lexed.tokens (Text.bytes source.toList)
  let (tree, cursor) := (rule (Parser.rulesTo (cursor.ahead.length + 1))).run cursor
  ⟨tree, lexed.diagnostics ++ cursor.problems.reverse, lexed.tokens, cursor.stalled⟩

/-- Reads a text as a compilation unit. -/
def parse (source : String) : ParseOutput := .ofSource Parser.compilationUnit source

/-- Reads a text as an expression. -/
def parseExpression (source : String) : ParseOutput := .ofSource Parser.wholeExpression source

end Shorthand
