import Shorthand.Grammar.Rules

/-!
Expressions.

From the outside in: assignments, conditionals, operators between two operands by strength, operators
before an operand, casts and lambdas, and then a primary expression with what is joined behind it.

The shift operators to the right are not tokens: they are runs of `>` signs without a gap between
them. A run of such signs that ends with `>=` is an assignment.
-/

namespace Shorthand

/-! ### Operators -/

namespace Cursor

/-- The number of `>` signs that follow without a gap, each from where the one before ends. -/
def gapless : (stop : Nat) → List Token → Nat
  | _, [] => 0
  | stop, t :: rest =>
    if t.kind = .punct .gt && t.span.start == stop then gapless t.span.stop rest + 1 else 0

/-- The number of `>` signs in the run that starts with the next token. -/
def runLength (c : Cursor) : Nat := gapless (c.peek 0).span.start c.ahead

/-- The run of `>` signs is followed by `>=` without a gap. -/
def runAssigns (c : Cursor) : Bool :=
  let after := c.peek c.runLength
  after.kind == .punct .ge && after.span.start == (c.peek (c.runLength - 1)).span.stop

end Cursor

namespace Parser

/-- How strongly an operator between two operands binds. -/
def strength? : TokenKind → Option Nat
  | .punct .orOr => some 1
  | .punct .andAnd => some 2
  | .punct .pipe => some 3
  | .punct .caret => some 4
  | .punct .amp => some 5
  | .punct .eqEq | .punct .ne => some 6
  | .punct .lt | .punct .gt | .punct .le | .punct .ge | .keyword .instanceofKw => some 7
  | .punct .shl => some 8
  | .punct .plus | .punct .minus => some 9
  | .punct .star | .punct .slash | .punct .percent => some 10
  | _ => none

/-- How strongly a shift binds. -/
def shiftStrength : Nat := 8

/-- A text of so many `>` signs. -/
def signs (n : Nat) : String := String.ofList (List.replicate n '>')

/-- The assignment operator that comes next, with its number of tokens. -/
def assignmentOperator? : Parser (Option (String × Nat)) := do
  let c ← get
  match (c.peek 0).kind with
  | .punct .eq => return some ("=", 1)
  | .compoundAssign spelling => return some (spelling, 1)
  | .punct .gt =>
    if c.runAssigns then
      return some (signs (c.runLength + 1) ++ "=", c.runLength + 1)
    else return none
  | _ => return none

/-- The operator between two operands that comes next, with its strength and number of tokens. -/
def infixOperator? : Parser (Option (Nat × String × Nat)) := do
  let c ← get
  let kind := (c.peek 0).kind
  let single := (strength? kind).map fun strength => (strength, leafText kind, 1)
  if kind = .punct .gt then
    if c.runAssigns then return none
    let count := min (c.runLength) 3
    if 1 < count then return some (shiftStrength, signs count, count) else return single
  else return single

variable (r : Rules)

/-! ### Lambdas and casts -/

/-- What stands behind the arrow of a lambda. -/
def afterArrow : Parser Node := do
  if ← atPunct .openBrace then block r .body else expressionOr r .body "lambda body"

/-- The body of a lambda, and the lambda with the parameters before it. -/
def lambdaBody (start : Nat) (parameters : List Node) : Parser Node := do
  let body ← afterArrow r
  node .lambdaExpression start (parameters ++ [body])

/-- What follows the parenthesis that closes the first one of some tokens, if it is closed before a
semicolon, an opening brace or the end. -/
def afterClosing : (depth : Nat) → List Token → Option (List Token)
  | _, [] => none
  | depth, t :: rest =>
    match t.kind with
    | .punct .openParen => afterClosing (depth + 1) rest
    | .punct .closeParen => if depth ≤ 1 then some rest else afterClosing (depth - 1) rest
    | .punct .semi | .punct .openBrace => none
    | _ => afterClosing depth rest

/-- A parenthesis that opens the parameters of a lambda comes next. -/
def atLambda : Parser Bool := do
  match afterClosing 0 (← get).ahead with
  | some (t :: _) => return t.kind == .punct .arrow
  | _ => return false

/-- A parameter of a lambda: a name alone, or a parameter like that of a method. -/
def lambdaParameter : Parser Node := do
  if (← atIdent) && ((← atPunct .comma 1) || (← atPunct .closeParen 1)) then ident .parameter
  else parameter r

/-- A lambda whose parameters stand between parentheses. -/
def lambda (start : Nat) : Parser Node := do
  let _ ← bump
  let parameters ← sepUntil atParenEnd .comma (lambdaParameter r)
  expect .closeParen
  expect .arrow
  lambdaBody r start parameters

/-- A lambda whose parameters stand between parentheses, if one comes next; otherwise nothing is taken. -/
def tryLambda (start : Nat) : Parser (Option Node) := do
  if ← atLambda then return some (← lambda r start) else return none

/-- The token can be the first of the operand of a cast. A sign is one only behind a primitive type,
because elsewhere it stands between two operands. -/
def startsCastOperand (primitive : Bool) : TokenKind → Bool
  | .ident _ | .literal _ _ => true
  | .punct p =>
    p ∈ [.openParen, .bang, .tilde] || (primitive && p ∈ [.plus, .minus])
  | .keyword k => k ∈ [.thisKw, .superKw, .newKw]
  | _ => false

/-- A cast, if the parentheses that come next hold a type and an operand follows them; otherwise
nothing is taken. -/
def tryCast (start : Nat) : Parser (Option Node) := do
  let before ← get
  let _ ← bump
  let primitive ← atPrimitiveType
  let ty ← tryType
  match ty with
  | some ty =>
    if (← atPunct .closeParen) && startsCastOperand primitive (← peek 1).kind then
      let _ ← bump
      let operand ← r.unary
      return some (← node .castExpression start [ty, operand.inRole .operand])
    else
      rewind before
      return none
  | none =>
    rewind before
    return none

/-! ### Primary expressions -/

/-- The kind of a literal expression. -/
def literalKind : LiteralKind → Kind
  | .int | .long | .float | .double => .numberLiteral
  | .character => .characterLiteral
  | .string => .stringLiteral
  | .boolean => .booleanLiteral
  | .null => .nullLiteral

/-- A size of an array that is created: an expression, or nothing. -/
def dimension : Parser Node := do
  let _ ← bump
  let start ← lastEnd
  if ← eat .closeBracket then
    return ⟨.dimension, .dimension, ⟨start, ← lastEnd⟩, none, []⟩
  else
    let size ← expressionOr r .dimension "dimension expression"
    expect .closeBracket
    return size

/-- The creation of an array of elements of a type. -/
def arrayCreation (start : Nat) (ty : Node) : Parser Node := do
  let dimensions ← manyUntil (notAtPunct .openBracket) (some <$> dimension r)
  let init ← itemIf (atPunct .openBrace) (arrayInitializer r .initializer)
  node .arrayCreation start (ty :: dimensions ++ init)

/-- The arguments of a creation, about whose absence it complains. -/
def creationArguments : Parser (List Node) := do
  if ← atPunct .openParen then arguments r
  else
    unexpected (quote Punct.openParen.spelling)
    return []

/-- The type of what is created. -/
def creationType : Parser Node := do
  if ← atType then return (← createdType).inRole .type else missing .type "type"

/-- The creation of an object, from what stands before its arguments. -/
def objectCreation (start : Nat) (before : List Node) : Parser Node := do
  let args ← creationArguments r
  let body ← anonymousBody r
  node .classInstanceCreation start (before ++ args ++ body)

/-- The creation of an object or an array, from its keyword on. What stands before the keyword of an
array creation is left out. -/
def creation (start : Nat) (outer : Option Node) : Parser Node := do
  let _ ← bump
  let ty ← creationType
  if ← atPunct .openBracket then arrayCreation r start ty
  else objectCreation r start ((outer.map (·.inRole .receiver)).toList ++ [ty])

/-- A member of the superclass, from its keyword on. -/
def superAccess (start : Nat) : Parser Node := do
  let _ ← bump
  if ← expectAs .dot (quote Punct.dot.spelling) then
    let name ← ident .name
    if ← atPunct .openParen then
      node .superMethodInvocation start (name :: (← arguments r))
    else node .superFieldAccess start [name]
  else return .missing .unplaced (← Parser.start)

/-- The literal of a primitive type. Without the words that make it a literal the type alone stays. -/
def primitiveLiteral (start : Nat) : Parser Node := do
  let ty ← type .type
  if (← atPunct .dot) && (← atKeyword .classKw 1) then
    bumpAll 2
    node .typeLiteral start [ty]
  else
    unexpected (quote ".class")
    return ty.inRole .unplaced

/-- An expression with nothing joined before or behind it. -/
def primary : Parser Node := do
  let start ← start
  match (← peek 0).kind with
  | .literal kind _ => leaf (literalKind kind) .unplaced
  | .ident _ =>
    let name ← ident .name
    if ← atPunct .openParen then node .methodInvocation start (name :: (← arguments r))
    else return name.inRole .unplaced
  | .punct .openParen =>
    let _ ← bump
    let inner ← expressionOr r .expression "expression"
    expect .closeParen
    node .parenthesizedExpression start [inner]
  | .keyword .thisKw =>
    let _ ← bump
    node .thisExpression start []
  | .keyword .superKw => superAccess r start
  | .keyword .newKw => creation r start none
  | .keyword k =>
    if k.isPrimitiveType then primitiveLiteral start else missing .unplaced "expression"
  | _ => missing .unplaced "expression"

/-! ### What is joined behind an expression -/

/-- The type that a name expression spells. -/
def nameAsType (e : Node) : Node :=
  if e.kind.isName then ⟨.simpleType, .unplaced, e.span, none, [e.inRole .name]⟩ else e

/-- A name behind a dot. Behind a name it makes the name longer, elsewhere it accesses a field. -/
def memberAccess (start : Nat) (e : Node) : Parser Node := do
  let name ← ident .name
  if ← atPunct .openParen then
    node .methodInvocation start (e.inRole .receiver :: name :: (← arguments r))
  else if e.kind.isName && !name.isMissing then
    node .qualifiedName start [e.inRole .qualifier, name]
  else node .fieldAccess start [e.inRole .receiver, name]

/-- What stands behind a dot. -/
def selection (start : Nat) (e : Node) : Parser Node := do
  let _ ← bump
  if ← atKeyword .newKw then creation r start (some e)
  else if ← eatKeyword .thisKw then node .thisExpression start [e.inRole .qualifier]
  else if ← eatKeyword .classKw then node .typeLiteral start [(nameAsType e).inRole .type]
  else memberAccess r start e

/-- An index in brackets. -/
def arrayAccess (start : Nat) (e : Node) : Parser Node := do
  let _ ← bump
  let index ← expressionOr r .index "index expression"
  expect .closeBracket
  node .arrayAccess start [e.inRole .receiver, index]

/-- The name behind a double colon, which may be the word for a constructor. -/
def referencedName : Parser Node := do
  if ← atKeyword .newKw then leaf .simpleName .name else ident .name

/-- Extends an expression by what is joined behind it. -/
def postfixStep (start : Nat) (e : Node) : Parser (Option Node) := do
  match (← peek 0).kind with
  | .punct .dot => return some (← selection r start e)
  | .punct .openBracket => return some (← arrayAccess r start e)
  | .punct .plusPlus =>
    let _ ← bump
    return some ((← node .postfixExpression start [e.inRole .operand]).withText "++")
  | .punct .minusMinus =>
    let _ ← bump
    return some ((← node .postfixExpression start [e.inRole .operand]).withText "--")
  | .punct .colonColon =>
    let _ ← bump
    let name ← referencedName
    return some (← node .expressionMethodReference start [e.inRole .receiver, name])
  | _ => return none

/-- A primary expression with all that is joined behind it. -/
def joined : Parser Node := do
  let start ← start
  chain (postfixStep r start) (← primary r)

/-! ### Operators around operands -/

/-- The operators that stand before their operand. -/
def isPrefixOperator : Punct → Bool
  | .bang | .tilde | .plus | .minus | .plusPlus | .minusMinus => true
  | _ => false

/-- An operator and the operand behind it. -/
def prefixed (start : Nat) (op : Punct) : Parser Node := do
  let _ ← bump
  let operand ← operandOr r.unary .operand
  return (← node .prefixExpression start [operand]).withText op.spelling

/-- What a parenthesis opens: a lambda, a cast or an expression. -/
def opened (start : Nat) : Parser Node := do
  match ← tryLambda r start with
  | some lambda => return lambda
  | none =>
    match ← tryCast r start with
    | some cast => return cast
    | none => joined r

/-- An expression without an operator between two operands. -/
def unary : Parser Node := do
  let start ← start
  match (← peek 0).kind with
  | .punct .openParen => opened r start
  | .punct p => if isPrefixOperator p then prefixed r start p else joined r
  | .ident _ =>
    if ← atPunct .arrow 1 then
      let parameter ← ident .parameter
      let _ ← bump
      lambdaBody r start [parameter]
    else joined r
  | _ => joined r

/-- Extends an expression by an operator that binds at least as strongly as `least`, and by its right
operand, in which operators bind more strongly. -/
def infixStep (start least : Nat) (lhs : Node) : Parser (Option Node) := do
  match ← infixOperator? with
  | none => return none
  | some (strength, op, count) =>
    if strength < least then return none
    bumpAll count
    if op = Keyword.instanceofKw.spelling then
      let ty ← type .type
      return some (← node .instanceofExpression start [lhs.inRole .left, ty])
    else
      let rhs ← operandOr (r.operation (strength + 1)) .right
      return some
        ((← node .infixExpression start [lhs.inRole .left, rhs]).withText op)

/-- An expression of operators that bind at least as strongly as `least`. -/
def operation (least : Nat) : Parser Node := do
  let start ← start
  chain (infixStep r start least) (← unary r)

/-- An expression without an assignment outside of brackets. -/
def conditional : Parser Node := do
  let start ← start
  let condition ← operation r 1
  if ← eat .question then
    let whenTrue ← expressionOr r .thenBranch "expression"
    expect .colon
    let whenFalse ← operandOr r.conditional .elseBranch
    node .conditionalExpression start [condition.inRole .condition, whenTrue, whenFalse]
  else return condition

/-- An expression. -/
def expression : Parser Node := do
  let start ← start
  let lhs ← conditional r
  match ← assignmentOperator? with
  | none => return lhs
  | some (op, count) =>
    bumpAll count
    let rhs ← operandOr r.expression .right
    return (← node .assignment start [lhs.inRole .left, rhs]).withText op

end Parser

end Shorthand
