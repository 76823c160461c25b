import Shorthand.Grammar.Cursor

/-!
Types and type parameters.

A type is a primitive type or a name, with type arguments and further names behind it and any number of
empty brackets. Types stand in each other only between angle brackets, so reading goes deeper only
behind a token and the number of tokens ahead bounds the depth.
-/

namespace Shorthand.Parser

/-- The bound of a wildcard, if one comes next, with the word that introduces it. -/
def wildcardBound (type : Role → Parser Node) : Parser (Option (Keyword × Node)) := do
  if ← eatKeyword .extendsKw then return some (.extendsKw, ← type .bound)
  else if ← eatKeyword .superKw then return some (.superKw, ← type .bound)
  else return none

/-- A type argument: a type or a wildcard. -/
def typeArgument (type : Role → Parser Node) : Parser Node := do
  if ← atPunct .question then
    let start ← start
    let _ ← bump
    match ← wildcardBound type with
    | some (k, bound) =>
      return ((← node .wildcardType start [bound]).withText k.spelling).inRole .typeArgument
    | none => return (← node .wildcardType start []).inRole .typeArgument
  else type .typeArgument

/-- The type arguments between angle brackets; there may be none. -/
def typeArguments (type : Role → Parser Node) : Parser (List Node) := do
  let _ ← bump
  if ← eat .gt then return []
  let args ← sepBy1 .comma (typeArgument type)
  expect .gt
  return args

/-- Extends a class type by type arguments or by a further name. A name behind a simple type makes its
name longer. -/
def classTypeStep (type : Role → Parser Node) (start : Nat) (ty : Node) :
    Parser (Option Node) := do
  if ← atPunct .lt then
    let args ← typeArguments type
    return some (← node .parameterizedType start (ty.inRole .type :: args))
  else if (← atPunct .dot) && (← atIdent 1) then
    let _ ← bump
    let last ← ident .name
    if ty.kind = .simpleType then
      let qualifier := (ty.children.take 1).map (·.inRole .qualifier)
      let name ← node .qualifiedName start (qualifier ++ [last])
      return some (← node .simpleType start [name.inRole .name])
    else return some (← node .qualifiedType start [ty.inRole .qualifier, last])
  else return none

/-- A type without brackets behind it. -/
def elementType (type : Role → Parser Node) : Parser Node := do
  if ← atPrimitiveType then leaf .primitiveType .type
  else
    let start ← start
    let name ← ident .name
    chain (classTypeStep type start) (← node .simpleType start [name])

/-- Takes a pair of brackets behind a type. -/
def arrayTypeStep (start : Nat) (ty : Node) : Parser (Option Node) := do
  if ← atEmptyBrackets then
    bumpAll 2
    return some (← node .arrayType start [ty.inRole .element])
  else return none

/-- A type, where the types in it are read by the given rule. -/
def typeOver (type : Role → Parser Node) (role : Role) : Parser Node := do
  if ← atType then
    let start ← start
    let ty ← chain (arrayTypeStep start) (← elementType type)
    return ty.inRole role
  else missing role "type"

/-- A type in a place before which fewer than so many tokens have to be ahead. -/
def typeBelow (bound : Nat) (type : Role → Parser Node) (role : Role) : Parser Node :=
  below bound (.missing role 0) (type role)

/-- A type whose arguments nest at most so deep. -/
def typeTo : (depth : Nat) → Role → Parser Node
  | 0, role => do
    stall
    return .missing role 0
  | depth + 1, role => do typeOver (typeBelow (← remaining) (typeTo depth)) role

/-- A type. -/
def type (role : Role) : Parser Node := do typeTo ((← remaining) + 1) role

/-- A type without brackets behind it, where one can start. -/
def createdType : Parser Node := do
  let count ← remaining
  elementType (typeBelow count (typeTo count))

/-- A type, if a faultless one comes next; otherwise nothing is taken. -/
def tryType : Parser (Option Node) := do
  if ← atType then
    let before ← get
    let ty ← type .type
    if (← get).problems.length > before.problems.length || ty.containsMissing then
      rewind before
      return none
    return some ty
  else return none

/-- One or more types with commas between them. -/
def typeList (role : Role) : Parser (List Node) := sepBy1 .comma (type role)

/-- A type parameter with its bounds. -/
def typeParameter : Parser Node := do
  let start ← start
  let name ← ident .name
  let bounds ← itemsIf (eatKeyword .extendsKw) (sepBy1 .amp (type .bound))
  return (← node .typeParameter start (name :: bounds)).inRole .typeParameter

/-- The type parameters of a declaration between angle brackets, if they come next. -/
def typeParameters : Parser (List Node) := do
  if ← eat .lt then
    let params ← sepBy1 .comma typeParameter
    expect .gt
    return params
  else return []

end Shorthand.Parser
