import Shorthand.Grammar.Rules

/-!
Declarations of types and of their members.
-/

namespace Shorthand.Parser

/-! ### Recognising the declaration of a type -/

/-- Where reading stands in the modifiers before a declaration. -/
inductive Ahead where
  /-- A modifier, an annotation or the keyword of a declaration can come. -/
  | modifier
  /-- A part of the name of an annotation comes. -/
  | annotationName
  /-- A dot, the arguments of the annotation or what follows the annotation can come. -/
  | annotationEnd
  /-- So many parentheses of the arguments are open. -/
  | annotationArguments (depth : Nat)

/-- What a token says about whether a declaration comes: an answer, or where reading stands after it. -/
def afterModifier (t : Token) (next : Option Token) : Bool ⊕ Ahead :=
  match t.kind with
  | .keyword .classKw | .keyword .interfaceKw | .keyword .enumKw => .inl true
  | .keyword k => if k.isModifier then .inr .modifier else .inl false
  | .punct .atSign =>
    if next.map (·.kind) = some (.keyword .interfaceKw) then .inl true else .inr .annotationName
  | _ => .inl false

/-- The tokens are modifiers and annotations and then the keyword of a declaration. -/
def startsTypeDeclaration : Ahead → List Token → Bool
  | _, [] => false
  | .modifier, t :: rest =>
    match afterModifier t rest.head? with
    | .inl answer => answer
    | .inr ahead => startsTypeDeclaration ahead rest
  | .annotationName, _ :: rest => startsTypeDeclaration .annotationEnd rest
  | .annotationEnd, t :: rest =>
    match t.kind with
    | .punct .dot => startsTypeDeclaration .annotationName rest
    | .punct .openParen => startsTypeDeclaration (.annotationArguments 1) rest
    | _ =>
      match afterModifier t rest.head? with
      | .inl answer => answer
      | .inr ahead => startsTypeDeclaration ahead rest
  | .annotationArguments depth, t :: rest =>
    match t.kind with
    | .punct .openParen => startsTypeDeclaration (.annotationArguments (depth + 1)) rest
    | .punct .closeParen =>
      startsTypeDeclaration (if depth ≤ 1 then .modifier else .annotationArguments (depth - 1)) rest
    | _ => startsTypeDeclaration (.annotationArguments depth) rest

/-- The declaration of a type comes next. -/
def atTypeDeclaration : Parser Bool := do
  return startsTypeDeclaration .modifier (← get).ahead

variable (r : Rules)

/-! ### Types -/

/-- A constant of an enumeration. -/
def enumConstant : Parser Node := do
  let start ← start
  let modifiers ← modifiers r
  let name ← ident .name
  let arguments ← itemsIf (atPunct .openParen) (arguments r)
  let body ← anonymousBody r
  let children := modifiers ++ name :: arguments ++ body
  return (← node .enumConstantDeclaration start children).inRole .enumConstant

/-- The next token starts no constant of an enumeration. -/
def atConstantsEnd : Parser Bool := do return !((← atIdent) || (← atPunct .atSign))

/-- The constants of an enumeration and, behind a semicolon, its members. -/
def enumBody : Parser (List Node) := do
  if ← expectAs .openBrace (quote Punct.openBrace.spelling) then
    let constants ← sepUntil atConstantsEnd .comma (enumConstant r)
    let members ← itemsIf (eat .semi) (membersIn r)
    expect .closeBrace
    return constants ++ members
  else return []

/-- The types behind a keyword, if the keyword comes next. -/
def typesAfter (k : Keyword) (role : Role) : Parser (List Node) :=
  itemsIf (eatKeyword k) (typeList role)

/-- The declaration of an annotation type, from its sign on. -/
def annotationTypeDeclaration (start : Nat) (modifiers : List Node) : Parser Node := do
  bumpAll 2
  let name ← ident .name
  let members ← classBody r
  node .annotationTypeDeclaration start (modifiers ++ name :: members)

/-- The declaration of an enumeration, from its name on. -/
def enumDeclaration (start : Nat) (modifiers : List Node) : Parser Node := do
  let name ← ident .name
  let interfaces ← typesAfter .implementsKw .superInterface
  let body ← enumBody r
  node .enumDeclaration start (modifiers ++ name :: interfaces ++ body)

/-- The declaration of an interface, from its name on. -/
def interfaceDeclaration (start : Nat) (modifiers : List Node) : Parser Node := do
  let name ← ident .name
  let params ← typeParameters
  let interfaces ← typesAfter .extendsKw .superInterface
  let members ← classBody r
  let children := modifiers ++ name :: params ++ interfaces ++ members
  return (← node .typeDeclaration start children).withText Keyword.interfaceKw.spelling

/-- The declaration of a class, from its name on. -/
def classDeclaration (start : Nat) (modifiers : List Node) : Parser Node := do
  let name ← ident .name
  let params ← typeParameters
  let superclass ← itemIf (eatKeyword .extendsKw) (type .superClass)
  let interfaces ← typesAfter .implementsKw .superInterface
  let members ← classBody r
  let children := modifiers ++ name :: params ++ superclass ++ interfaces ++ members
  return (← node .typeDeclaration start children).withText Keyword.classKw.spelling

/-- The declaration of a type behind its modifiers. -/
def typeDeclarationAfter (start : Nat) (modifiers : List Node) : Parser Node := do
  if ← atPunct .atSign then annotationTypeDeclaration r start modifiers
  else if ← eatKeyword .enumKw then enumDeclaration r start modifiers
  else if ← eatKeyword .interfaceKw then interfaceDeclaration r start modifiers
  else
    let _ ← bump
    classDeclaration r start modifiers

/-- The declaration of a type. -/
def typeDeclaration : Parser Node := do
  let start ← start
  let modifiers ← modifiers r
  typeDeclarationAfter r start modifiers

/-! ### Members -/

/-- The next token ends the parameters of a method, also where their parenthesis is not closed. -/
def atParametersEnd : Parser Bool := do
  return (← atPunct .closeParen) || (← atEnd) || (← atPunct .openBrace) || (← atPunct .semi)

/-- The body of a method, or the semicolon in its place. -/
def methodBody : Parser (List Node) := do
  if ← atPunct .openBrace then return [← block r .body]
  else
    let _ ← expectAs .semi (quote Punct.semi.spelling ++ " or method body")
    return []

/-- A method or constructor, from the parenthesis behind its name on. -/
def methodAfter (start : Nat) (before : List Node) : Parser Node := do
  let _ ← bump
  let parameters ← sepUntil atParametersEnd .comma (parameter r)
  expect .closeParen
  skipEmptyBrackets
  let exceptions ← typesAfter .throwsKw .throws
  let body ← methodBody r
  node .methodDeclaration start (before ++ parameters ++ exceptions ++ body)

/-- A block that initialises a class or its objects comes next. -/
def atInitializer : Parser Bool := do
  return (← atPunct .openBrace) || ((← atKeyword .staticKw) && (← atPunct .openBrace 1))

/-- A block that initialises a class or its objects. -/
def initializer : Parser Node := do
  let start ← start
  let modifiers ← itemIf (atKeyword .staticKw) (leaf .modifier .modifier)
  let body ← block r .body
  node .initializer start (modifiers ++ [body])

/-- A name and an opening parenthesis come next. -/
def atCallableName : Parser Bool := do return (← atIdent) && (← atPunct .openParen 1)

/-- A method or field, from its type on. -/
def typedMember (start : Nat) (before : List Node) : Parser Node := do
  let ty ← type .type
  if ← atCallableName then
    let name ← ident .name
    methodAfter r start (before ++ [ty.inRole .returnType, name])
  else
    let fragments ← variableFragments r
    expect .semi
    node .fieldDeclaration start (before ++ ty :: fragments)

/-- A constructor, method or field. Modifiers that nothing follows are a field without a type; a token
that starts no member is skipped. -/
def plainMember : Parser (Option Node) := do
  let start ← start
  let modifiers ← modifiers r
  let before := modifiers ++ (← typeParameters)
  if ← atCallableName then
    let name ← ident .name
    return some (← methodAfter r start (before ++ [name]))
  else if ← atType then return some (← typedMember r start before)
  else if before.isEmpty then
    unexpected "member declaration"
    let _ ← bump
    return none
  else
    let ty ← missing .type "type"
    return some (← node .fieldDeclaration start (before ++ [ty]))

/-- A member of a class, or nothing if a semicolon or another token had to be skipped. -/
def member : Parser (Option Node) := do
  if ← eat .semi then return none
  else if ← atInitializer then return some (← initializer r)
  else if ← atTypeDeclaration then return some (← typeDeclaration r)
  else plainMember r

end Shorthand.Parser
