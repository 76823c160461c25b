import Shorthand.Diagnostic
import Shorthand.Token.Basic
import Shorthand.Tree.Node

/-!
Reading tokens in order.

A `Cursor` is a place between two tokens of a text, with the complaints made so far. Reading never
fails: what is not there is complained about and stands in the tree as a missing node. A rule that was
only tried is undone by going back to the place it started from and cutting the complaints to their
number there.

A round of a loop is followed by another one only if it took a token, and a rule is read inside of
itself only behind a token that it took before. Both are asked for where they matter (`iterate` and
`below`): a loop or a rule that would go on in place stops there, and the cursor notes that it has
stalled.
-/

namespace Shorthand

/-- A place between two tokens. -/
structure Cursor where
  /-- The tokens ahead, without comments and without the end of the text. -/
  ahead : List Token
  /-- The offset of the end of the text. -/
  textEnd : Nat
  /-- The end of the last token taken, if one was. -/
  lastEnd : Option Nat
  /-- The complaints, the newest first. -/
  problems : List Diagnostic
  /-- Reading would have gone on for ever without taking a token. -/
  stalled : Bool

namespace Cursor

/-- The token `n` places ahead; behind the last one all are the end of the text. -/
def peek (c : Cursor) (n : Nat) : Token := c.ahead[n]?.getD (.eofAt c.textEnd)

/-- The cursor after the next token. The end of the text is never taken. -/
def advance (c : Cursor) : Cursor :=
  match c.ahead with
  | [] => c
  | t :: rest => { c with ahead := rest, lastEnd := some t.span.stop }

/-- The cursor back at an earlier place. Of the complaints as many stay as there were then. -/
def backTo (c earlier : Cursor) : Cursor :=
  { earlier with
    problems := c.problems.drop (c.problems.length - earlier.problems.length)
    stalled := c.stalled }

end Cursor

/-- A rule that reads tokens and makes something of them. -/
abbrev Parser := StateM Cursor

namespace Parser

/-! ### Looking ahead -/

/-- The token `n` places ahead. -/
def peek (n : Nat) : Parser Token := do return (← get).peek n

/-- The next token is of a kind. -/
def isAt (kind : TokenKind) (n : Nat := 0) : Parser Bool := do return (← peek n).kind == kind

/-- The next token is an operator or separator. -/
def atPunct (p : Punct) (n : Nat := 0) : Parser Bool := isAt (.punct p) n

/-- The next token is a keyword. -/
def atKeyword (k : Keyword) (n : Nat := 0) : Parser Bool := isAt (.keyword k) n

/-- The next token is a name. -/
def atIdent (n : Nat := 0) : Parser Bool := do return (← peek n).kind.identName?.isSome

/-- All tokens are taken. -/
def atEnd : Parser Bool := isAt .eof

/-- The next token can be the first of an expression. -/
def atExpression : Parser Bool := do return (← peek 0).kind.canBeginExpr

/-- The next token is the name of a primitive type. -/
def atPrimitiveType : Parser Bool := do
  match (← peek 0).kind with
  | .keyword k => return k.isPrimitiveType
  | _ => return false

/-- The next token can be the first of a type. -/
def atType : Parser Bool := do return (← atIdent) || (← atPrimitiveType)

/-- The next token is not the given operator or separator. -/
def notAtPunct (p : Punct) : Parser Bool := do return !(← atPunct p)

/-- An opening and a closing bracket come next. -/
def atEmptyBrackets : Parser Bool := do return (← atPunct .openBracket) && (← atPunct .closeBracket 1)

/-! ### Taking tokens -/

/-- Takes the next token. -/
def bump : Parser Token := do
  let t ← peek 0
  modify Cursor.advance
  return t

/-- Takes the next token if it is an operator or separator. -/
def eat (p : Punct) : Parser Bool := do
  if ← atPunct p then
    let _ ← bump
    return true
  else return false

/-- Takes the next token if it is a keyword. -/
def eatKeyword (k : Keyword) : Parser Bool := do
  if ← atKeyword k then
    let _ ← bump
    return true
  else return false

/-- Takes so many tokens. -/
def bumpAll : Nat → Parser Unit
  | 0 => return
  | n + 1 => do
    let _ ← bump
    bumpAll n

/-! ### Complaints -/

/-- A text between the quotes that messages put around source text. -/
def quote (text : String) : String := "`" ++ text ++ "`"

/-- A token in the words of a message. -/
def describe : TokenKind → String
  | .ident name => "identifier " ++ quote name
  | .keyword k => quote k.spelling
  | .literal .string _ => "string literal"
  | .literal .character _ => "character literal"
  | .literal _ spelling => quote spelling
  | .eof => "end of input"
  | .punct p => quote p.spelling
  | .compoundAssign spelling => "CompoundAssign(Symbol \x7b text: \"" ++ spelling ++ "\" \x7d)"
  | .unknown => "Unknown"
  | .lineComment text | .blockComment text => text

/-- Complains that the next token is not what should be there. -/
def unexpected (what : String) : Parser Unit := do
  let t ← peek 0
  let message := "expected " ++ what ++ ", found " ++ describe t.kind
  modify fun c => { c with problems := ⟨.parse, message, t.span⟩ :: c.problems }

/-- Takes an operator or separator, or complains with the given words. -/
def expectAs (p : Punct) (what : String) : Parser Bool := do
  if ← eat p then return true
  else
    unexpected what
    return false

/-- Takes an operator or separator, or complains. -/
def expect (p : Punct) : Parser Unit := do
  let _ ← expectAs p (quote p.spelling)

/-- Takes a keyword, or complains. -/
def expectKeyword (k : Keyword) : Parser Bool := do
  if ← eatKeyword k then return true
  else
    unexpected (quote k.spelling)
    return false

/-- Complains about a missing part and gives the node in its place. -/
def missing (role : Role) (what : String) : Parser Node := do
  unexpected what
  return .missing role (← peek 0).span.start

/-! ### Ranges and nodes -/

/-- The offset at which the next token starts. -/
def start : Parser Nat := do return (← peek 0).span.start

/-- The end of the last token taken; at the front of the text the start of the next one. -/
def lastEnd : Parser Nat := do
  let c ← get
  return c.lastEnd.getD (c.peek 0).span.start

/-- The range from an offset to the end of the last token taken. -/
def spanFrom (start : Nat) : Parser Span := do return ⟨start, max (← lastEnd) start⟩

/-- The node that covers all that was taken since an offset. -/
def node (kind : Kind) (start : Nat) (children : List Node) : Parser Node := do
  return ⟨kind, .unplaced, ← spanFrom start, none, children⟩

/-- The text of a token that makes a leaf. -/
def leafText : TokenKind → String
  | .keyword k => k.spelling
  | .literal _ spelling => spelling
  | .ident name => name
  | .punct p => p.spelling
  | .compoundAssign spelling => spelling
  | _ => ""

/-- Takes the next token as a leaf. -/
def leaf (kind : Kind) (role : Role) : Parser Node := do
  let t ← bump
  return ⟨kind, role, t.span, some (leafText t.kind), []⟩

/-! ### Parts that need not be there -/

/-- What a rule reads if a condition holds, and nothing otherwise. -/
def itemsIf {α : Type} (condition : Parser Bool) (items : Parser (List α)) : Parser (List α) := do
  if ← condition then items else return []

/-- The one thing that a rule reads if a condition holds, and nothing otherwise. -/
def itemIf {α : Type} (condition : Parser Bool) (item : Parser α) : Parser (List α) :=
  itemsIf condition do return [← item]

/-! ### Going on and going back -/

/-- Goes back to an earlier place and forgets the complaints made since. -/
def rewind (earlier : Cursor) : Parser Unit := modify (·.backTo earlier)

/-- Notes that reading would go on for ever. -/
def stall : Parser Unit := modify fun c => { c with stalled := true }

/-- The number of tokens ahead. -/
def remaining : Parser Nat := do return (← get).ahead.length

/-- Reads by a rule if fewer than so many tokens are ahead. Otherwise reading stalls. -/
def below {α : Type} (bound : Nat) (otherwise : α) (rule : Parser α) : Parser α := do
  if (← remaining) < bound then rule
  else
    stall
    return otherwise

/-! ### Loops -/

/-- Goes through rounds until one of them says that it is the last. A round that is not the last has to
take a token. -/
def iterate {α : Type} (round : α → Parser (α × Bool)) (x : α) : Parser α := do
  go ((← remaining) + 1) x
where
  /-- Goes through at most so many rounds. -/
  go : Nat → α → Parser α
    | 0, x => do
      stall
      return x
    | rounds + 1, x => do
      let before ← remaining
      let (y, more) ← round x
      if more then below before y (go rounds y) else return y

/-- One or more items with separators between them. -/
def sepBy1 {α : Type} (sep : Punct) (item : Parser α) : Parser (List α) := iterate round []
where
  /-- Adds an item, which is the last if no separator follows. -/
  round (xs : List α) : Parser (List α × Bool) := do
    let x ← item
    return (xs ++ [x], ← eat sep)

/-- Items with separators between them, up to where `stop` holds or a separator is missing. A
separator may stand after the last item. -/
def sepUntil {α : Type} (stop : Parser Bool) (sep : Punct) (item : Parser α) : Parser (List α) :=
  iterate round []
where
  /-- Adds an item, unless the end is reached. -/
  round (xs : List α) : Parser (List α × Bool) := do
    if ← stop then return (xs, false)
    let x ← item
    return (xs ++ [x], ← eat sep)

/-- The results of a rule up to where `stop` holds. -/
def manyUntil {α : Type} (stop : Parser Bool) (item : Parser (Option α)) : Parser (List α) :=
  iterate round []
where
  /-- Adds a result, if there is one, unless the end is reached. -/
  round (xs : List α) : Parser (List α × Bool) := do
    if ← stop then return (xs, false)
    let x ← item
    return (xs ++ x.toList, true)

/-- Extends a result by a rule as long as the rule applies. -/
def chain {α : Type} (step : α → Parser (Option α)) (x : α) : Parser α := iterate round x
where
  /-- Extends the result once. -/
  round (x : α) : Parser (α × Bool) := do
    match ← step x with
    | some y => return (y, true)
    | none => return (x, false)

/-- Takes empty pairs of brackets. -/
def skipEmptyBrackets : Parser Unit := chain step ()
where
  /-- Takes one pair. -/
  step (_ : Unit) : Parser (Option Unit) := do
    if ← atEmptyBrackets then
      bumpAll 2
      return some ()
    else return none

/-! ### Names -/

/-- A simple name. -/
def ident (role : Role) : Parser Node := do
  match (← peek 0).kind with
  | .ident _ => leaf .simpleName role
  | _ => missing role "identifier"

/-- A name with dots in it. Each dot but the last belongs to the qualifier. -/
def qualifiedName (role : Role) : Parser Node := do
  let start ← start
  let name ← chain (step start) (← ident .name)
  return name.inRole role
where
  /-- Takes a dot and the name behind it. -/
  step (start : Nat) (name : Node) : Parser (Option Node) := do
    if (← atPunct .dot) && (← atIdent 1) then
      let _ ← bump
      let last ← ident .name
      return some (← node .qualifiedName start [name.inRole .qualifier, last])
    else return none

end Parser

end Shorthand
