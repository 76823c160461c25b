import Shorthand.Token.Query
import Shorthand.Tree.Node

/-!
The tokens around a caret.

A construct such as the declaration of a method has several places in which different things can be
written. Which of them the caret is in shows in the tokens between the start of the construct and the
caret: the nearest one that counts decides.

* `argumentIndex` counts the commas that separate the arguments of a call, those in brackets inside of
  it left out.
-/

namespace Shorthand

/-- A caret among the tokens of a text. -/
structure Surroundings where
  tokens : List Token
  caret : Nat

namespace Surroundings

variable (s : Surroundings)

/-- The nearest of some operators and separators between the start of a node and the caret. -/
def punctBefore? (n : Node) (wanted : List Punct) : Option Punct :=
  match TokenQuery.nearestBefore s.tokens s.caret n.span.start isWanted with
  | some ⟨.punct p, _⟩ => some p
  | _ => none
where
  /-- The token is one of those looked for. -/
  isWanted : TokenKind → Bool
    | .punct p => wanted.contains p
    | _ => false

/-- The nearest of some keywords between the start of a node and the caret. -/
def keywordBefore? (n : Node) (wanted : List Keyword) : Option Keyword :=
  match TokenQuery.nearestBefore s.tokens s.caret n.span.start isWanted with
  | some ⟨.keyword k, _⟩ => some k
  | _ => none
where
  /-- The token is one of those looked for. -/
  isWanted : TokenKind → Bool
    | .keyword k => wanted.contains k
    | _ => false

/-- The number of semicolons between an offset and the caret. -/
def semicolonsSince (start : Nat) : Nat :=
  s.tokens.countP fun t => t.kind == .punct .semi && start ≤ t.span.start && t.span.stop ≤ s.caret

/-- The first opening parenthesis between an offset and the caret. -/
def openParenAfter? (offset : Nat) : Option Token :=
  TokenQuery.nearestAfter s.tokens offset s.caret (· == .punct .openParen)

/-- How deep in brackets a token is, and how many commas stood in the outermost ones so far. -/
structure Nesting where
  depth : Nat
  commas : Nat

/-- Goes on behind one more token. -/
def Nesting.step (n : Nesting) (t : Token) : Nesting :=
  match t.kind with
  | .punct .openParen | .punct .openBracket | .punct .openBrace => { n with depth := n.depth + 1 }
  | .punct .closeParen | .punct .closeBracket | .punct .closeBrace =>
    { n with depth := n.depth - 1 }
  | .punct .comma => if n.depth = 1 then { n with commas := n.commas + 1 } else n
  | _ => n

/-- The index of the argument in which the caret is, for the opening parenthesis at an offset. -/
def argumentIndex (openParen : Nat) : Nat :=
  let between := (s.tokens.drop (TokenQuery.boundaryAt s.tokens openParen)).takeWhile fun t =>
    t.span.start < s.caret && t.kind != .eof
  (between.foldl Nesting.step ⟨0, 0⟩).commas

end Surroundings

end Shorthand
