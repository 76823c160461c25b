import Shorthand.Token.Basic

/-!
Finding tokens around an offset.

A query runs over the tokens of one text. They stand in the order of the text and do not overlap, so
the tokens that end at or before an offset come first, as do those that start before it, and a cut of
the list at either place is found by taking tokens while the condition holds.
-/

namespace Shorthand.TokenQuery

/-- The number of tokens that start before an offset: the index of the first one at or after it. -/
def boundaryAt (tokens : List Token) (offset : Nat) : Nat :=
  (tokens.takeWhile (·.span.start < offset)).length

/-- The number of tokens that end at or before an offset. -/
def endedBy (tokens : List Token) (offset : Nat) : Nat :=
  (tokens.takeWhile (·.span.stop ≤ offset)).length

/-- The half-open range of the indices of the tokens that meet a range of text. For an empty range
both ends are the index of the first token that starts at or after it. -/
def rangeForSpan (tokens : List Token) (span : Span) : Nat × Nat :=
  if span.isEmpty then
    let index := boundaryAt tokens span.start
    (index, index)
  else (endedBy tokens span.start, boundaryAt tokens span.stop)

/-- The index of the last token before `index` that is not a comment. -/
def prevNontrivia (tokens : List Token) (index : Nat) : Option Nat :=
  ((tokens.take index).zipIdx.reverse.find? (!·.1.isTrivia)).map (·.2)

/-- The index of the first token at or after `index` that is not a comment. -/
def nextNontrivia (tokens : List Token) (index : Nat) : Option Nat :=
  ((tokens.zipIdx.drop index).find? (!·.1.isTrivia)).map (·.2)

/-- The last token that is not a comment and ends at or before an offset. -/
def prevNontriviaBefore (tokens : List Token) (offset : Nat) : Option Token := do
  tokens[← prevNontrivia tokens (endedBy tokens offset)]?

/-- The first token that is not a comment and starts at or after an offset. -/
def nextNontriviaAfter (tokens : List Token) (offset : Nat) : Option Token := do
  tokens[← nextNontrivia tokens (boundaryAt tokens offset)]?

/-- The last token before an offset that satisfies `p`, among those that start at or after `floor` and
are not comments. -/
def nearestBefore (tokens : List Token) (offset floor : Nat) (p : TokenKind → Bool) :
    Option Token :=
  (tokens.take (endedBy tokens offset)).reverse.takeWhile (floor ≤ ·.span.start)
    |>.find? fun t => !t.isTrivia && p t.kind

/-- The first token after an offset that satisfies `p`, among those that end at or before `ceiling`
and are not comments. -/
def nearestAfter (tokens : List Token) (offset ceiling : Nat) (p : TokenKind → Bool) :
    Option Token :=
  (tokens.drop (boundaryAt tokens offset)).takeWhile
      (fun t => t.span.stop ≤ ceiling && t.kind != .eof)
    |>.find? fun t => !t.isTrivia && p t.kind

/-- The token that has the offset between its two ends. -/
def tokenContaining (tokens : List Token) (offset : Nat) : Option Token :=
  tokens[endedBy tokens offset]?.filter (·.span.strictlyContains offset)

end Shorthand.TokenQuery
