import Shorthand.Span
import Shorthand.Text.Lines

/-!
What the reader of a text complains about.

A diagnostic belongs to a stage, has a message and covers a range. `Diagnostic.format` lists
diagnostics in the order of their ranges, two lines for each.
-/

namespace Shorthand

/-- The stage of reading that found a fault. -/
inductive Stage where
  | lex
  | parse
deriving DecidableEq, Repr

/-- A fault found in a text. -/
structure Diagnostic where
  stage : Stage
  message : String
  span : Span
deriving DecidableEq, Repr

namespace Diagnostic

/-- Diagnostics are listed by start, then by end, then by message. -/
def precedes (a b : Diagnostic) : Bool :=
  compare a.span.start b.span.start
    |>.then (compare a.span.stop b.span.stop)
    |>.then (compare a.message b.message)
    |>.isLE

/-- The two lines of one diagnostic. -/
def render (text : List Char) (d : Diagnostic) : String :=
  let (line, column) := Text.lineCol text d.span.start
  s!"error: {d.message}\n  --> <input>:{line}:{column} [{d.span.start}..{d.span.stop}]\n"

/-- The listing of diagnostics about a text. -/
def format (text : String) (ds : List Diagnostic) : String :=
  String.join ((ds.mergeSort precedes).map (render text.toList))

end Diagnostic

end Shorthand
