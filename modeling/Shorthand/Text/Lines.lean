import Shorthand.Text.Bytes

/-!
Lines and columns of a text.

A line ends after its newline. Lines and columns count from one, and a column counts characters.
-/

namespace Shorthand.Text

/-- The offsets at which the lines of a text start, when the text itself starts at `pos`. -/
def lineStartsFrom (pos : Nat) : List Char → List Nat
  | [] => []
  | c :: cs =>
    let next := pos + c.utf8Size
    if c = '\n' then next :: lineStartsFrom next cs else lineStartsFrom next cs

/-- The offsets at which the lines of a text start. -/
def lineStarts (cs : List Char) : List Nat := 0 :: lineStartsFrom 0 cs

/-- The number of lines: one more than the number of newlines. -/
def lineCount (cs : List Char) : Nat := (lineStarts cs).length

/-- The line and column of a byte offset. An offset past the end stands for the end; inside a
character the column counts bytes. -/
def lineCol (cs : List Char) (offset : Nat) : Nat × Nat :=
  let before := (lineStarts cs).takeWhile (· ≤ offset)
  let start := before.getLastD 0
  let stop := max (min offset (bytes cs)) start
  let column := ((slice? start stop cs).map List.length).getD (stop - start)
  (before.length, column + 1)

end Shorthand.Text
