/-!
How far apart two texts are.

`editDistance` counts the characters that have to be put in, taken out or changed to make one text of
another. It is computed row by row: a row holds the distances from one text to every end part of the
other one, the longest part first, and `distanceRow` makes the row of a text from that of its tail.
`rowDistance` computes it from the front, in one row that is overwritten for every character.
-/

namespace Shorthand.Text

/-- The number of characters of each end part of a text, the longest part first. -/
def lengthRow : List Char → List Nat
  | [] => [0]
  | _ :: cs => (cs.length + 1) :: lengthRow cs

/-- The distances from `a :: as` to the end parts of a text, from the distances from `as` to them. -/
def distanceRow (a : Char) : List Char → List Nat → List Nat
  | b :: bs, taken :: row =>
    let below := distanceRow a bs row
    let put := below.headD 0
    let changed := row.headD 0 + if a = b then 0 else 1
    min (min (taken + 1) (put + 1)) changed :: below
  | [], taken :: _ => [taken + 1]
  | _, [] => []

/-- The least number of characters to put in, take out or change to make one text of another. -/
def editDistance (as bs : List Char) : Nat :=
  (as.foldr (fun a row => distanceRow a bs row) (lengthRow bs)).headD 0

/-- The cells of a row that belong to the characters of a text, overwritten for one more character `a` of
the other text. The cell in front of them was `diagonal` before, and is `left` now. -/
def overwrite (a : Char) : (diagonal left : Nat) → List Char → List Nat → List Nat
  | diagonal, left, b :: bs, above :: row =>
    let cell := min (min (diagonal + if a = b then 0 else 1) (above + 1)) (left + 1)
    cell :: overwrite a above cell bs row
  | _, _, _, row => row

/-- A whole row, overwritten for a character that comes behind `index` others. -/
def overwriteRow (bs : List Char) : List Nat → Char × Nat → List Nat
  | diagonal :: row, (a, index) => (index + 1) :: overwrite a diagonal (index + 1) bs row
  | [], _ => []

/-- The last cell of the row that is left when all characters of `as` are through. -/
def rowDistance (as bs : List Char) : Nat :=
  (as.zipIdx.foldl (overwriteRow bs) (List.range (bs.length + 1))).getLastD 0

end Shorthand.Text
