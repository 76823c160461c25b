/-!
Byte offsets into a text.

A text is a list of characters and an offset counts UTF-8 bytes, so only some offsets are
boundaries: those at which a character starts, and the end. `splitAt?` cuts a text at an offset and
fails exactly when the offset is no boundary; `slice?` and `isBoundary` are read off it.
-/

namespace Shorthand.Text

/-- The number of bytes of a text. -/
def bytes : List Char → Nat
  | [] => 0
  | c :: cs => c.utf8Size + bytes cs

/-- The two parts of a text before and after a byte offset, if the offset is a boundary. -/
def splitAt? : Nat → List Char → Option (List Char × List Char)
  | 0, cs => some ([], cs)
  | _ + 1, [] => none
  | n + 1, c :: cs =>
    if n + 1 < c.utf8Size then none
    else (splitAt? (n + 1 - c.utf8Size) cs).map fun (before, after) => (c :: before, after)

/-- The offset is the start of a character or the end of the text. -/
def isBoundary (offset : Nat) (cs : List Char) : Bool := (splitAt? offset cs).isSome

/-- The part of a text between two byte offsets, if they are ordered boundaries. -/
def slice? (start stop : Nat) (cs : List Char) : Option (List Char) :=
  if start ≤ stop then do
    let (_, after) ← splitAt? start cs
    let (part, _) ← splitAt? (stop - start) after
    return part
  else none

@[simp] theorem bytes_nil : bytes [] = 0 := rfl

@[simp] theorem bytes_cons (c : Char) (cs : List Char) :
    bytes (c :: cs) = c.utf8Size + bytes cs := rfl

@[simp] theorem bytes_append (as bs : List Char) : bytes (as ++ bs) = bytes as + bytes bs := by
  induction as with
  | nil => simp
  | cons a as ih => simp [ih, Nat.add_assoc]

end Shorthand.Text
