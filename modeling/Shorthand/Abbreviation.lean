import Shorthand.Text.Case

/-!
Abbreviations of names.

The abbreviation of a name is made of the first letters of its words, in lower case. A name of capitals
with underscores is cut at the underscores. In any other name a word starts at the first character and
at every capital letter behind a character that is none.
-/

namespace Shorthand

/-! ### Names of constants -/

/-- The word is a capital letter, followed by capital letters and digits only. -/
def isConstantWord : List Char → Bool
  | [] => false
  | c :: cs => Text.isUpper c && cs.all fun d => Text.isUpper d || d.isDigit

/-- The parts of a name between its underscores. -/
def underscoreParts : List Char → List (List Char)
  | [] => [[]]
  | c :: cs =>
    match c, underscoreParts cs with
    | '_', parts => [] :: parts
    | c, part :: parts => (c :: part) :: parts
    | c, [] => [[c]]

/-- The name is made of capitals, with underscores between at least two words. -/
def isConstantName (name : List Char) : Bool :=
  let parts := underscoreParts name
  2 ≤ parts.length && parts.all isConstantWord

/-- The first letters between underscores. -/
def abbreviateConstant (name : List Char) : List Char :=
  (underscoreParts name).filterMap fun part => part.head?.map Text.toLower

/-! ### Other names -/

/-- The capital letters that start a word, when the character before them is a capital letter or is
none. -/
def wordStarts : (afterUpper : Bool) → List Char → List Char
  | _, [] => []
  | afterUpper, c :: cs =>
    let rest := wordStarts (Text.isUpper c) cs
    if Text.isUpper c && !afterUpper then Text.toLower c :: rest else rest

/-- The first letters of the words of a name. -/
def abbreviateWords : List Char → List Char
  | [] => []
  | c :: cs => Text.toLower c :: wordStarts (Text.isUpper c) cs

/-! ### Abbreviations -/

/-- The abbreviation of a name. -/
def abbreviate (name : String) : String :=
  let cs := name.toList
  .ofList (if isConstantName cs then abbreviateConstant cs else abbreviateWords cs)

/-- A name has an abbreviation. -/
def abbreviates (abbreviation name : String) : Bool := abbreviate name == abbreviation

/-- The parts of an abbreviation before and behind its first dot, if it has one: an owner and a member
of it. -/
def splitOwner? (abbreviation : String) : Option (String × String) :=
  let cs := abbreviation.toList
  if cs.contains '.' then
    some (.ofList (cs.takeWhile (· != '.')), .ofList ((cs.dropWhile (· != '.')).drop 1))
  else none

end Shorthand
