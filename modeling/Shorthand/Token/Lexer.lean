import Shorthand.Text.Blank
import Shorthand.Text.Bytes
import Shorthand.Token.Basic
import Shorthand.Diagnostic

/-!
Reading a text as tokens.

White space separates tokens. Elsewhere `Lexeme.scan` takes a non-empty piece off the front of the text,
with a complaint if the piece is not in order; no input stops the reading. `lex` lays the pieces side
by side and closes with the end of the text.
-/

namespace Shorthand

/-! ### Character classes -/

/-- The character has an encoding of more than one byte. -/
def isWide (c : Char) : Bool := 1 < c.utf8Size

/-- The character can start a name. -/
def isIdentStart (c : Char) : Bool := c == '_' || c == '$' || c.isAlpha || isWide c

/-- The character can stand in a name. -/
def isIdentContinue (c : Char) : Bool := c == '_' || c == '$' || c.isAlphanum || isWide c

/-- The character is a hexadecimal digit. -/
def isHexDigit (c : Char) : Bool :=
  c.isDigit || ('a' ≤ c && c ≤ 'f') || ('A' ≤ c && c ≤ 'F')

/-- A piece of text that makes one token. -/
structure Lexeme where
  kind : TokenKind
  /-- The characters of the piece, at least one. -/
  text : List Char
  /-- What is wrong with the piece. -/
  problem : Option String := none
deriving DecidableEq, Repr

namespace Lexeme

/-! ### Comments -/

/-- The comment that runs to the end of the line. -/
def lineComment (cs : List Char) : Lexeme :=
  let text := cs.takeWhile (· != '\n')
  ⟨.lineComment (String.ofList (text.drop 2)), text, none⟩

/-- What stands before the first end of a block comment. -/
def beforeClose : List Char → Option (List Char)
  | '*' :: '/' :: _ => some []
  | c :: cs => (beforeClose cs).map (c :: ·)
  | [] => none

/-- The block comment whose text starts with `body`. -/
def blockComment (body : List Char) : Lexeme :=
  match beforeClose body with
  | some inner => ⟨.blockComment (String.ofList inner), '/' :: '*' :: inner ++ ['*', '/'], none⟩
  | none => ⟨.blockComment (String.ofList body), '/' :: '*' :: body,
      some "unterminated block comment"⟩

/-! ### Quoted literals -/

/-- What follows the opening quote, up to and with the closing one. A backslash keeps the next
character from closing the literal, and a literal does not run over the end of a line. -/
def quotedBody (quote : Char) : (escaped : Bool) → List Char → Option (List Char)
  | _, [] => none
  | escaped, c :: cs =>
    if c = '\n' then none
    else if escaped then (quotedBody quote false cs).map (c :: ·)
    else if c = '\\' then (quotedBody quote true cs).map (c :: ·)
    else if c = quote then some [c]
    else (quotedBody quote false cs).map (c :: ·)

/-- The literal that opens with a quote. -/
def quoted (kind : LiteralKind) (problem : String) (quote : Char) (cs : List Char) : Lexeme :=
  match quotedBody quote false cs with
  | some body => ⟨.literal kind (String.ofList (quote :: body)), quote :: body, none⟩
  | none =>
    let text := quote :: cs.takeWhile (· != '\n')
    ⟨.literal kind (String.ofList text), text, some problem⟩

/-! ### Numbers -/

/-- The fraction that starts with a point: it needs a digit after the point, or the end of the text. -/
def fraction : List Char → Option (List Char)
  | ['.'] => some ['.']
  | '.' :: c :: cs => if c.isDigit then some ('.' :: (c :: cs).takeWhile Char.isDigit) else none
  | _ => none

/-- The kind given by the letter after the digits. -/
def suffixKind? (c : Char) : Option LiteralKind :=
  if c = 'L' || c = 'l' then some .long
  else if c = 'f' || c = 'F' then some .float
  else if c = 'd' || c = 'D' then some .double
  else none

/-- The digits of a number, its point and fraction included, and the kind they alone give. -/
def digits : List Char → List Char × LiteralKind
  | '0' :: 'x' :: cs => ('0' :: 'x' :: cs.takeWhile (fun c => isHexDigit c || c == '_'), .int)
  | '0' :: 'X' :: cs => ('0' :: 'X' :: cs.takeWhile (fun c => isHexDigit c || c == '_'), .int)
  | cs =>
    let whole := cs.takeWhile fun c => c.isDigit || c == '_'
    match fraction (cs.drop whole.length) with
    | some part => (whole ++ part, .double)
    | none => (whole, .int)

/-- The number at the front of a text. -/
def number (cs : List Char) : Lexeme :=
  let (body, kind) := digits cs
  let (text, kind) : List Char × LiteralKind :=
    match cs.drop body.length with
    | c :: _ => ((suffixKind? c).map fun k => (body ++ [c], k)).getD (body, kind)
    | [] => (body, kind)
  ⟨.literal kind (String.ofList text), text, none⟩

/-! ### Words -/

/-- The kind of a word: a literal word, a keyword or a name. -/
def wordKind (word : String) : TokenKind :=
  if word == "true" || word == "false" then .literal .boolean word
  else if word == "null" then .literal .null word
  else match Keyword.ofSpelling? word with
    | some k => .keyword k
    | none => .ident word

/-- The word at the front of a text. -/
def word (cs : List Char) : Lexeme :=
  let text := cs.takeWhile isIdentContinue
  ⟨wordKind (String.ofList text), text, none⟩

/-! ### Operators -/

/-- The operators that can be joined with an assignment. -/
def compoundOperators : List Char := ['+', '-', '*', '/', '%', '&', '|', '^']

/-- The operator or separator at the front of a text. -/
def operator? (cs : List Char) : Option Lexeme :=
  match cs with
  | c :: '=' :: _ =>
    if compoundOperators.contains c then
      some ⟨.compoundAssign (String.ofList [c, '=']), [c, '='], none⟩
    else plain cs
  | _ => plain cs
where
  /-- The first spelling in the table that starts the text. -/
  plain (cs : List Char) : Option Lexeme :=
    (Punct.all.find? (·.chars.isPrefixOf cs)).map fun p => ⟨.punct p, p.chars, none⟩

/-- The piece at the front of a text that starts with a character other than white space. -/
def scan (c : Char) (cs : List Char) : Lexeme :=
  match c, cs with
  | '/', '/' :: _ => lineComment (c :: cs)
  | '/', '*' :: body => blockComment body
  | '"', _ => quoted .string "unterminated string literal" c cs
  | '\'', _ => quoted .character "unterminated character literal" c cs
  | _, _ =>
    if c.isDigit || (c == '.' && cs.head?.any Char.isDigit) then number (c :: cs)
    else if isIdentStart c then word (c :: cs)
    else (operator? (c :: cs)).getD ⟨.unknown, [c], some s!"unexpected char '{c}'"⟩

end Lexeme

/-! ### The whole text -/

/-- The pieces of a text that starts at offset `pos`, each with its offset; the first `skip`
characters belong to a piece that is already known. -/
def lexemesFrom : (skip pos : Nat) → List Char → List (Nat × Lexeme)
  | _, _, [] => []
  | skip + 1, pos, c :: cs => lexemesFrom skip (pos + c.utf8Size) cs
  | 0, pos, c :: cs =>
    if Text.isBlank c then lexemesFrom 0 (pos + c.utf8Size) cs
    else
      let piece := Lexeme.scan c cs
      (pos, piece) :: lexemesFrom (piece.text.length - 1) (pos + c.utf8Size) cs

namespace Lexeme

/-- The token that a piece makes at an offset. -/
def token (pos : Nat) (piece : Lexeme) : Token := ⟨piece.kind, pos, pos + Text.bytes piece.text⟩

/-- The complaint about a piece at an offset. -/
def diagnostic? (pos : Nat) (piece : Lexeme) : Option Diagnostic :=
  piece.problem.map fun message => ⟨.lex, message, (piece.token pos).span⟩

end Lexeme

/-- The tokens of a text and what is wrong with them. -/
structure LexOutput where
  tokens : List Token
  diagnostics : List Diagnostic
deriving DecidableEq, Repr

/-- Reads a text as tokens, the last of which is the end of the text. -/
def lex (source : String) : LexOutput :=
  let cs := source.toList
  let pieces := lexemesFrom 0 0 cs
  { tokens := pieces.map (fun (pos, piece) => piece.token pos) ++ [.eofAt (Text.bytes cs)]
    diagnostics := pieces.filterMap fun (pos, piece) => piece.diagnostic? pos }

end Shorthand
