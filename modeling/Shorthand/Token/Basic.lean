import Shorthand.Span
import Shorthand.Token.Keyword

/-!
Tokens.

A token is a kind with the range of text it covers. Kinds keep as much of the text as the rest of the
library asks for: names, literals and compound assignments keep their spelling, comments keep what
stands between their delimiters.
-/

namespace Shorthand

/-- Operators and separators with one spelling. -/
inductive Punct where
  | eq | eqEq | ne | lt | le | gt | ge | andAnd | orOr | bang | tilde | plus | minus | star | slash
  | percent | amp | pipe | caret | shl | plusPlus | minusMinus | arrow | openParen | closeParen
  | openBrace | closeBrace | openBracket | closeBracket | semi | comma | dot | ellipsis | colon
  | colonColon | question | atSign
deriving DecidableEq, Repr

namespace Punct

/-- Every spelling, each after the longer spellings that it starts. -/
def all : List Punct :=
  [.ellipsis, .shl, .eqEq, .ne, .le, .ge, .andAnd, .orOr, .plusPlus, .minusMinus, .arrow,
   .colonColon, .eq, .lt, .gt, .bang, .tilde, .plus, .minus, .star, .slash, .percent, .amp, .pipe,
   .caret, .openParen, .closeParen, .openBrace, .closeBrace, .openBracket, .closeBracket, .semi,
   .comma, .dot, .colon, .question, .atSign]

/-- The characters of an operator or separator. -/
def chars : Punct → List Char
  | eq => ['='] | eqEq => ['=', '='] | ne => ['!', '='] | lt => ['<'] | le => ['<', '=']
  | gt => ['>'] | ge => ['>', '='] | andAnd => ['&', '&'] | orOr => ['|', '|'] | bang => ['!']
  | tilde => ['~'] | plus => ['+'] | minus => ['-'] | star => ['*'] | slash => ['/']
  | percent => ['%'] | amp => ['&'] | pipe => ['|'] | caret => ['^'] | shl => ['<', '<']
  | plusPlus => ['+', '+'] | minusMinus => ['-', '-'] | arrow => ['-', '>'] | openParen => ['(']
  | closeParen => [')'] | openBrace => ['{'] | closeBrace => ['}'] | openBracket => ['[']
  | closeBracket => [']'] | semi => [';'] | comma => [','] | dot => ['.']
  | ellipsis => ['.', '.', '.'] | colon => [':'] | colonColon => [':', ':'] | question => ['?']
  | atSign => ['@']

/-- The text of an operator or separator. -/
def spelling (p : Punct) : String := String.ofList p.chars

end Punct

/-- The kinds of literals that are told apart by their spelling. -/
inductive LiteralKind where
  | int | long | float | double | character | string | boolean | null
deriving DecidableEq, Repr

/-- What a token is. -/
inductive TokenKind where
  | punct (p : Punct)
  /-- An operator that assigns the result of another one, such as `+=`. -/
  | compoundAssign (spelling : String)
  | keyword (k : Keyword)
  | ident (name : String)
  /-- A literal with its whole spelling, quotes included. -/
  | literal (kind : LiteralKind) (spelling : String)
  | lineComment (text : String)
  | blockComment (text : String)
  /-- A character that starts no token. -/
  | unknown
  /-- The end of the text. -/
  | eof
deriving DecidableEq, Repr

namespace TokenKind

/-- Comments are skipped by the grammar. -/
def isTrivia : TokenKind → Bool
  | lineComment _ | blockComment _ => true
  | _ => false

/-- The token can be the first of an expression. -/
def canBeginExpr : TokenKind → Bool
  | ident _ | literal _ _ => true
  | punct p => p ∈ [.openParen, .bang, .tilde, .plus, .minus, .plusPlus, .minusMinus]
  | keyword k => k ∈ [.thisKw, .superKw, .newKw] || k.isPrimitiveType
  | _ => false

/-- The token bounds a statement, a block or the head of a statement. -/
def isStructuralDelimiter : TokenKind → Bool
  | punct p => p ∈ [.openParen, .closeParen, .openBrace, .closeBrace, .semi, .colon]
  | _ => false

/-- The name, if the token is an identifier. -/
def identName? : TokenKind → Option String
  | ident name => some name
  | _ => none

end TokenKind

/-- A token and where it stands. -/
structure Token where
  kind : TokenKind
  span : Span
deriving DecidableEq, Repr

namespace Token

/-- The token is a comment. -/
def isTrivia (t : Token) : Bool := t.kind.isTrivia

/-- The token after the last character. -/
def eofAt (offset : Nat) : Token := ⟨.eof, .empty offset⟩

end Token

end Shorthand
