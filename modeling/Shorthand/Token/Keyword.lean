/-!
Reserved words.

The literal words `true`, `false` and `null` are literals and not keywords.
-/

namespace Shorthand

/-- A reserved word. -/
inductive Keyword where
  | abstractKw
  | assertKw
  | booleanKw
  | breakKw
  | byteKw
  | caseKw
  | catchKw
  | charKw
  | classKw
  | constKw
  | continueKw
  | defaultKw
  | doKw
  | doubleKw
  | elseKw
  | enumKw
  | extendsKw
  | finalKw
  | finallyKw
  | floatKw
  | forKw
  | gotoKw
  | ifKw
  | implementsKw
  | importKw
  | instanceofKw
  | intKw
  | interfaceKw
  | longKw
  | nativeKw
  | newKw
  | packageKw
  | privateKw
  | protectedKw
  | publicKw
  | returnKw
  | shortKw
  | staticKw
  | strictfpKw
  | superKw
  | switchKw
  | synchronizedKw
  | thisKw
  | throwKw
  | throwsKw
  | transientKw
  | tryKw
  | voidKw
  | volatileKw
  | whileKw
deriving DecidableEq, Repr

namespace Keyword

/-- Every keyword, in alphabetical order. -/
def all : List Keyword :=
  [.abstractKw, .assertKw, .booleanKw, .breakKw, .byteKw, .caseKw, .catchKw, .charKw,
   .classKw, .constKw, .continueKw, .defaultKw, .doKw, .doubleKw, .elseKw, .enumKw,
   .extendsKw, .finalKw, .finallyKw, .floatKw, .forKw, .gotoKw, .ifKw, .implementsKw,
   .importKw, .instanceofKw, .intKw, .interfaceKw, .longKw, .nativeKw, .newKw, .packageKw,
   .privateKw, .protectedKw, .publicKw, .returnKw, .shortKw, .staticKw, .strictfpKw,
   .superKw, .switchKw, .synchronizedKw, .thisKw, .throwKw, .throwsKw, .transientKw, .tryKw,
   .voidKw, .volatileKw, .whileKw]

/-- The word itself. -/
def spelling : Keyword → String
  | abstractKw => "abstract"
  | assertKw => "assert"
  | booleanKw => "boolean"
  | breakKw => "break"
  | byteKw => "byte"
  | caseKw => "case"
  | catchKw => "catch"
  | charKw => "char"
  | classKw => "class"
  | constKw => "const"
  | continueKw => "continue"
  | defaultKw => "default"
  | doKw => "do"
  | doubleKw => "double"
  | elseKw => "else"
  | enumKw => "enum"
  | extendsKw => "extends"
  | finalKw => "final"
  | finallyKw => "finally"
  | floatKw => "float"
  | forKw => "for"
  | gotoKw => "goto"
  | ifKw => "if"
  | implementsKw => "implements"
  | importKw => "import"
  | instanceofKw => "instanceof"
  | intKw => "int"
  | interfaceKw => "interface"
  | longKw => "long"
  | nativeKw => "native"
  | newKw => "new"
  | packageKw => "package"
  | privateKw => "private"
  | protectedKw => "protected"
  | publicKw => "public"
  | returnKw => "return"
  | shortKw => "short"
  | staticKw => "static"
  | strictfpKw => "strictfp"
  | superKw => "super"
  | switchKw => "switch"
  | synchronizedKw => "synchronized"
  | thisKw => "this"
  | throwKw => "throw"
  | throwsKw => "throws"
  | transientKw => "transient"
  | tryKw => "try"
  | voidKw => "void"
  | volatileKw => "volatile"
  | whileKw => "while"

/-- The keyword spelled by a word. -/
def ofSpelling? (word : String) : Option Keyword := all.find? (·.spelling == word)

/-- The place of a keyword among all keywords. -/
def rank (k : Keyword) : Nat := all.idxOf k

/-- The keyword names a primitive type, or is `void`. -/
def isPrimitiveType : Keyword → Bool
  | booleanKw | byteKw | charKw | shortKw | intKw | longKw | floatKw | doubleKw | voidKw => true
  | _ => false

/-- The keyword is a modifier of declarations. -/
def isModifier : Keyword → Bool
  | publicKw | protectedKw | privateKw | staticKw | finalKw | abstractKw | nativeKw
  | synchronizedKw | transientKw | volatileKw | strictfpKw => true
  | _ => false

end Keyword

end Shorthand
