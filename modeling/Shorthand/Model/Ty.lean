/-!
Types of values.

A `Ty` is a type as an expression or a declaration has it, with declared types given by their
qualified names. Type variables stand for any type; `substitute` replaces them by bindings.
-/

namespace Shorthand

/-- The primitive types. -/
inductive Primitive where
  | boolean | byte | short | char | int | long | float | double
deriving DecidableEq, Repr

namespace Primitive

/-- Every primitive type. -/
def all : List Primitive := [.boolean, .byte, .short, .char, .int, .long, .float, .double]

/-- The keyword of a primitive type. -/
def keyword : Primitive → String
  | boolean => "boolean" | byte => "byte" | short => "short" | char => "char" | int => "int"
  | long => "long" | float => "float" | double => "double"

/-- The primitive type with a keyword. -/
def ofKeyword? (word : String) : Option Primitive := all.find? (·.keyword == word)

/-- The qualified name of the class whose objects hold values of a primitive type. -/
def boxed : Primitive → String
  | boolean => "java.lang.Boolean" | byte => "java.lang.Byte" | short => "java.lang.Short"
  | char => "java.lang.Character" | int => "java.lang.Integer" | long => "java.lang.Long"
  | float => "java.lang.Float" | double => "java.lang.Double"

/-- The primitive type whose values are held by the objects of a class. -/
def unboxed? (name : String) : Option Primitive := all.find? (·.boxed == name)

/-- The values are numbers. -/
def isNumeric (p : Primitive) : Bool := p != .boolean

/-- The primitive types whose values can be had as values of another one without a cast, besides the
type itself. -/
def wider : Primitive → List Primitive
  | byte => [short, int, long, float, double]
  | short | char => [int, long, float, double]
  | int => [long, float, double]
  | long => [float, double]
  | float => [double]
  | double | boolean => []

/-- A value of one primitive type is had as a value of the other without a cast. -/
def widens (p q : Primitive) : Bool := p == q || q ∈ p.wider

/-- The type of an operation on one number. -/
def promoted : Primitive → Primitive
  | byte | short | char => int
  | p => p

/-- The type of an operation on two numbers. -/
def promotedWith (p q : Primitive) : Primitive :=
  if p = double || q = double then double
  else if p = float || q = float then float
  else if p = long || q = long then long
  else int

end Primitive

/-- The type of a value. -/
inductive Ty where
  | primitive (p : Primitive)
  /-- A declared type with its type arguments; without any where they are not given. -/
  | declared (name : String) (args : List Ty)
  | array (element : Ty)
  /-- A type variable, which stands for any type. -/
  | var (name : String)
  | null
  | void
  | unknown
deriving Repr

/-- What type variables stand for. The first binding of a name counts. -/
abbrev Bindings := List (String × Ty)

namespace Ty

/-! ### Equality -/

mutual

/-- The two types are the same. -/
def same : Ty → Ty → Bool
  | primitive p, primitive q => p == q
  | declared m as, declared n bs => m == n && sameAll as bs
  | array a, array b => same a b
  | var m, var n => m == n
  | null, null | void, void | unknown, unknown => true
  | _, _ => false

/-- The types are the same one by one. -/
def sameAll : List Ty → List Ty → Bool
  | [], [] => true
  | a :: as, b :: bs => same a b && sameAll as bs
  | _, _ => false

end

mutual

/-- A type is the same as itself only. -/
theorem same_iff : (a b : Ty) → (same a b = true ↔ a = b)
  | primitive p, b => by cases b <;> simp [same]
  | declared m as, b => by
    cases b with
    | declared n bs => simp [same, sameAll_iff as bs]
    | _ => simp [same]
  | array a, b => by
    cases b with
    | array b => simp [same, same_iff a b]
    | _ => simp [same]
  | var m, b => by cases b <;> simp [same]
  | null, b => by cases b <;> simp [same]
  | void, b => by cases b <;> simp [same]
  | unknown, b => by cases b <;> simp [same]

/-- Lists of types are the same one by one only if they are equal. -/
theorem sameAll_iff : (as bs : List Ty) → (sameAll as bs = true ↔ as = bs)
  | [], bs => by cases bs <;> simp [sameAll]
  | a :: as, bs => by
    cases bs with
    | nil => simp [sameAll]
    | cons b bs => simp [sameAll, same_iff a b, sameAll_iff as bs]

end

instance : DecidableEq Ty := fun a b => decidable_of_iff _ (same_iff a b)

/-! ### Particular types -/

/-- A declared type without type arguments. -/
def named (name : String) : Ty := declared name []

/-- The class that all others extend. -/
def objectName : String := "java.lang.Object"

/-- The type of all objects. -/
def object : Ty := named objectName

/-- The type of texts. -/
def string : Ty := named "java.lang.String"

/-! ### Properties -/

/-- The values of the type are objects. -/
def isReference : Ty → Bool
  | declared _ _ | array _ | var _ | null => true
  | _ => false

/-- The qualified name of a declared type. -/
def qualifiedName? : Ty → Option String
  | declared name _ => some name
  | _ => none

/-- The values of the type are truth values or objects that hold one. -/
def isBoolean (t : Ty) : Bool :=
  t = primitive .boolean || t.qualifiedName? = some Primitive.boolean.boxed

/-- The primitive type whose values the type has or holds. -/
def unboxed? : Ty → Option Primitive
  | primitive p => some p
  | declared name _ => Primitive.unboxed? name
  | _ => none

/-- The two types are the same when type arguments are left out. -/
def sameErasure : Ty → Ty → Bool
  | declared m _, declared n _ => m == n
  | array a, array b => sameErasure a b
  | a, b => a = b

/-! ### Substitution -/

mutual

/-- The type with its variables replaced by what they stand for. -/
def substitute (s : Bindings) : Ty → Ty
  | var name => ((s.find? (·.1 == name)).map (·.2)).getD (var name)
  | declared name args => declared name (substituteAll s args)
  | array element => array (substitute s element)
  | t => t

/-- Each type with its variables replaced by what they stand for. -/
def substituteAll (s : Bindings) : List Ty → List Ty
  | [] => []
  | t :: ts => substitute s t :: substituteAll s ts

end

/-! ### Spelling -/

/-- The parts of a name between its dots. -/
def segments (name : String) : List String := (name.toList.splitOn '.').map String.ofList

/-- The part of a dotted name behind its last dot. -/
def lastSegment (name : String) : String := (segments name).getLast?.getD name

mutual

/-- The type as it is written in source, with simple names. -/
def display : Ty → String
  | primitive p => p.keyword
  | declared name [] => lastSegment name
  | declared name (a :: as) => lastSegment name ++ "<" ++ display a ++ displayMore as ++ ">"
  | array element => display element ++ "[]"
  | var name => name
  | null => "null"
  | void => "void"
  | unknown => "?"

/-- More type arguments, each behind a comma. -/
def displayMore : List Ty → String
  | [] => ""
  | t :: ts => ", " ++ display t ++ displayMore ts

end

end Ty

end Shorthand
