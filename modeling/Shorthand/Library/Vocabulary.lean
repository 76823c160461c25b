import Shorthand.Model.TypeInfo

/-!
Words for writing down the types that come with the language.
-/

namespace Shorthand.Library

/-- A class that comes with the language. -/
def bootClass (name : String) : TypeInfo := .declaration .classType name .boot

/-- An interface that comes with the language. -/
def bootInterface (name : String) : TypeInfo := .declaration .interfaceType name .boot

/-- A method of the objects of a type. -/
def method (name : String) (params : List ParamInfo) (ret : Ty) : MethodInfo :=
  { name, params, ret, isStatic := false, declaring := "" }

/-- A static method of a type. -/
def staticMethod (name : String) (params : List ParamInfo) (ret : Ty) : MethodInfo :=
  { name, params, ret, isStatic := true, declaring := "" }

/-- The primitive type of the same name. -/
def boolean : Ty := .primitive .boolean

/-- The primitive type of the same name. -/
def byte : Ty := .primitive .byte

/-- The primitive type of the same name. -/
def short : Ty := .primitive .short

/-- The primitive type of the same name. -/
def char : Ty := .primitive .char

/-- The primitive type of the same name. -/
def int : Ty := .primitive .int

/-- The primitive type of the same name. -/
def long : Ty := .primitive .long

/-- The primitive type of the same name. -/
def float : Ty := .primitive .float

/-- The primitive type of the same name. -/
def double : Ty := .primitive .double

/-- Texts of any class. -/
def charSequence : Ty := .named "java.lang.CharSequence"

/-- What texts can be appended to. -/
def appendable : Ty := .named "java.lang.Appendable"

/-- Streams that texts are printed to. -/
def printStream : Ty := .named "java.io.PrintStream"

/-- Streams that bytes are read from. -/
def inputStream : Ty := .named "java.io.InputStream"

/-- What can be run. -/
def runnable : Ty := .named "java.lang.Runnable"

/-- What can be thrown. -/
def throwableTy : Ty := .named "java.lang.Throwable"

/-- Lists of elements of a type. -/
def listOf (t : Ty) : Ty := .declared "java.util.List" [t]

/-- Collections of elements of a type. -/
def collectionOf (t : Ty) : Ty := .declared "java.util.Collection" [t]

/-- Sets of elements of a type. -/
def setOf (t : Ty) : Ty := .declared "java.util.Set" [t]

/-- Maps from keys of one type to values of another. -/
def mapOf (k v : Ty) : Ty := .declared "java.util.Map" [k, v]

/-- Pairs of a key and a value. -/
def entryOf (k v : Ty) : Ty := .declared "java.util.Map.Entry" [k, v]

/-- Values of a type that may be absent. -/
def optionalOf (t : Ty) : Ty := .declared "java.util.Optional" [t]

/-- Iterators over elements of a type. -/
def iteratorOf (t : Ty) : Ty := .declared "java.util.Iterator" [t]

/-- What can be compared with values of a type. -/
def comparableTo (t : Ty) : Ty := .declared "java.lang.Comparable" [t]

end Shorthand.Library
