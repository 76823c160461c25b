import Shorthand.Library.Vocabulary

/-!
The types of the package `java.lang`.
-/

namespace Shorthand.Library

/-- The class of all objects and the basic interfaces. -/
def rootTypes : List TypeInfo :=
  [bootClass "java.lang.Object"
    |>.withConstructor []
    |>.withMethods
        [method "equals" [⟨"obj", .object⟩] boolean,
         method "hashCode" [] int,
         method "toString" [] .string,
         method "getClass" [] (.declared "java.lang.Class" [.var "?"]),
         method "notify" [] .void,
         method "notifyAll" [] .void,
         method "wait" [] .void],
   bootInterface "java.lang.CharSequence"
    |>.withMethods
        [method "length" [] int,
         method "charAt" [⟨"index", int⟩] char,
         method "isEmpty" [] boolean,
         method "subSequence" [⟨"start", int⟩, ⟨"end", int⟩] charSequence],
   bootInterface "java.lang.Comparable"
    |>.generic ["T"]
    |>.withMethod (method "compareTo" [⟨"o", .var "T"⟩] int),
   bootInterface "java.lang.Iterable"
    |>.generic ["T"]
    |>.withMethod (method "iterator" [] (iteratorOf (.var "T"))),
   bootInterface "java.lang.Runnable"
    |>.withMethod (method "run" [] .void),
   bootInterface "java.lang.AutoCloseable"
    |>.withMethod (method "close" [] .void),
   bootInterface "java.lang.Appendable"
    |>.withMethod (method "append" [⟨"csq", charSequence⟩] appendable),
   bootInterface "java.lang.Cloneable"]

/-- The class of texts. -/
def textTypes : List TypeInfo :=
  [bootClass "java.lang.String"
    |>.implementing charSequence
    |>.implementing (comparableTo .string)
    |>.withConstructor []
    |>.withConstructor [⟨"original", .string⟩]
    |>.withMethods
        [method "length" [] int,
         method "isEmpty" [] boolean,
         method "charAt" [⟨"index", int⟩] char,
         method "substring" [⟨"beginIndex", int⟩] .string,
         method "substring" [⟨"beginIndex", int⟩, ⟨"endIndex", int⟩] .string,
         method "indexOf" [⟨"str", .string⟩] int,
         method "indexOf" [⟨"str", .string⟩, ⟨"fromIndex", int⟩] int,
         method "lastIndexOf" [⟨"str", .string⟩] int,
         method "startsWith" [⟨"prefix", .string⟩] boolean,
         method "endsWith" [⟨"suffix", .string⟩] boolean,
         method "contains" [⟨"s", charSequence⟩] boolean,
         method "equalsIgnoreCase" [⟨"anotherString", .string⟩] boolean,
         method "compareTo" [⟨"anotherString", .string⟩] int,
         method "toUpperCase" [] .string,
         method "toLowerCase" [] .string,
         method "trim" [] .string,
         method "split" [⟨"regex", .string⟩] (.array .string),
         method "replace" [⟨"target", charSequence⟩, ⟨"replacement", charSequence⟩] .string,
         method "toCharArray" [] (.array char),
         method "concat" [⟨"str", .string⟩] .string,
         staticMethod "valueOf" [⟨"obj", .object⟩] .string,
         staticMethod "valueOf" [⟨"i", int⟩] .string,
         staticMethod "format" [⟨"format", .string⟩, ⟨"args", .array .object⟩] .string,
         staticMethod "join"
            [⟨"delimiter", charSequence⟩, ⟨"elements", .array charSequence⟩] .string]]

/-- A class of texts that can be changed. -/
def textBuilder (name : String) : TypeInfo :=
  let self := Ty.named name
  let append := fun (param : String) (ty : Ty) => method "append" [⟨param, ty⟩] self
  bootClass name
    |>.implementing charSequence
    |>.implementing appendable
    |>.withConstructor []
    |>.withConstructor [⟨"capacity", int⟩]
    |>.withConstructor [⟨"str", .string⟩]
    |>.withMethods
        [append "str" .string,
         append "c" char,
         append "i" int,
         append "lng" long,
         append "d" double,
         append "b" boolean,
         append "obj" .object,
         method "insert" [⟨"offset", int⟩, ⟨"str", .string⟩] self,
         method "reverse" [] self,
         method "delete" [⟨"start", int⟩, ⟨"end", int⟩] self,
         method "deleteCharAt" [⟨"index", int⟩] self,
         method "length" [] int,
         method "charAt" [⟨"index", int⟩] char,
         method "setLength" [⟨"newLength", int⟩] .void,
         method "indexOf" [⟨"str", .string⟩] int,
         method "capacity" [] int,
         method "toString" [] .string]

/-- Numbers, the system, threads and the classes that describe types. -/
def systemTypes : List TypeInfo :=
  [bootClass "java.lang.Number"
    |>.withMethods
        [method "intValue" [] int,
         method "longValue" [] long,
         method "floatValue" [] float,
         method "doubleValue" [] double],
   bootClass "java.lang.Math"
    |>.withConstant "PI" double
    |>.withConstant "E" double
    |>.withMethods
        [staticMethod "abs" [⟨"a", int⟩] int,
         staticMethod "abs" [⟨"a", double⟩] double,
         staticMethod "max" [⟨"a", int⟩, ⟨"b", int⟩] int,
         staticMethod "max" [⟨"a", double⟩, ⟨"b", double⟩] double,
         staticMethod "min" [⟨"a", int⟩, ⟨"b", int⟩] int,
         staticMethod "min" [⟨"a", double⟩, ⟨"b", double⟩] double,
         staticMethod "sqrt" [⟨"a", double⟩] double,
         staticMethod "pow" [⟨"a", double⟩, ⟨"b", double⟩] double,
         staticMethod "floor" [⟨"a", double⟩] double,
         staticMethod "ceil" [⟨"a", double⟩] double,
         staticMethod "round" [⟨"a", double⟩] long,
         staticMethod "random" [] double],
   bootClass "java.lang.System"
    |>.withConstant "out" printStream
    |>.withConstant "err" printStream
    |>.withConstant "in" inputStream
    |>.withMethods
        [staticMethod "currentTimeMillis" [] long,
         staticMethod "nanoTime" [] long,
         staticMethod "exit" [⟨"status", int⟩] .void,
         staticMethod "getProperty" [⟨"key", .string⟩] .string,
         staticMethod "getenv" [⟨"name", .string⟩] .string,
         staticMethod "lineSeparator" [] .string,
         staticMethod "arraycopy"
            [⟨"src", .object⟩, ⟨"srcPos", int⟩, ⟨"dest", .object⟩,
             ⟨"destPos", int⟩, ⟨"length", int⟩] .void],
   bootClass "java.lang.Thread"
    |>.implementing runnable
    |>.withConstructor []
    |>.withConstructor [⟨"target", runnable⟩]
    |>.withMethods
        [method "start" [] .void,
         method "run" [] .void,
         method "interrupt" [] .void,
         method "join" [] .void,
         method "getName" [] .string,
         staticMethod "sleep" [⟨"millis", long⟩] .void,
         staticMethod "currentThread" [] (.named "java.lang.Thread")],
   bootClass "java.lang.Class"
    |>.generic ["T"]
    |>.withMethods
        [method "getName" [] .string,
         method "getSimpleName" [] .string,
         method "isInstance" [⟨"obj", .object⟩] boolean],
   bootClass "java.lang.Enum"
    |>.generic ["E"]
    |>.implementing (comparableTo (.var "E"))
    |>.withMethods
        [method "name" [] .string,
         method "ordinal" [] int]]

/-- The class of all that can be thrown. -/
def throwableRoot : List TypeInfo :=
  [bootClass "java.lang.Throwable"
    |>.withConstructor []
    |>.withConstructor [⟨"message", .string⟩]
    |>.withMethods
        [method "getMessage" [] .string,
         method "getCause" [] throwableTy,
         method "printStackTrace" [] .void,
         method "addSuppressed" [⟨"exception", throwableTy⟩] .void]]

/-- A class of exceptions with a message and a cause. -/
def throwable (name superclass : String) : TypeInfo :=
  bootClass name
    |>.extending (.named superclass)
    |>.withConstructor []
    |>.withConstructor [⟨"message", .string⟩]
    |>.withConstructor [⟨"message", .string⟩, ⟨"cause", throwableTy⟩]

/-- Errors and exceptions. -/
def exceptionTypes : List TypeInfo :=
  [throwable "java.lang.Exception" "java.lang.Throwable",
   throwable "java.lang.Error" "java.lang.Throwable",
   throwable "java.lang.RuntimeException" "java.lang.Exception",
   throwable "java.lang.IllegalArgumentException" "java.lang.RuntimeException",
   throwable "java.lang.IllegalStateException" "java.lang.RuntimeException",
   throwable "java.lang.NullPointerException" "java.lang.RuntimeException",
   throwable "java.lang.IndexOutOfBoundsException" "java.lang.RuntimeException",
   throwable "java.lang.UnsupportedOperationException" "java.lang.RuntimeException",
   throwable "java.lang.ClassCastException" "java.lang.RuntimeException",
   throwable "java.lang.NumberFormatException" "java.lang.IllegalArgumentException",
   throwable "java.lang.InterruptedException" "java.lang.Exception",
   throwable "java.lang.CloneNotSupportedException" "java.lang.Exception"]

/-- The members that only one of the classes of boxed values has. -/
def boxedMethods : Primitive → List MethodInfo
  | .int =>
    [staticMethod "parseInt" [⟨"s", .string⟩] int,
     staticMethod "compare" [⟨"x", int⟩, ⟨"y", int⟩] int]
  | .long => [staticMethod "parseLong" [⟨"s", .string⟩] long]
  | .double =>
    [staticMethod "parseDouble" [⟨"s", .string⟩] double,
     staticMethod "isNaN" [⟨"v", double⟩] boolean]
  | .boolean => [staticMethod "parseBoolean" [⟨"s", .string⟩] boolean]
  | .char =>
    [staticMethod "isDigit" [⟨"ch", char⟩] boolean,
     staticMethod "isLetter" [⟨"ch", char⟩] boolean,
     staticMethod "isWhitespace" [⟨"ch", char⟩] boolean,
     staticMethod "toUpperCase" [⟨"ch", char⟩] char]
  | .float => [staticMethod "parseFloat" [⟨"s", .string⟩] float]
  | .byte => [staticMethod "parseByte" [⟨"s", .string⟩] byte]
  | .short => [staticMethod "parseShort" [⟨"s", .string⟩] short]

/-- The constants of a class of boxed values. -/
def boxedConstants (p : Primitive) (t : TypeInfo) : TypeInfo :=
  match p with
  | .boolean =>
    (t.withConstant "TRUE" (.named p.boxed)).withConstant "FALSE" (.named p.boxed)
  | .char => t
  | _ =>
    t.extending (.named "java.lang.Number")
      |>.withConstant "MAX_VALUE" (.primitive p)
      |>.withConstant "MIN_VALUE" (.primitive p)

/-- The class of the objects that hold values of a primitive type. -/
def boxedType (p : Primitive) : TypeInfo :=
  let self := Ty.named p.boxed
  bootClass p.boxed
    |>.implementing (comparableTo self)
    |>.withConstructor [⟨"value", .primitive p⟩]
    |>.withMethods
        [staticMethod "valueOf" [⟨"value", .primitive p⟩] self,
         staticMethod "toString" [⟨"value", .primitive p⟩] .string,
         method "compareTo" [⟨"other", self⟩] int]
    |> boxedConstants p
    |>.withMethods (boxedMethods p)

/-- All types of the package. -/
def languageTypes : List TypeInfo :=
  rootTypes ++ textTypes
    ++ [textBuilder "java.lang.StringBuilder", textBuilder "java.lang.StringBuffer"]
    ++ systemTypes ++ throwableRoot ++ exceptionTypes ++ Primitive.all.map boxedType

end Shorthand.Library
