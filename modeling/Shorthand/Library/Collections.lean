import Shorthand.Library.Vocabulary

/-!
The types of the package `java.util`.
-/

namespace Shorthand.Library

/-- Collections and maps. -/
def collectionTypes : List TypeInfo :=
  [bootInterface "java.util.Iterator"
    |>.generic ["E"]
    |>.withMethods
        [method "hasNext" [] boolean,
         method "next" [] (.var "E"),
         method "remove" [] .void],
   bootInterface "java.util.Collection"
    |>.generic ["E"]
    |>.extending (.declared "java.lang.Iterable" [.var "E"])
    |>.withMethods
        [method "size" [] int,
         method "isEmpty" [] boolean,
         method "contains" [⟨"o", .object⟩] boolean,
         method "add" [⟨"e", .var "E"⟩] boolean,
         method "remove" [⟨"o", .object⟩] boolean,
         method "addAll" [⟨"c", collectionOf (.var "E")⟩] boolean,
         method "clear" [] .void,
         method "toArray" [] (.array .object)],
   bootInterface "java.util.List"
    |>.generic ["E"]
    |>.extending (collectionOf (.var "E"))
    |>.withMethods
        [method "get" [⟨"index", int⟩] (.var "E"),
         method "set" [⟨"index", int⟩, ⟨"element", .var "E"⟩] (.var "E"),
         method "add" [⟨"index", int⟩, ⟨"element", .var "E"⟩] .void,
         method "indexOf" [⟨"o", .object⟩] int,
         method "subList" [⟨"fromIndex", int⟩, ⟨"toIndex", int⟩] (listOf (.var "E")),
         staticMethod "of" [⟨"elements", .array (.var "E")⟩] (listOf (.var "E"))],
   bootClass "java.util.ArrayList"
    |>.generic ["E"]
    |>.implementing (listOf (.var "E"))
    |>.withConstructor []
    |>.withConstructor [⟨"initialCapacity", int⟩]
    |>.withMethods
        [method "ensureCapacity" [⟨"minCapacity", int⟩] .void,
         method "trimToSize" [] .void],
   bootClass "java.util.LinkedList"
    |>.generic ["E"]
    |>.implementing (listOf (.var "E"))
    |>.withConstructor []
    |>.withMethods
        [method "addFirst" [⟨"e", .var "E"⟩] .void,
         method "addLast" [⟨"e", .var "E"⟩] .void,
         method "getFirst" [] (.var "E"),
         method "getLast" [] (.var "E")],
   bootInterface "java.util.Set"
    |>.generic ["E"]
    |>.extending (collectionOf (.var "E")),
   bootClass "java.util.HashSet"
    |>.generic ["E"]
    |>.implementing (setOf (.var "E"))
    |>.withConstructor [],
   bootInterface "java.util.Map"
    |>.generic ["K", "V"]
    |>.withMethods
        [method "size" [] int,
         method "isEmpty" [] boolean,
         method "get" [⟨"key", .object⟩] (.var "V"),
         method "put" [⟨"key", .var "K"⟩, ⟨"value", .var "V"⟩] (.var "V"),
         method "remove" [⟨"key", .object⟩] (.var "V"),
         method "containsKey" [⟨"key", .object⟩] boolean,
         method "containsValue" [⟨"value", .object⟩] boolean,
         method "getOrDefault" [⟨"key", .object⟩, ⟨"defaultValue", .var "V"⟩] (.var "V"),
         method "keySet" [] (setOf (.var "K")),
         method "values" [] (collectionOf (.var "V")),
         method "entrySet" [] (setOf (entryOf (.var "K") (.var "V"))),
         method "clear" [] .void],
   bootInterface "java.util.Map.Entry"
    |>.generic ["K", "V"]
    |>.withMethods
        [method "getKey" [] (.var "K"),
         method "getValue" [] (.var "V"),
         method "setValue" [⟨"value", .var "V"⟩] (.var "V")],
   bootClass "java.util.HashMap"
    |>.generic ["K", "V"]
    |>.implementing (mapOf (.var "K") (.var "V"))
    |>.withConstructor []
    |>.withConstructor [⟨"initialCapacity", int⟩],
   bootClass "java.util.TreeMap"
    |>.generic ["K", "V"]
    |>.implementing (mapOf (.var "K") (.var "V"))
    |>.withConstructor []]

/-- What is used along with collections. -/
def toolTypes : List TypeInfo :=
  [bootClass "java.util.Optional"
    |>.generic ["T"]
    |>.withMethods
        [method "isPresent" [] boolean,
         method "get" [] (.var "T"),
         method "orElse" [⟨"other", .var "T"⟩] (.var "T"),
         staticMethod "of" [⟨"value", .var "T"⟩] (optionalOf (.var "T")),
         staticMethod "empty" [] (optionalOf (.var "T"))],
   bootClass "java.util.Objects"
    |>.withMethods
        [staticMethod "equals" [⟨"a", .object⟩, ⟨"b", .object⟩] boolean,
         staticMethod "hash" [⟨"values", .array .object⟩] int,
         staticMethod "hashCode" [⟨"o", .object⟩] int,
         staticMethod "isNull" [⟨"obj", .object⟩] boolean,
         staticMethod "nonNull" [⟨"obj", .object⟩] boolean,
         staticMethod "requireNonNull" [⟨"obj", .var "T"⟩] (.var "T"),
         staticMethod "toString" [⟨"o", .object⟩] .string],
   bootClass "java.util.Arrays"
    |>.withMethods
        [staticMethod "asList" [⟨"a", .array (.var "T")⟩] (listOf (.var "T")),
         staticMethod "sort" [⟨"a", .array int⟩] .void,
         staticMethod "toString" [⟨"a", .array .object⟩] .string,
         staticMethod "fill" [⟨"a", .array int⟩, ⟨"val", int⟩] .void],
   bootClass "java.util.Collections"
    |>.withMethods
        [staticMethod "emptyList" [] (listOf (.var "T")),
         staticMethod "sort" [⟨"list", listOf (.var "T")⟩] .void,
         staticMethod "unmodifiableList" [⟨"list", listOf (.var "T")⟩] (listOf (.var "T")),
         staticMethod "reverse" [⟨"list", listOf (.var "T")⟩] .void],
   bootClass "java.util.Scanner"
    |>.implementing (.named "java.io.Closeable")
    |>.withConstructor [⟨"source", inputStream⟩]
    |>.withMethods
        [method "nextLine" [] .string,
         method "nextInt" [] int,
         method "hasNext" [] boolean,
         method "close" [] .void],
   bootClass "java.util.NoSuchElementException"
    |>.extending (.named "java.lang.RuntimeException")
    |>.withConstructor []
    |>.withConstructor [⟨"message", .string⟩]]

/-- All types of the package. -/
def utilityTypes : List TypeInfo := collectionTypes ++ toolTypes

end Shorthand.Library
