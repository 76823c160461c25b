import Shorthand.Library.Vocabulary

/-!
The types of the package `java.io`.
-/

namespace Shorthand.Library

/-- All types of the package. -/
def streamTypes : List TypeInfo :=
  [bootInterface "java.io.Closeable"
    |>.extending (.named "java.lang.AutoCloseable")
    |>.withMethod (method "close" [] .void),
   bootClass "java.io.PrintStream"
    |>.withMethods
        [method "println" [] .void,
         method "println" [⟨"x", .string⟩] .void,
         method "println" [⟨"x", int⟩] .void,
         method "println" [⟨"x", .object⟩] .void,
         method "print" [⟨"s", .string⟩] .void,
         method "printf" [⟨"format", .string⟩, ⟨"args", .array .object⟩] printStream,
         method "flush" [] .void],
   bootClass "java.io.InputStream"
    |>.implementing (.named "java.io.Closeable")
    |>.withMethods
        [method "read" [] int,
         method "available" [] int,
         method "close" [] .void],
   bootClass "java.io.File"
    |>.withConstructor [⟨"pathname", .string⟩]
    |>.withMethods
        [method "exists" [] boolean,
         method "getName" [] .string,
         method "getPath" [] .string,
         method "isDirectory" [] boolean,
         method "delete" [] boolean],
   bootClass "java.io.IOException"
    |>.extending (.named "java.lang.Exception")
    |>.withConstructor []
    |>.withConstructor [⟨"message", .string⟩],
   bootClass "java.io.FileNotFoundException"
    |>.extending (.named "java.io.IOException")
    |>.withConstructor []
    |>.withConstructor [⟨"message", .string⟩],
   bootClass "java.io.UncheckedIOException"
    |>.extending (.named "java.lang.RuntimeException")
    |>.withConstructor [⟨"message", .string⟩, ⟨"cause", .named "java.io.IOException"⟩]]

end Shorthand.Library
