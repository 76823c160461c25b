import Shorthand.Library.Collections
import Shorthand.Library.Language
import Shorthand.Library.Streams

/-!
The types that come with the language.

Only members that are often asked for are listed.
-/

namespace Shorthand.Library

/-- The types of the packages `java.lang`, `java.io` and `java.util`. -/
def builtin : List TypeInfo := languageTypes ++ streamTypes ++ utilityTypes

end Shorthand.Library
