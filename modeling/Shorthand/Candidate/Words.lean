import Shorthand.Candidate.Query

/-!
Candidates that are words of the language.
-/

namespace Shorthand.Query

variable (q : Query)

/-- The keywords among some. -/
def keywords (among : List Keyword) : List Fragment :=
  (among.filter (q.asksFor ·.spelling)).map .keyword

/-- The modifiers among some keywords. -/
def modifiers (among : List Keyword) : List Fragment :=
  (among.filter (q.asksFor ·.spelling)).map .modifier

/-- The primitive types. -/
def primitiveTypes : List Fragment := (Primitive.all.filter (q.asksFor ·.keyword)).map .primitive

/-- The literals that are words. -/
def literals : List Fragment :=
  (LiteralWord.all.filter fun l => q.asksFor l.text && q.fits l.ty).map .literal

/-- The keyword `this`, in a method or constructor that has an object. -/
def thisKeyword : List Fragment :=
  match q.index.enclosingType? q.caret, q.index.enclosingMethod? q.caret with
  | some t, some m =>
    if q.asksFor Keyword.thisKw.spelling && !m.isStatic && q.fits t.asTy then [.keyword .thisKw]
    else []
  | _, _ => []

end Shorthand.Query
