/-!
Half-open byte ranges of a text.

Offsets count the bytes of the UTF-8 encoding of the text, so `⟨start, stop⟩` covers the bytes from
`start` up to but not including `stop`. A node or edit that was made and not read has the range
`Span.detached`.
-/

namespace Shorthand

/-- A half-open range of byte offsets. -/
structure Span where
  /-- The offset of the first byte. -/
  start : Nat
  /-- The offset just past the last byte. -/
  stop : Nat
deriving DecidableEq, Repr, Inhabited

namespace Span

/-- The range of something that has no place in a text. -/
def detached : Span := ⟨0, 0⟩

/-- The empty range at an offset. -/
def empty (offset : Nat) : Span := ⟨offset, offset⟩

/-- The range from the start of `a` to the end of `b`. -/
def through (a b : Span) : Span := ⟨a.start, b.stop⟩

/-- A range is empty when it ends at or before its start. -/
def isEmpty (s : Span) : Bool := s.stop ≤ s.start

/-- The number of bytes covered. -/
def length (s : Span) : Nat := s.stop - s.start

/-- The offset lies after the start and before the end. -/
def strictlyContains (s : Span) (offset : Nat) : Bool := s.start < offset && offset < s.stop

/-- The offset lies in the range or on one of its two ends. -/
def touches (s : Span) (offset : Nat) : Bool := s.start ≤ offset && offset ≤ s.stop

end Span

end Shorthand
