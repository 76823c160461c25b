import Shorthand.Insertion.Splice
import Shorthand.Proofs.Building.Gaps
import Shorthand.Proofs.Reading.Parse
import Shorthand.Proofs.Tree.Nearest

/-!
The missing part next to a caret.

`Text.BlankBetween` says that only white space stands between two places of a text. What `adjacentMissing?`
finds is the missing part that is nearest to the caret, if only white space stands between the two
(`adjacentMissing?_eq_some`).

A missing part from which only white space separates the caret is overlooked if another one is nearer and
something else stands before that. `adjacentMissing?_of_blankBetween` says that this happens only if the
two stand on different sides of the caret: on one side, the way to the nearer part is a piece of the way to
the other one.
-/

namespace Shorthand

/-! ### White space between two places -/

namespace Text

variable {source : List Char} {a b offset : Nat}

/-- Only white space stands between two places of a text. -/
def BlankBetween (source : List Char) (a b : Nat) : Prop :=
  ∃ gap, slice? (min a b) (max a b) source = some gap ∧ ∀ c ∈ gap, isBlank c = true

namespace BlankBetween

lemma comm : BlankBetween source a b ↔ BlankBetween source b a := by
  rw [BlankBetween, BlankBetween, Nat.min_comm, Nat.max_comm]

/-- A place between the two is nearer to both. -/
lemma of_between (h : BlankBetween source a b) (hoffset : isBoundary offset source = true)
    (hmin : min a b ≤ offset) (hmax : offset ≤ max a b) : BlankBetween source offset b := by
  obtain ⟨gap, hgap, hblank⟩ := h
  obtain ⟨front, back, rfl, hfront, hback⟩ := exists_slices hgap hoffset hmin hmax
  rcases Nat.le_total a b with hle | hle
  · rw [Nat.max_eq_right hle] at hback hmax
    refine ⟨back, ?_, fun c hc => hblank c (List.mem_append_right _ hc)⟩
    rwa [Nat.min_eq_left hmax, Nat.max_eq_right hmax]
  · rw [Nat.min_eq_right hle] at hfront hmin
    refine ⟨front, ?_, fun c hc => hblank c (List.mem_append_left _ hc)⟩
    rwa [Nat.min_eq_right hmin, Nat.max_eq_left hmin]

end BlankBetween

end Text

/-! ### The missing part next to the caret -/

section Adjacent

variable {source : List Char} {n : Node} {caret : Nat} {path : Path}

/-- The missing part at the caret is the one nearest to it, if only white space is between them. -/
theorem adjacentMissing?_eq_some : adjacentMissing? source n caret = some path ↔
    n.nearestMissing caret = some path
      ∧ ∃ m, n.descendant? path = some m ∧ m.kind = .missing
        ∧ Text.BlankBetween source m.span.start caret := by
  simp only [adjacentMissing?, Option.bind_eq_bind, Option.bind_eq_some_iff]
  constructor
  · rintro ⟨nearest, hnearest, m, hm, gap, hgap, h⟩
    split at h
    · next hblank =>
      obtain rfl := Option.some.inj h
      obtain ⟨m', hm', hkind⟩ := Node.nearestMissing_spec hnearest
      obtain rfl : m' = m := Option.some.inj (hm'.symm.trans hm)
      exact ⟨hnearest, m', hm, hkind, gap, hgap, List.all_eq_true.mp hblank⟩
    · cases h
  · rintro ⟨hnearest, m, hm, -, gap, hgap, hblank⟩
    exact ⟨path, hnearest, m, hm, gap, hgap, if_pos (List.all_eq_true.mpr hblank)⟩

/-- The caret stands between two places. -/
def Parts (caret a b : Nat) : Prop := a < caret ∧ caret < b ∨ b < caret ∧ caret < a

/-- If only white space separates the caret from a missing part and another one is no farther away, then
only white space separates it from that one too, unless they stand on different sides of the caret. -/
lemma blankBetween_of_distance_le {a b : Nat} (h : Text.BlankBetween source a caret)
    (hb : Text.isBoundary b source = true)
    (hle : Node.distance b caret ≤ Node.distance a caret) (hside : ¬ Parts caret a b) :
    Text.BlankBetween source b caret := by
  rw [Parts, not_or] at hside
  rw [Node.distance, Node.distance] at hle
  refine h.of_between hb ?_ ?_
  · omega
  · omega

/-- In the tree of a text, a missing part from which only white space separates the caret is found, or
another one is. Otherwise the nearest one has something else before it and stands on the other side of the
caret, no farther away. -/
theorem adjacentMissing?_of_blankBetween (text : String) {m : Node}
    (hn : n ∈ (TreePath.ofOffset (parse text).tree caret).nodes)
    (hm : n.descendant? path = some m) (hkind : m.kind = .missing)
    (hblank : Text.BlankBetween text.toList m.span.start caret) :
    (∃ found, adjacentMissing? text.toList n caret = some found)
      ∨ ∃ nearest k, n.nearestMissing caret = some nearest ∧ n.descendant? nearest = some k
        ∧ k.kind = .missing ∧ ¬ Text.BlankBetween text.toList k.span.start caret
        ∧ Node.distance k.span.start caret ≤ Node.distance m.span.start caret
        ∧ Parts caret m.span.start k.span.start := by
  have hbare := TreePath.everywhere_of_mem (parse_bare text) hn
  have hlaid := TreePath.everywhere_of_mem (parse_laid text) hn
  obtain ⟨nearest, hnearest⟩ := Node.exists_nearestMissing (Node.lacks_of_bare hbare hm hkind).containsMissing caret
  obtain ⟨k, hk, hkmissing⟩ := Node.nearestMissing_spec hnearest
  have hle := Node.distance_nearestMissing_le hbare hnearest hk hm hkind
  have hstart : Text.isBoundary k.span.start text.toList = true := (hlaid.descendant? hk).own.start
  by_cases hkblank : Text.BlankBetween text.toList k.span.start caret
  · exact .inl ⟨nearest, adjacentMissing?_eq_some.mpr ⟨hnearest, k, hk, hkmissing, hkblank⟩⟩
  · refine .inr ⟨nearest, k, hnearest, hk, hkmissing, hkblank, hle, ?_⟩
    by_contra hside
    exact hkblank (blankBetween_of_distance_le hblank hstart hle hside)

/-- Behind the parenthesis only white space leads to the missing branch at 38, but the missing operand at
34 is nearer. -/
example :
    let text := "class A { void m(int x) { if (x = )   } }"
    let n := (TreePath.ofOffset (parse text).tree 36).leaf
    n.missingParts.map (·.2) = [34, 38]
      ∧ adjacentMissing? text.toList n 36 = none
      ∧ (adjacentMissing? text.toList n 37).isSome = true := by
  decide +kernel

end Adjacent

end Shorthand
