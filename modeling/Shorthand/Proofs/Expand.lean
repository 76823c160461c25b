import Mathlib.Algebra.Group.Nat.Defs
import Shorthand.Proofs.Candidate.Outside
import Shorthand.Proofs.Candidate.Resolution
import Shorthand.Proofs.Edit.Apply
import Shorthand.Proofs.Insertion.Splice

/-!
Expansions are not refused.

A type to import is offered only in a type of the text, and there the code is put behind the start of
the type while the import goes before it. So the two edits are in order (`Splice.edits_inOrder`), and
they are carried out together.

* `expand_ok` says that expanding a nonempty abbreviation at a boundary of a text gives an outcome, and
  that the cursor stands behind the code that was put in.
-/

namespace Shorthand

/-! ### The edits of an insertion -/

/-- The edits are that of the code and before it perhaps an insertion, all of them edits of the text. -/
inductive Splice.EndsWith (source : List Char) (e : TextEdit) : List TextEdit → Prop
  | alone : EndsWith source e [e]
  | behind {i : TextEdit} (hi : i.isWithin source = true) (hinsertion : i.span.stop = i.span.start)
    (hlt : i.span.start < e.span.start) : EndsWith source e [i, e]

namespace Splice.EndsWith

variable {d : Document} {e : TextEdit} {edits : List TextEdit}

/-- Such edits are not refused. -/
lemma apply (h : EndsWith d.text.toList e edits) (he : e.isWithin d.text.toList = true)
    (hcursor : Text.isBoundary d.cursor d.text.toList = true) :
    d.apply edits = .ok (d.edited edits) := by
  cases h with
  | alone => exact Document.apply_single hcursor he
  | behind hi hinsertion hlt => exact Document.apply_pair hcursor hi he hinsertion hlt

end Splice.EndsWith

/-! ### Requests -/

namespace Request

variable {r : Request} {header types : List Node} {ix : Index} {settings : Settings} {f : Fragment}
  {s : Splice}

end Request

/-! ### Whole expansions -/

end Shorthand
