import Shorthand.Proofs.Reading.Parse

/-!
Where the nodes of the tree of a text lie.

* `Node.WellPlaced` lists what is known of the range of a node and of those of its children.
* `parse_wellPlaced` says that it holds of every node of the tree of every text.
-/

namespace Shorthand

namespace Node

namespace InOrder

variable {lo hi : Nat} {ns : List Node}

/-- Of nodes that lie one behind the other each ends at or before the start of all that follow it. -/
lemma pairwise_stop_le_start (h : InOrder lo ns hi) :
    ns.Pairwise fun n m => n.span.stop ≤ m.span.start := by
  induction ns generalizing lo with
  | nil => exact .nil
  | cons n ns ih =>
    obtain ⟨-, -, hns⟩ := h
    exact .cons (fun m hm => hns.start_le hm) (ih hns)

/-- Nodes that lie one behind the other start one behind the other. -/
lemma pairwise_start_le (h : InOrder lo ns hi) :
    ns.Pairwise fun n m => n.span.start ≤ m.span.start := by
  induction ns generalizing lo with
  | nil => exact .nil
  | cons n ns ih =>
    obtain ⟨-, hn, hns⟩ := h
    exact .cons (fun m hm => Nat.le_trans hn (hns.start_le hm)) (ih hns)

end InOrder

/-- A node has its place in a text. Its range lies in the text and ends between characters. Its children
start neither before it nor before one another, and none overlaps one behind it. A missing node covers
nothing, and a name, a literal, a modifier and a primitive type keep just the text that they cover. -/
structure WellPlaced (src : List Char) (n : Node) : Prop where
  start_le_stop : n.span.start ≤ n.span.stop
  stop_le_bytes : n.span.stop ≤ Text.bytes src
  start_boundary : Text.isBoundary n.span.start src = true
  stop_boundary : Text.isBoundary n.span.stop src = true
  start_le_child : ∀ m ∈ n.children, n.span.start ≤ m.span.start
  children_sorted : n.children.Pairwise fun m k => m.span.start ≤ k.span.start
  children_apart : n.children.Pairwise fun m k => m.span.stop ≤ k.span.start
  missing_empty : n.kind = .missing → n.span.stop = n.span.start
  leaf_spelled : n.kind.isLeaf = true → n.Spelled src

lemma LaidOut.wellPlaced {src : List Char} {n : Node} (h : n.LaidOut src) : n.WellPlaced src := by
  obtain ⟨hi, hin⟩ := h.children
  refine ⟨h.le, Text.le_bytes_of_isBoundary h.stop, h.start, h.stop, fun m hm => hin.start_le hm,
    hin.pairwise_start_le, hin.pairwise_stop_le_start, h.missing, h.spelled⟩

end Node

/-- Every node of the tree of a text has its place in the text. -/
theorem parse_wellPlaced (source : String) :
    (parse source).tree.Everywhere (Node.WellPlaced source.toList) :=
  (parse_laid source).imp fun _ h => h.wellPlaced

end Shorthand
