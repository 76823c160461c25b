import Shorthand.Proofs.Tree.Paths

/-!
Replacing a part of a tree.

The node at the end of a path is replaced on the way down the path (`withDescendant`), and the node at a
depth of a way to an offset on the way back up to the root (`rebuild`).

* `Node.Replaces` are the laws of a replacement: what is read where the new node was put, what happens if
  it is the old one, what becomes of it if another one is put there, and what stays as it is.
* `Node.replaces_withDescendant` and `Node.withDescendant_of_none`: replacing the node at the end of a path
  obeys them, and does nothing if the path leads nowhere.
* `TreePath.rebuild_eq_withDescendant`: replacing a node of a way is replacing the one at the end of the
  child indices up to it.
* `replaces_rebuild` puts these together.
-/

namespace Shorthand

namespace Node

variable {n c old : Node} {path : Path} {i j : Nat}

/-! ### One step down -/

lemma inRole_role (n : Node) : n.inRole n.role = n := by
  cases n
  rfl

lemma withChildren_set_self (hc : n.children[i]? = some c) : n.withChildren (n.children.set i c) = n := by
  obtain ⟨hlt, rfl⟩ := List.getElem?_eq_some_iff.mp hc
  rw [List.set_getElem_self]
  cases n
  rfl

lemma role_withDescendant (n : Node) (path : Path) (r : Node) : (n.withDescendant path r).role = n.role := by
  cases path with
  | nil => rfl
  | cons i path =>
    rw [withDescendant]
    cases n.children[i]? <;> rfl

/-- A replacement below a node replaces one of its children, which keeps its role. -/
lemma withDescendant_cons (hc : n.children[i]? = some c) (path : Path) (r : Node) :
    n.withDescendant (i :: path) r
      = n.withChildren (n.children.set i (c.withDescendant path r)) := by
  have hrole : (c.withDescendant path r).inRole c.role = c.withDescendant path r := by
    rw [← role_withDescendant c path r, inRole_role]
  simp only [withDescendant, hc]
  rw [withChild, List.modify_eq_set, hc, Option.getD_some, hrole, withChildren]

lemma withDescendant_cons_of_none (hc : n.children[i]? = none) (path : Path) (r : Node) :
    n.withDescendant (i :: path) r = n := by
  simp only [withDescendant, hc]

/-- Where a part below a child is replaced, the other children stay as they are. -/
lemma getElem?_withDescendant {r : Node} (hc : n.children[i]? = some c) :
    (n.withDescendant (i :: path) r).children[j]?
      = if i = j then some (c.withDescendant path r) else n.children[j]? := by
  obtain ⟨hlt, -⟩ := List.getElem?_eq_some_iff.mp hc
  rw [withDescendant_cons hc, withChildren, List.getElem?_set, if_pos hlt]

/-! ### The whole way down -/

/-- The laws of replacing a node at the end of a path. -/
structure Replaces (n : Node) (path : Path) (old : Node) (replace : Node → Node) : Prop where
  /-- The new node stands in the place of the old one, in its role. -/
  descendant? : ∀ r, (replace r).descendant? path = some (r.inRole old.role)
  /-- The old node in its own place makes no difference. -/
  self : replace old = n
  /-- Of two nodes that are put in one place the second one remains. -/
  again : ∀ r r', (replace r).withDescendant path r' = replace r'
  /-- What is neither above nor below the place stays as it is. -/
  apart : ∀ r other, ¬ path <+: other → ¬ other <+: path →
    (replace r).descendant? other = n.descendant? other

/-- A path that leads nowhere replaces nothing. -/
lemma withDescendant_of_none (h : n.descendant? path = none) (r : Node) : n.withDescendant path r = n := by
  induction path generalizing n with
  | nil => cases h
  | cons i path ih =>
    cases hc : n.children[i]? with
    | none => exact withDescendant_cons_of_none hc path r
    | some c =>
      rw [descendant?_cons, hc, Option.bind_some] at h
      rw [withDescendant_cons hc, ih h, withChildren_set_self hc]

lemma descendant?_withDescendant (h : n.descendant? path = some old) (r : Node) :
    (n.withDescendant path r).descendant? path = some (r.inRole old.role) := by
  induction path generalizing n with
  | nil =>
    obtain rfl := Option.some.inj h
    rfl
  | cons i path ih =>
    obtain ⟨c, hc, hold⟩ := Option.bind_eq_some_iff.mp h
    rw [descendant?_cons, getElem?_withDescendant hc, if_pos rfl, Option.bind_some, ih hold]

lemma withDescendant_self (h : n.descendant? path = some old) : n.withDescendant path old = n := by
  induction path generalizing n with
  | nil =>
    obtain rfl := Option.some.inj h
    exact inRole_role n
  | cons i path ih =>
    obtain ⟨c, hc, hold⟩ := Option.bind_eq_some_iff.mp h
    rw [withDescendant_cons hc, ih hold, withChildren_set_self hc]

lemma withDescendant_withDescendant (n : Node) (path : Path) (r r' : Node) :
    (n.withDescendant path r).withDescendant path r' = n.withDescendant path r' := by
  induction path generalizing n with
  | nil => rfl
  | cons i path ih =>
    cases hc : n.children[i]? with
    | none => rw [withDescendant_cons_of_none hc path r]
    | some c =>
      have hnew : (n.withDescendant (i :: path) r).children[i]? = some (c.withDescendant path r) := by
        rw [getElem?_withDescendant hc, if_pos rfl]
      rw [withDescendant_cons hnew, withDescendant_cons hc, withDescendant_cons hc, ih]
      simp only [withChildren, List.set_set]

/-- Next to the place where something is replaced the tree stays as it is. -/
lemma descendant?_withDescendant_of_apart {other : Path} (hbelow : ¬ path <+: other)
    (habove : ¬ other <+: path) (r : Node) :
    (n.withDescendant path r).descendant? other = n.descendant? other := by
  induction path generalizing n other with
  | nil => exact absurd List.nil_prefix hbelow
  | cons i path ih =>
    cases other with
    | nil => exact absurd List.nil_prefix habove
    | cons j other =>
      cases hc : n.children[i]? with
      | none => rw [withDescendant_cons_of_none hc]
      | some c =>
        rw [descendant?_cons, descendant?_cons, getElem?_withDescendant hc]
        by_cases hij : i = j
        · subst hij
          rw [if_pos rfl, hc, Option.bind_some, Option.bind_some]
          exact ih (fun h => hbelow (List.cons_prefix_cons.mpr ⟨rfl, h⟩))
            (fun h => habove (List.cons_prefix_cons.mpr ⟨rfl, h⟩))
        · rw [if_neg hij]

lemma replaces_withDescendant (h : n.descendant? path = some old) :
    n.Replaces path old (n.withDescendant path) where
  descendant? := descendant?_withDescendant h
  self := withDescendant_self h
  again := withDescendant_withDescendant n path
  apart r _ hbelow habove := descendant?_withDescendant_of_apart hbelow habove r

end Node

/-! ### Back up to the root -/

namespace TreePath

variable {root : Node} {s : Nat × Node} {steps : List (Nat × Node)} {depth offset : Nat}

/-- The child indices that lead from the root to the node at a depth, or to the last node if none is so
deep. -/
def pathTo (p : TreePath) (depth : Nat) : Path := p.indices.take (min depth p.leafDepth)

lemma min_leafDepth_cons : min (depth + 1) (TreePath.mk root (s :: steps)).leafDepth
    = min depth (TreePath.mk s.2 steps).leafDepth + 1 :=
  Nat.add_min_add_right depth steps.length 1

lemma pathTo_cons : (TreePath.mk root (s :: steps)).pathTo (depth + 1)
    = s.1 :: (TreePath.mk s.2 steps).pathTo depth := by
  rw [pathTo, min_leafDepth_cons]
  rfl

lemma node?_cons : (TreePath.mk root (s :: steps)).node? (depth + 1)
    = (TreePath.mk s.2 steps).node? depth := rfl

lemma exists_node?_min (p : TreePath) (depth : Nat) :
    ∃ n, p.node? (min depth p.leafDepth) = some n := by
  have hlt : min depth p.leafDepth < p.nodes.length := by
    simp only [nodes, leafDepth, List.length_cons, List.length_map]
    omega
  exact ⟨_, List.getElem?_eq_getElem hlt⟩

/-- To replace a node below the root is to replace it below the first child on the way. -/
lemma rebuild_cons (r : Node) : (TreePath.mk root (s :: steps)).rebuild (depth + 1) r
    = root.withChild s.1 ((TreePath.mk s.2 steps).rebuild depth r) := by
  obtain ⟨old, hold⟩ := exists_node?_min (TreePath.mk s.2 steps) depth
  simp only [rebuild, min_leafDepth_cons, node?_cons, hold, Option.getD_some]
  rfl

/-- The indices up to a depth lead to the node there. -/
lemma descendant?_pathTo (root : Node) (offset depth : Nat) :
    root.descendant? ((ofOffset root offset).pathTo depth)
      = (ofOffset root offset).node? (min depth (ofOffset root offset).leafDepth) := by
  induction depth generalizing root with
  | zero =>
    rw [pathTo, Nat.zero_min]
    rfl
  | succ depth ih =>
    cases hsteps : root.stepsTo offset with
    | nil =>
      rw [ofOffset, hsteps]
      rfl
    | cons s steps =>
      obtain ⟨hc, -, hrest⟩ := Node.stepsTo_eq_cons hsteps
      have hbelow := ih s.2
      rw [ofOffset, ← hrest] at hbelow
      rw [ofOffset, hsteps, pathTo_cons, min_leafDepth_cons, node?_cons, Node.descendant?_cons, hc,
        Option.bind_some, hbelow]

/-- A node on the way to an offset is replaced like the one at the end of the indices up to it. -/
lemma rebuild_eq_withDescendant (root : Node) (offset depth : Nat) (r : Node) :
    (ofOffset root offset).rebuild depth r
      = root.withDescendant ((ofOffset root offset).pathTo depth) r := by
  induction depth generalizing root with
  | zero =>
    simp only [rebuild, pathTo, Nat.zero_min]
    rfl
  | succ depth ih =>
    cases hsteps : root.stepsTo offset with
    | nil =>
      rw [ofOffset, hsteps]
      rfl
    | cons s steps =>
      obtain ⟨hc, -, hrest⟩ := Node.stepsTo_eq_cons hsteps
      have hbelow := ih s.2
      rw [ofOffset, ← hrest] at hbelow
      rw [ofOffset, hsteps, rebuild_cons, pathTo_cons, hbelow]
      simp only [Node.withDescendant, hc]

end TreePath

/-- To rebuild a tree around a new node on the way to an offset, up from the node, is to replace the node
down from the root. Both obey the laws of a replacement, as does a replacement at the end of any path that
leads to a node; at the end of other paths nothing is replaced. -/
theorem replaces_rebuild :
    (∀ (root : Node) (offset depth : Nat),
      let way := TreePath.ofOffset root offset
      (∀ r, way.rebuild depth r = root.withDescendant (way.pathTo depth) r)
        ∧ ∃ old, way.node? (min depth way.leafDepth) = some old
          ∧ root.descendant? (way.pathTo depth) = some old
          ∧ root.Replaces (way.pathTo depth) old (way.rebuild depth))
      ∧ ∀ (n : Node) (path : Path),
        (∀ old, n.descendant? path = some old → n.Replaces path old (n.withDescendant path))
          ∧ (n.descendant? path = none → ∀ r, n.withDescendant path r = n) := by
  refine ⟨fun root offset depth => ?_, fun n path => ⟨fun old => Node.replaces_withDescendant,
    Node.withDescendant_of_none⟩⟩
  have hrebuild : (TreePath.ofOffset root offset).rebuild depth
      = root.withDescendant ((TreePath.ofOffset root offset).pathTo depth) :=
    funext (TreePath.rebuild_eq_withDescendant root offset depth)
  obtain ⟨old, hold⟩ := (TreePath.ofOffset root offset).exists_node?_min depth
  have hpath := (TreePath.descendant?_pathTo root offset depth).trans hold
  refine ⟨congrFun hrebuild, old, hold, hpath, ?_⟩
  rw [hrebuild]
  exact Node.replaces_withDescendant hpath

/-- The second statement of a block is the last node on the way, and what takes its place becomes a
statement. -/
example :
    let block := (Node.leaf .block ⟨0, 9⟩).withChildren
      [(Node.leaf .emptyStatement ⟨2, 3⟩).inRole .statement,
        (Node.leaf .breakStatement ⟨4, 8⟩).inRole .statement]
    let way := TreePath.ofOffset block 5
    way.pathTo 7 = [1]
      ∧ (way.rebuild 7 (Node.detached .returnStatement)).children.map (fun c => (c.kind, c.role))
        = [(.emptyStatement, .statement), (.returnStatement, .statement)] := by
  decide

end Shorthand
