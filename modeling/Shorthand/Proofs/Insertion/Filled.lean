import Shorthand.Proofs.Insertion.Adjacent
import Shorthand.Proofs.Insertion.Arguments
import Shorthand.Proofs.Tree.Replaced

/-!
What becomes of a host.

`Graft.Made` lists what a node can become when it takes up an expression, and what is written for it, and
`Graft.intoHost?_made` says that there is nothing else. `spliceExpression?_made` says so of the whole tree,
in which one node on the way to the caret is replaced, and `spliceExpression?_written` that the text gets
what is written for the part that the new tree has gained.

A part that stands for a type or a name is not filled by an expression (`Role.isTypeOrName`), except
within an argument of a call, where the role of the missing part is not looked at.
-/

namespace Shorthand

/-- What plays the role is a type or a name. -/
def Role.isTypeOrName : Role → Bool
  | .type | .returnType | .name => true
  | _ => false

variable {source : List Char} {n e tree : Node} {caret : Nat} {g : Graft} {s : Splice}

namespace Graft

lemma filling?_eq_none {role : Role} : filling? e role = none ↔ role.isTypeOrName = true := by
  cases role <;> simp [filling?, Role.isTypeOrName]

/-- An expression fills a part as it is or as a statement. -/
lemma eq_of_filling? {role : Role} {f : Node} (h : filling? e role = some f) :
    f = e ∨ f = e.asStatement := by
  cases role <;> simp only [filling?, Option.some.injEq, reduceCtorEq] at h <;> simp [← h]

/-- What a node becomes that takes up an expression at a caret, and the edit that does the same. -/
inductive Made (source : List Char) (n e : Node) (caret : Nat) : Graft → Prop
  /-- A missing part that is neither a type nor a name is filled. -/
  | filled {path : Path} {m f : Node} (hm : n.descendant? path = some m) (hkind : m.kind = .missing)
      (hrole : m.role.isTypeOrName = false) (hf : filling? e m.role = some f) :
    Made source n e caret ⟨editAtCaret source caret f, n.withDescendant path f⟩
  /-- A missing part of an argument is filled, whatever it is. -/
  | argument {p : Nat × Node} {path : Path} {m : Node} (h : IsTarget n caret p path m) :
    Made source n e caret ⟨.insertion m.span.start e.render, n.withDescendant (p.1 :: path) e⟩
  /-- The expression becomes a statement among others. -/
  | statement (index : Nat) : Made source n e caret
      ⟨editAtCaret source caret e.asStatement, n.withInsertedChild index e.asStatement⟩
  /-- The expression becomes the result of a return statement. -/
  | result : Made source n e caret
      ⟨editAtCaret source caret e, n.withInsertedChild n.children.length (e.inRole .expression)⟩
  /-- A creation without a type gives way to another one. -/
  | creation (hn : n.kind = .classInstanceCreation)
      (htype : (n.child? .type).all (·.isMissing) = true) (he : e.kind = .classInstanceCreation) :
    Made source n e caret ⟨⟨⟨n.span.start, max n.span.stop caret⟩,
      padded source ⟨n.span.start, max n.span.stop caret⟩ e.render⟩, e⟩

/-! ### The ways of a host -/

lemma intoMissing?_made {path : Path} (hpath : adjacentMissing? source n caret = some path)
    (h : intoMissing? source n caret e path = some g) : Made source n e caret g := by
  obtain ⟨-, k, hk, hkind, -⟩ := adjacentMissing?_eq_some.mp hpath
  obtain ⟨m, hm, h⟩ := Option.bind_eq_some_iff.mp h
  obtain ⟨f, hf, h⟩ := Option.bind_eq_some_iff.mp h
  obtain rfl := Option.some.inj h
  obtain rfl : k = m := Option.some.inj (hk.symm.trans hm)
  refine .filled hm hkind (Bool.eq_false_iff.mpr fun hrole => ?_) hf
  rw [filling?_eq_none.mpr hrole] at hf
  cases hf

lemma intoGap?_made (h : intoGap? source n caret e = some g) : Made source n e caret g := by
  obtain ⟨path, hpath, h⟩ := Option.bind_eq_some_iff.mp h
  exact intoMissing?_made hpath h

lemma intoStatements?_made (h : intoStatements? source n caret e = some g) :
    Made source n e caret g := by
  rw [intoStatements?] at h
  split at h
  · next path hpath => exact intoMissing?_made hpath h
  · obtain rfl := Option.some.inj h
    exact .statement _

lemma intoReturn?_made (h : intoReturn? source n caret e = some g) : Made source n e caret g := by
  rw [intoReturn?] at h
  split at h
  · next path hpath => exact intoMissing?_made hpath h
  · split at h
    · obtain rfl := Option.some.inj h
      exact .result
    · cases h

lemma intoArguments?_made (h : intoArguments? n caret e = some g) : Made source n e caret g := by
  obtain ⟨p, path, m, htarget, rfl⟩ := intoArguments?_eq_some.mp h
  exact .argument htarget

lemma intoCreation?_made (hn : n.kind = .classInstanceCreation)
    (h : intoCreation? source n caret e = some g) : Made source n e caret g := by
  rw [intoCreation?] at h
  split at h
  · next hcreation =>
    obtain ⟨htype, he⟩ := Bool.and_eq_true_iff.mp hcreation
    obtain rfl := Option.some.inj h
    exact .creation hn htype (beq_iff_eq.mp he)
  · exact intoArguments?_made h

/-- There are no other ways to take up an expression. -/
theorem intoHost?_made {isInnermost : Bool} (h : intoHost? source n caret e isInnermost = some g) :
    Made source n e caret g := by
  rw [intoHost?] at h
  split at h
  case h_1 =>
    split at h
    · exact intoStatements?_made h
    · cases h
  case h_2 => exact intoReturn?_made h
  case h_3 => exact intoGap?_made h
  case h_4 => exact intoArguments?_made h
  case h_5 hhost =>
    have hkind : n.kind = .classInstanceCreation := by
      revert hhost
      cases n.kind <;> decide
    exact intoCreation?_made hkind h
  case h_6 => cases h
  case h_7 => cases h

/-- A closed host takes up nothing. -/
lemma not_closed_of_intoHost? {isInnermost : Bool}
    (h : intoHost? source n caret e isInnermost = some g) : Host.ofKind n.kind ≠ .closed := by
  intro hclosed
  rw [intoHost?, hclosed] at h
  cases h

/-- What is written is the written form of a part of the new node: the expression or a statement of
it. -/
theorem Made.exists_written (h : Made source n e caret g) : ∃ f path role,
    (f = e ∨ f = e.asStatement) ∧ g.node.descendant? path = some (f.inRole role)
      ∧ (g.edit.text = f.render ∨ g.edit.text = padded source g.edit.span f.render) := by
  have hinserted {f : Node} {index : Nat} :
      (n.withInsertedChild index f).descendant? [min index n.children.length] = some f := by
    rw [Node.descendant?_cons, Node.withInsertedChild, List.getElem?_insertIdx_self,
      if_pos (Nat.min_le_right _ _)]
    rfl
  cases h with
  | @filled path m f hm hkind hrole hf =>
    exact ⟨f, path, m.role, eq_of_filling? hf, Node.descendant?_withDescendant hm f, .inr rfl⟩
  | @argument p path m htarget =>
    exact ⟨e, p.1 :: path, m.role, .inl rfl, Node.descendant?_withDescendant htarget.descendant? e,
      .inl rfl⟩
  | statement index =>
    exact ⟨e.asStatement, _, .statement, .inr rfl, hinserted, .inr rfl⟩
  | result => exact ⟨e, _, .expression, .inl rfl, hinserted, .inr rfl⟩
  | creation => exact ⟨e, [], e.role, .inl rfl, congrArg some (Node.inRole_role e).symm, .inr rfl⟩

end Graft

/-! ### Splices -/

/-- In the tree that an expression leads to, one node on the way to the caret is replaced by what it
becomes. -/
theorem spliceExpression?_made (h : spliceExpression? source tree caret e = some s) :
    ∃ depth n g, (TreePath.ofOffset tree caret).node? depth = some n
      ∧ Host.ofKind n.kind ≠ .closed ∧ Graft.Made source n e caret g
      ∧ s = ⟨g.edit, some ((TreePath.ofOffset tree caret).rebuild depth g.node)⟩ := by
  obtain ⟨⟨depth, host⟩, hhost, h⟩ := Option.bind_eq_some_iff.mp h
  obtain ⟨g, hg, h⟩ := Option.bind_eq_some_iff.mp h
  refine ⟨depth, host, g, ?_, Graft.not_closed_of_intoHost? hg, Graft.intoHost?_made hg,
    (Option.some.inj h).symm⟩
  have hmem := List.mem_reverse.mp (List.mem_of_find?_eq_some hhost)
  obtain ⟨⟨node, index⟩, hnode, hpair⟩ := List.mem_map.mp hmem
  obtain ⟨rfl, rfl⟩ := Prod.mk.inj hpair
  exact List.mem_zipIdx_iff_getElem?.mp hnode

/-- The text gets what is written for one part of the new tree, which is the expression or a statement of
it, and beside the host the tree stays as it is. -/
theorem spliceExpression?_written (h : spliceExpression? source tree caret e = some s) :
    ∃ root host path f role, s.tree = some root ∧ (f = e ∨ f = e.asStatement)
      ∧ root.descendant? (host ++ path) = some (f.inRole role)
      ∧ (s.edit.text = f.render ∨ s.edit.text = padded source s.edit.span f.render)
      ∧ ∀ other, ¬ host <+: other → ¬ other <+: host →
        root.descendant? other = tree.descendant? other := by
  obtain ⟨depth, n, g, hn, -, hmade, rfl⟩ := spliceExpression?_made h
  obtain ⟨f, path, role, hf, hpart, htext⟩ := hmade.exists_written
  have hdepth : min depth (TreePath.ofOffset tree caret).leafDepth = depth := by
    obtain ⟨hlt, -⟩ := List.getElem?_eq_some_iff.mp hn
    simp only [TreePath.nodes, List.length_cons, List.length_map] at hlt
    exact Nat.min_eq_left (Nat.le_of_lt_succ hlt)
  have hhost : tree.descendant? ((TreePath.ofOffset tree caret).pathTo depth) = some n := by
    rw [TreePath.descendant?_pathTo, hdepth, hn]
  have hreplaces := Node.replaces_withDescendant hhost
  obtain ⟨role', hpart'⟩ := Node.exists_descendant?_inRole hpart n.role
  refine ⟨_, (TreePath.ofOffset tree caret).pathTo depth, path, f, role', rfl, hf, ?_, htext,
    fun other hbelow habove => ?_⟩
  · rw [TreePath.rebuild_eq_withDescendant, Node.descendant?_append, hreplaces.descendant?,
      Option.bind_some, hpart']
    rfl
  · rw [TreePath.rebuild_eq_withDescendant]
    exact hreplaces.apart _ _ hbelow habove

/-- The only part that is missing in the argument stands for a type, and the expression takes its
place. -/
example :
    let tree := (parse "class A { void m(int x) { f( new ); } }").tree
    ((spliceExpression? "class A { void m(int x) { f( new ); } }".toList tree 28 (Node.ofWord "x")).bind
        (·.tree)).map Node.render
      = some "class A { void m(int x) { f(new x()); } }" := by
  decide +kernel

end Shorthand
