import Shorthand.Insertion.Splice
import Shorthand.Proofs.Tree.Nearest
import Shorthand.Proofs.Tree.Replaced

/-!
Filling an argument.

A call takes up an expression in the first of its arguments whose text shows a missing part, and there in
the missing part that is nearest to the caret.

* `Graft.intoArguments?_eq_some` says just when this leads to something, and to what.
* `Graft.getElem?_intoArguments?` says that all other children stay as they are.
* `Graft.isSome_intoArguments?` says that an argument is filled if and only if one of them has a missing
  part, as long as the texts of the arguments show the missing parts that there are and no others.

The last condition cannot be left out: the text of an argument shows the mark of a missing part also where
the user wrote this mark, and does not show what is missing in parts that are not written down.
-/

namespace Shorthand

namespace Graft

variable {n e : Node} {caret : Nat} {g : Graft}

/-- An argument, with its index among the children, and a part of it to which a path leads: the first
argument that shows a missing part, and the part in it that is nearest to the caret. -/
structure IsTarget (n : Node) (caret : Nat) (p : Nat × Node) (path : Path) (m : Node) : Prop where
  first : ∃ before after, n.indexedChildrenWith .argument = before ++ p :: after
    ∧ ∀ q ∈ before, showsMissing q.2 = false
  shows : showsMissing p.2 = true
  nearest : p.2.nearestMissing caret = some path
  part : p.2.descendant? path = some m

namespace IsTarget

variable {p : Nat × Node} {path : Path} {m : Node}

lemma mem (h : IsTarget n caret p path m) : p ∈ n.indexedChildrenWith .argument := by
  obtain ⟨before, after, hsplit, -⟩ := h.first
  rw [hsplit]
  exact List.mem_append_right _ (List.mem_cons_self ..)

lemma descendant? (h : IsTarget n caret p path m) : n.descendant? (p.1 :: path) = some m :=
  (Node.descendant?_of_mem_indexedChildrenWith h.mem).trans h.part

/-- What is filled is missing. -/
lemma missing (h : IsTarget n caret p path m) : m.kind = .missing := by
  obtain ⟨k, hk, hkind⟩ := Node.nearestMissing_spec h.nearest
  obtain rfl : k = m := Option.some.inj (hk.symm.trans h.part)
  exact hkind

end IsTarget

/-- An expression is put in the place of the part that is meant, and at its offset in the text. -/
theorem intoArguments?_eq_some : intoArguments? n caret e = some g ↔
    ∃ p path m, IsTarget n caret p path m
      ∧ g = ⟨.insertion m.span.start e.render, n.withDescendant (p.1 :: path) e⟩ := by
  constructor
  · intro h
    obtain ⟨p, hfind, h⟩ := Option.bind_eq_some_iff.mp h
    obtain ⟨path, hpath, h⟩ := Option.bind_eq_some_iff.mp h
    obtain ⟨m, hm, h⟩ := Option.bind_eq_some_iff.mp h
    obtain ⟨hshows, before, after, hsplit, hbefore⟩ := List.find?_eq_some_iff_append.mp hfind
    rw [Node.descendant?_of_mem_indexedChildrenWith (List.mem_of_find?_eq_some hfind)] at hm
    exact ⟨p, path, m, ⟨⟨before, after, hsplit, by simpa using hbefore⟩, hshows, hpath, hm⟩,
      (Option.some.inj h).symm⟩
  · rintro ⟨p, path, m, h, rfl⟩
    obtain ⟨before, after, hsplit, hbefore⟩ := h.first
    have hfind : (n.indexedChildrenWith .argument).find? (fun p => showsMissing p.2) = some p :=
      List.find?_eq_some_iff_append.mpr ⟨h.shows, before, after, hsplit, by simpa using hbefore⟩
    exact Option.bind_eq_some_iff.mpr ⟨p, hfind, Option.bind_eq_some_iff.mpr
      ⟨path, h.nearest, Option.bind_eq_some_iff.mpr ⟨m, h.descendant?, rfl⟩⟩⟩

/-- Only the argument that is meant becomes another one, and in it only the part that is meant. -/
theorem getElem?_intoArguments? (h : intoArguments? n caret e = some g) :
    ∃ p path m, IsTarget n caret p path m ∧ ∀ i, g.node.children[i]?
      = if p.1 = i then some (p.2.withDescendant path e) else n.children[i]? := by
  obtain ⟨p, path, m, htarget, rfl⟩ := intoArguments?_eq_some.mp h
  exact ⟨p, path, m, htarget,
    fun _ => Node.getElem?_withDescendant (Node.getElem?_of_mem_indexedChildrenWith htarget.mem).1⟩

/-- Where arguments show the missing parts that they have, an argument is filled if and only if one of
them has a missing part. -/
theorem isSome_intoArguments?
    (hshows : ∀ p ∈ n.indexedChildrenWith .argument, showsMissing p.2 = p.2.containsMissing) :
    (intoArguments? n caret e).isSome = true
      ↔ ∃ p ∈ n.indexedChildrenWith .argument, p.2.containsMissing = true := by
  constructor
  · intro h
    obtain ⟨g, hg⟩ := Option.isSome_iff_exists.mp h
    obtain ⟨p, _, _, htarget, -⟩ := intoArguments?_eq_some.mp hg
    exact ⟨p, htarget.mem, (hshows p htarget.mem).symm.trans htarget.shows⟩
  · rintro ⟨q, hq, hmissing⟩
    have hsome : ((n.indexedChildrenWith .argument).find? fun p => showsMissing p.2).isSome = true :=
      List.find?_isSome.mpr ⟨q, hq, (hshows q hq).trans hmissing⟩
    obtain ⟨p, hfind⟩ := Option.isSome_iff_exists.mp hsome
    obtain ⟨hp, before, after, hsplit, hbefore⟩ := List.find?_eq_some_iff_append.mp hfind
    have hlacks := (hshows p (List.mem_of_find?_eq_some hfind)).symm.trans hp
    obtain ⟨path, hpath⟩ := Node.exists_nearestMissing hlacks caret
    obtain ⟨m, hm, -⟩ := Node.nearestMissing_spec hpath
    exact Option.isSome_iff_exists.mpr ⟨_, intoArguments?_eq_some.mpr
      ⟨p, path, m, ⟨⟨before, after, hsplit, by simpa using hbefore⟩, hp, hpath, hm⟩, rfl⟩⟩

/-- The second argument is missing. The first one is a name that reads like the mark of a missing part,
and has nothing that could be filled. -/
example :
    let tree := (parse "class A { void m(int x) { f($missing$, ); } }").tree
    let call := (TreePath.ofOffset tree 39).leaf
    call.kind = .methodInvocation
      ∧ (call.childrenWith .argument).map Node.containsMissing = [false, true]
      ∧ (call.childrenWith .argument).map showsMissing = [true, true]
      ∧ (intoArguments? call 39 (Node.ofWord "x")).isNone = true := by
  decide +kernel

end Graft

end Shorthand
