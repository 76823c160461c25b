import Shorthand.Proofs.Reading.Layout
import Shorthand.Tree.TreePath

/-!
Ways down a tree.

What holds everywhere in a tree holds of the nodes that a search in it finds: of those on the way to an
offset (`stepsTo_everywhere`) and of a part missing at an offset (`exists_missing_of_hasMissingAt`).
-/

namespace Shorthand

namespace Node

variable {P : Node → Prop} {n : Node} {ns : List Node} {offset : Nat}

lemma descendant?_cons (n : Node) (i : Nat) (path : Path) :
    n.descendant? (i :: path) = n.children[i]?.bind (·.descendant? path) := rfl

/-- A path that goes on leads first to where it goes on from. -/
lemma descendant?_append (n : Node) (path rest : Path) :
    n.descendant? (path ++ rest) = (n.descendant? path).bind (·.descendant? rest) := by
  induction path generalizing n with
  | nil => rfl
  | cons i path ih =>
    rw [List.cons_append, descendant?_cons, descendant?_cons, Option.bind_assoc]
    exact congrArg _ (funext fun c => ih c)

/-- The role of a node plays no part in what is below it. -/
lemma exists_descendant?_inRole {n m : Node} {path : Path} (h : n.descendant? path = some m)
    (role : Role) : ∃ role', (n.inRole role).descendant? path = some (m.inRole role') := by
  cases path with
  | nil =>
    obtain rfl := Option.some.inj h
    exact ⟨role, rfl⟩
  | cons i path =>
    refine ⟨m.role, Eq.trans ?_ (h.trans ?_)⟩
    · rfl
    · cases m
      rfl

/-- A child with its index in a role is the child at this index and plays this role. -/
lemma getElem?_of_mem_indexedChildrenWith {role : Role} {p : Nat × Node}
    (h : p ∈ n.indexedChildrenWith role) : n.children[p.1]? = some p.2 ∧ p.2.role = role := by
  obtain ⟨q, hq, rfl⟩ := List.mem_map.mp h
  obtain ⟨hmem, hrole⟩ := List.mem_filter.mp hq
  exact ⟨List.mem_zipIdx_iff_getElem?.mp hmem, by simpa using hrole⟩

lemma descendant?_of_mem_indexedChildrenWith {role : Role} {p : Nat × Node} {path : Path}
    (h : p ∈ n.indexedChildrenWith role) : n.descendant? (p.1 :: path) = p.2.descendant? path := by
  rw [descendant?, (getElem?_of_mem_indexedChildrenWith h).1, Option.bind_eq_bind, Option.bind_some]

/-! ### The way to an offset -/

mutual

lemma stepsTo_everywhere : ∀ n : Node, n.Everywhere P → ∀ s ∈ n.stepsTo offset, s.2.Everywhere P
  | ⟨_, _, _, _, children⟩, h => stepsAmong_everywhere 0 children h.inner

lemma stepsAmong_everywhere (i : Nat) : ∀ ns : List Node, (∀ n ∈ ns, n.Everywhere P) →
    ∀ s ∈ stepsAmong offset i ns, s.2.Everywhere P
  | [], _ => by simp [stepsAmong]
  | c :: cs, h => by
    intro s hs
    have hc := h c (List.mem_cons_self ..)
    rw [stepsAmong] at hs
    split at hs
    · rcases List.mem_cons.mp hs with rfl | hs
      · exact hc
      · exact stepsTo_everywhere c hc s hs
    · exact stepsAmong_everywhere (i + 1) cs (fun n hn => h n (List.mem_cons_of_mem _ hn)) s hs

end

mutual

/-- What holds of all nodes of a tree holds everywhere in it. -/
lemma everywhere_of_descendants : ∀ n : Node, (∀ m ∈ n.descendants, P m) → n.Everywhere P
  | ⟨_, _, _, _, children⟩, h => by
    rw [descendants, List.forall_mem_cons] at h
    exact .mk h.1 (everywhere_of_descendantsOfAll children h.2)

lemma everywhere_of_descendantsOfAll : ∀ ns : List Node, (∀ m ∈ descendantsOfAll ns, P m) →
    ∀ n ∈ ns, n.Everywhere P
  | [], _ => by simp
  | c :: cs, h => by
    rw [descendantsOfAll, List.forall_mem_append] at h
    exact List.forall_mem_cons.mpr
      ⟨everywhere_of_descendants c h.1, everywhere_of_descendantsOfAll cs h.2⟩

end

lemma stepsAmong_eq_cons {i : Nat} {s : Nat × Node} {steps : List (Nat × Node)}
    (h : stepsAmong offset i ns = s :: steps) :
    (∃ j, s.1 = i + j ∧ ns[j]? = some s.2) ∧ s.2.covers offset = true
      ∧ steps = s.2.stepsTo offset := by
  induction ns generalizing i with
  | nil => cases h
  | cons c cs ih =>
    rw [stepsAmong] at h
    split at h
    · next hcovers =>
      obtain ⟨rfl, rfl⟩ := List.cons.inj h
      exact ⟨⟨0, rfl, rfl⟩, hcovers, rfl⟩
    · obtain ⟨⟨j, hindex, hj⟩, hrest⟩ := ih h
      exact ⟨⟨j + 1, by rw [hindex, Nat.add_assoc, Nat.add_comm 1 j], hj⟩, hrest⟩

/-- The first step of a way leads to the child at its index, which covers the offset, and the others
start there. -/
lemma stepsTo_eq_cons {s : Nat × Node} {steps : List (Nat × Node)}
    (h : n.stepsTo offset = s :: steps) :
    n.children[s.1]? = some s.2 ∧ s.2.covers offset = true ∧ steps = s.2.stepsTo offset := by
  obtain ⟨kind, role, span, text, children⟩ := n
  rw [stepsTo] at h
  obtain ⟨⟨j, hindex, hj⟩, hrest⟩ := stepsAmong_eq_cons h
  rw [Nat.zero_add] at hindex
  exact ⟨by rw [hindex]; exact hj, hrest⟩

/-! ### Missing parts -/

mutual

lemma exists_missing_of_hasMissingAt : ∀ n : Node, n.Everywhere P → n.hasMissingAt offset = true →
    ∃ m : Node, P m ∧ m.kind = .missing ∧ m.span.start = offset
  | ⟨kind, role, span, text, children⟩, h, hm => by
    rw [hasMissingAt] at hm
    split at hm
    · next hkind => exact ⟨_, h.own, hkind, by simpa using hm⟩
    · exact exists_missing_of_anyMissingAt children h.inner hm

lemma exists_missing_of_anyMissingAt : ∀ ns : List Node, (∀ n ∈ ns, n.Everywhere P) →
    anyMissingAt offset ns = true → ∃ m : Node, P m ∧ m.kind = .missing ∧ m.span.start = offset
  | [], _, hm => by cases hm
  | c :: cs, h, hm => by
    rw [anyMissingAt, Bool.or_eq_true] at hm
    rcases hm with hm | hm
    · exact exists_missing_of_hasMissingAt c (h c (List.mem_cons_self ..)) hm
    · exact exists_missing_of_anyMissingAt cs (fun n hn => h n (List.mem_cons_of_mem _ hn)) hm

end

/-- A missing node has nothing below it. -/
def Bare (n : Node) : Prop := n.kind = .missing → n.children = []

end Node

/-! ### Paths around an offset -/

namespace TreePath

variable {P : Node → Prop} {root : Node} {offset : Nat}

/-- What holds everywhere in a tree holds everywhere in the nodes on the way to an offset. -/
lemma everywhere_of_mem (h : root.Everywhere P) {n : Node} (hn : n ∈ (ofOffset root offset).nodes) :
    n.Everywhere P := by
  rcases List.mem_cons.mp hn with rfl | hn
  · exact h
  · obtain ⟨s, hs, rfl⟩ := List.mem_map.mp hn
    exact Node.stepsTo_everywhere root h s hs

end TreePath

end Shorthand
