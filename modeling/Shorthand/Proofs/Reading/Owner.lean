import Shorthand.Proofs.Building.Gaps
import Shorthand.Proofs.Reading.Parse

/-!
The way to a missing part.

A part is missing at the token that stands in its place, which can lie behind the end of the node that
lacks the part. The way to an offset therefore also goes into nodes that lack a part there, and takes the
first child that covers the offset in one of the two ways.

* `Node.stepsAmong_reaches`: no child is in the way. Children lie one behind the other, and what
  one of them lacks does not lie before it, so an offset between the ends of an earlier child is not the
  place of a part that a later one lacks.
* `TreePath.isOwner_leaf`: the way ends at a node of which a child is missing at the offset.
* `TreePath.isChain_ofOffset`: each node of a way is the child of the one before at the index that is
  kept.
* `owner_ofOffset` puts these together for the trees of texts.
-/

namespace Shorthand

namespace Node

variable {src : List Char} {n m : Node} {ns : List Node} {path : Path} {offset lo hi : Nat}

/-- A part of the node is missing at an offset. -/
structure IsOwner (n : Node) (offset : Nat) : Prop where
  present : n.kind ≠ .missing
  slot : ∃ m ∈ n.children, m.kind = .missing ∧ m.span.start = offset

/-! ### Parts that are missing at an offset -/

lemma anyMissingAt_iff : anyMissingAt offset ns = true ↔ ∃ c ∈ ns, c.hasMissingAt offset = true := by
  induction ns with
  | nil => simp [anyMissingAt]
  | cons c cs ih => simp [anyMissingAt, ih]

/-- A node lacks a part where a path from it leads to a missing node. -/
lemma hasMissingAt_of_descendant? (h : n.Everywhere Bare) (hm : n.descendant? path = some m)
    (hkind : m.kind = .missing) : n.hasMissingAt m.span.start = true := by
  induction path generalizing n with
  | nil =>
    obtain rfl := Option.some.inj hm
    obtain ⟨kind, role, span, text, children⟩ := n
    rw [hasMissingAt, if_pos hkind]
    exact beq_self_eq_true _
  | cons i path ih =>
    rw [descendant?] at hm
    obtain ⟨c, hc, hm⟩ := Option.bind_eq_some_iff.mp hm
    have hmem := List.mem_of_getElem? hc
    have hpresent : n.kind ≠ .missing := by
      intro hmissing
      rw [h.own hmissing] at hmem
      cases hmem
    have hlacks := ih (h.inner c hmem) hm
    obtain ⟨kind, role, span, text, children⟩ := n
    rw [hasMissingAt, if_neg hpresent]
    exact anyMissingAt_iff.mpr ⟨c, hmem, hlacks⟩

/-- What a node lacks does not lie before it. -/
lemma Laid.start_le_of_hasMissingAt (h : n.Laid src) (hm : n.hasMissingAt offset = true) :
    n.span.start ≤ offset := by
  induction h with
  | @mk n own inner ih =>
    obtain ⟨hi, hin⟩ := own.children
    obtain ⟨kind, role, span, text, children⟩ := n
    rw [hasMissingAt] at hm
    split at hm
    · exact Nat.le_of_eq (beq_iff_eq.mp hm)
    · obtain ⟨c, hc, hlacks⟩ := anyMissingAt_iff.mp hm
      exact Nat.le_trans (hin.start_le hc) (ih c hc hlacks)

/-! ### One step of the way -/

/-- An offset before the end of a node is not between the ends of any behind it. -/
lemma stepsAmong_eq_nil {i : Nat} (hin : InOrder lo ns hi) (hle : offset ≤ lo)
    (hmissing : anyMissingAt offset ns = false) : stepsAmong offset i ns = [] := by
  induction ns generalizing lo i with
  | nil => rfl
  | cons c cs ih =>
    obtain ⟨hstart, hc, hcs⟩ := hin
    rw [anyMissingAt, Bool.or_eq_false_iff] at hmissing
    have hcovers : c.covers offset = false := by
      have hbefore : ¬ c.span.start < offset := by omega
      simp [covers, Span.strictlyContains, hmissing.1, hbefore]
    rw [stepsAmong, if_neg (by rw [hcovers]; decide), ih hcs (by omega) hmissing.2]

/-- A node before one that lacks a part at an offset does not have the offset between its ends. -/
lemma not_strictlyContains_of_anyMissingAt {c : Node} (hns : ∀ d ∈ ns, d.Laid src)
    (hin : InOrder c.span.stop ns hi) (hmissing : anyMissingAt offset ns = true) :
    c.span.strictlyContains offset = false := by
  obtain ⟨d, hd, hlacks⟩ := anyMissingAt_iff.mp hmissing
  have hstop := hin.start_le hd
  have hstart := (hns d hd).start_le_of_hasMissingAt hlacks
  have hoffset : ¬ offset < c.span.stop := by omega
  simp [Span.strictlyContains, hoffset]

/-- The way through some nodes leads to a part that is missing at an offset: it goes into one of the
nodes that lacks the part, or it ends because the part is one of the nodes. -/
def Reaches (offset : Nat) (ns : List Node) (steps : List (Nat × Node)) : Prop :=
  (steps = [] ∧ ∃ m ∈ ns, m.kind = .missing ∧ m.span.start = offset)
    ∨ ∃ s, steps = s :: s.2.stepsTo offset ∧ s.2 ∈ ns ∧ s.2.kind ≠ .missing
        ∧ s.2.hasMissingAt offset = true

lemma Reaches.cons {c : Node} {steps : List (Nat × Node)} (h : Reaches offset ns steps) :
    Reaches offset (c :: ns) steps := by
  rcases h with ⟨hnil, m, hm, hslot⟩ | ⟨s, hs, hmem, hlacks⟩
  · exact .inl ⟨hnil, m, List.mem_cons_of_mem _ hm, hslot⟩
  · exact .inr ⟨s, hs, List.mem_cons_of_mem _ hmem, hlacks⟩

/-- Of nodes that lie one behind the other none is in the way of a part that one of them lacks. -/
lemma stepsAmong_reaches {i : Nat} (hns : ∀ c ∈ ns, c.Laid src) (hin : InOrder lo ns hi)
    (hmissing : anyMissingAt offset ns = true) : Reaches offset ns (stepsAmong offset i ns) := by
  induction ns generalizing lo i with
  | nil => cases hmissing
  | cons c cs ih =>
    obtain ⟨-, -, hcs⟩ := hin
    obtain ⟨-, hrest⟩ := List.forall_mem_cons.mp hns
    rw [stepsAmong]
    by_cases hlacks : c.hasMissingAt offset = true
    · by_cases hkind : c.kind = .missing
      · -- The part itself covers nothing, and others behind it may be missing at the same place.
        rw [if_neg (by simp [covers, isMissing, hkind])]
        cases h : anyMissingAt offset cs with
        | true => exact (ih hrest hcs h).cons
        | false =>
          have hstart : c.span.start = offset := by
            obtain ⟨kind, role, span, text, children⟩ := c
            rw [hasMissingAt, if_pos hkind] at hlacks
            exact beq_iff_eq.mp hlacks
          have hempty : c.span.stop = c.span.start := (hns c (List.mem_cons_self ..)).own.missing hkind
          rw [stepsAmong_eq_nil hcs (by omega) h]
          exact .inl ⟨rfl, c, List.mem_cons_self .., hkind, hstart⟩
      · rw [if_pos (by simp [covers, isMissing, hkind, hlacks])]
        exact .inr ⟨(i, c), rfl, List.mem_cons_self .., hkind, hlacks⟩
    · rw [anyMissingAt, Bool.or_eq_true] at hmissing
      have h : anyMissingAt offset cs = true := hmissing.resolve_left hlacks
      have hinside := not_strictlyContains_of_anyMissingAt hrest hcs h
      rw [if_neg (by simp [covers, hinside, hlacks])]
      exact (ih hrest hcs h).cons

end Node

/-! ### The whole way -/

namespace TreePath

variable {src : List Char} {root n : Node} {offset depth : Nat}

lemma leaf_of_stepsTo_nil (h : root.stepsTo offset = []) : (ofOffset root offset).leaf = root := by
  rw [leaf, ofOffset, h]
  rfl

/-- A way ends where the way on from its first step ends. -/
lemma leaf_of_stepsTo_cons {s : Nat × Node} (h : root.stepsTo offset = s :: s.2.stepsTo offset) :
    (ofOffset root offset).leaf = (ofOffset s.2 offset).leaf := by
  rw [leaf, leaf, ofOffset, ofOffset, h, List.getLast?_cons]
  cases (s.2.stepsTo offset).getLast? <;> rfl

/-- The way to an offset at which a part is missing ends at a node that lacks the part. -/
theorem isOwner_leaf (h : root.Laid src) (hkind : root.kind ≠ .missing)
    (hmissing : root.hasMissingAt offset = true) : (ofOffset root offset).leaf.IsOwner offset := by
  induction h with
  | @mk root own inner ih =>
    obtain ⟨hi, hin⟩ := own.children
    have hany : Node.anyMissingAt offset root.children = true := by
      obtain ⟨kind, role, span, text, children⟩ := root
      rwa [Node.hasMissingAt, if_neg hkind] at hmissing
    have hsteps : root.stepsTo offset = Node.stepsAmong offset 0 root.children := by
      obtain ⟨kind, role, span, text, children⟩ := root
      rw [Node.stepsTo]
    rcases Node.stepsAmong_reaches inner hin hany with ⟨hnil, hslot⟩ | ⟨s, hs, hmem, hown⟩
    · rw [leaf_of_stepsTo_nil (hsteps.trans hnil)]
      exact ⟨hkind, hslot⟩
    · rw [leaf_of_stepsTo_cons (hsteps.trans hs)]
      exact ih s.2 hmem hown.1 hown.2

/-- Each node of a way but the first is the child of the one before, at its index. -/
def IsChain (p : TreePath) : Prop := ∀ depth n, p.node? (depth + 1) = some n →
  ∃ parent i, p.node? depth = some parent ∧ p.indexInParent? (depth + 1) = some i
    ∧ parent.children[i]? = some n

theorem isChain_ofOffset (root : Node) (offset : Nat) : (ofOffset root offset).IsChain := by
  intro depth n hn
  induction depth generalizing root with
  | zero =>
    cases hsteps : root.stepsTo offset with
    | nil => simp [node?, nodes, ofOffset, hsteps] at hn
    | cons s steps =>
      obtain rfl : s.2 = n := by simpa [node?, nodes, ofOffset, hsteps] using hn
      refine ⟨root, s.1, rfl, ?_, (Node.stepsTo_eq_cons hsteps).1⟩
      simp [indexInParent?, indices, ofOffset, hsteps]
  | succ depth ih =>
    cases hsteps : root.stepsTo offset with
    | nil => simp [node?, nodes, ofOffset, hsteps] at hn
    | cons s steps =>
      obtain ⟨-, -, rfl⟩ := Node.stepsTo_eq_cons hsteps
      have hlater : (ofOffset s.2 offset).node? (depth + 1) = some n := by
        simpa [node?, nodes, ofOffset, hsteps] using hn
      obtain ⟨parent, i, hparent, hi, hchild⟩ := ih s.2 hlater
      refine ⟨parent, i, ?_, ?_, hchild⟩
      · simpa [node?, nodes, ofOffset, hsteps] using hparent
      · simpa [indexInParent?, indices, ofOffset, hsteps] using hi

end TreePath

/-! ### The trees of texts -/

/-- In the tree of a text the way to the offset of a missing part leads from parent to child and ends at
a node that is there and lacks a part at the offset. -/
theorem owner_ofOffset (source : String) {path : Path} {m : Node}
    (hm : (parse source).tree.descendant? path = some m) (hkind : m.kind = .missing) :
    (TreePath.ofOffset (parse source).tree m.span.start).IsChain
      ∧ (TreePath.ofOffset (parse source).tree m.span.start).leaf.IsOwner m.span.start := by
  have hpresent : (parse source).tree.kind ≠ .missing := by
    obtain ⟨_, _, _, _, hread, _⟩ := parse_read source
    rw [hread.eq]
    nofun
  have hmissing := Node.hasMissingAt_of_descendant? (parse_bare source) hm hkind
  exact ⟨TreePath.isChain_ofOffset _ _, TreePath.isOwner_leaf (parse_laid source) hpresent hmissing⟩

/-- The inner statement lacks a branch in front of the brace, behind the end of the loop around it. -/
theorem owner_ofOffset_branch :
    ((parse "class A { void m() { while (a) if (b)   } }").tree.descendant? [0, 1, 2, 0, 1, 1]).map
        (fun m => (m.kind, m.span.start)) = some (.missing, 40)
      ∧ (TreePath.ofOffset (parse "class A { void m() { while (a) if (b)   } }").tree 40).IsChain
      ∧ (TreePath.ofOffset (parse "class A { void m() { while (a) if (b)   } }").tree 40).leaf.IsOwner
          40 := by
  have hbranch : ((parse "class A { void m() { while (a) if (b)   } }").tree.descendant?
      [0, 1, 2, 0, 1, 1]).map (fun m => (m.kind, m.span.start)) = some (.missing, 40) := by
    decide +kernel
  refine ⟨hbranch, ?_⟩
  obtain ⟨m, hm, hpair⟩ := Option.map_eq_some_iff.mp hbranch
  obtain ⟨hkind, hstart⟩ := Prod.mk.inj hpair
  have howner := owner_ofOffset _ hm hkind
  rwa [hstart] at howner

end Shorthand
