import Shorthand.Proofs.Reading.Parse
import Shorthand.Proofs.Tree.Paths

/-!
How the nodes of a tree nest.

A node ends where the token before the cursor ends when it is made, and so it encloses its children, up
to those that are empty. Only a conditional statement without its last branch is kept open beyond that, up
to the place of the branch, and what it stands in does not follow it.

* `parse_nested` says so of every node of the tree of a text.
* `prefix_ofOffset` says that the way to an offset leads through every node that has the offset between
  its ends, unless a conditional statement that waits for a branch lies on the way.
-/

namespace Shorthand

namespace Node

variable {src : List Char} {n c m : Node} {ns : List Node} {path : Path} {offset lo hi : Nat}

/-- None of the nodes to which a path leads, the first one apart, waits for a branch. -/
def Settled (n : Node) (path : Path) : Prop :=
  ∀ front k, front <+: path → front ≠ [] → n.descendant? front = some k → ¬ k.Waits

namespace Settled

variable {i : Nat}

lemma child (h : n.Settled (i :: path)) (hc : n.children[i]? = some c) : ¬ c.Waits :=
  h [i] c (by simp) (by simp) (by simp [descendant?, hc])

lemma rest (h : n.Settled (i :: path)) (hc : n.children[i]? = some c) : c.Settled path := by
  intro front k hfront hne hk
  refine h (i :: front) k (List.cons_prefix_cons.mpr ⟨rfl, hfront⟩) (by simp) ?_
  simpa [descendant?, hc] using hk

end Settled

/-! ### Offsets between the ends of nodes -/

lemma ne_missing_of_strictlyContains (h : LaidOut src n)
    (hn : n.span.strictlyContains offset = true) : n.kind ≠ .missing := by
  intro hkind
  have hempty := h.missing hkind
  simp only [Span.strictlyContains, Bool.and_eq_true, decide_eq_true_eq] at hn
  omega

/-- What lies between the ends of a child lies between those of its parent. -/
lemma strictlyContains_of_mem (h : LaidOut src n) (hc : c ∈ n.children) (hsettled : ¬ c.Waits)
    (hoffset : c.span.strictlyContains offset = true) : n.span.strictlyContains offset = true := by
  obtain ⟨hi, hin⟩ := h.children
  have hstart := hin.start_le hc
  simp only [Span.strictlyContains, Bool.and_eq_true, decide_eq_true_eq] at hoffset ⊢
  rcases h.within c hc with hstop | hempty | hwaits
  · omega
  · omega
  · exact absurd hwaits hsettled

lemma strictlyContains_of_descendant? (h : n.Laid src) (hm : n.descendant? path = some m)
    (hsettled : n.Settled path) (hoffset : m.span.strictlyContains offset = true) :
    n.span.strictlyContains offset = true := by
  induction path generalizing n with
  | nil =>
    rw [descendant?, Option.some.injEq] at hm
    rwa [hm]
  | cons i path ih =>
    rw [descendant?] at hm
    obtain ⟨c, hc, hm⟩ := Option.bind_eq_some_iff.mp hm
    have hmem := List.mem_of_getElem? hc
    exact strictlyContains_of_mem h.own hmem (hsettled.child hc)
      (ih (h.inner c hmem) hm (hsettled.rest hc))

/-! ### The way down -/

lemma hasMissingAt_eq_false_of_mem (h : anyMissingAt offset ns = false) (hc : c ∈ ns) :
    c.hasMissingAt offset = false := by
  induction ns with
  | nil => cases hc
  | cons d ds ih =>
    rw [anyMissingAt, Bool.or_eq_false_iff] at h
    rcases List.mem_cons.mp hc with rfl | hc
    · exact h.1
    · exact ih h.2 hc

/-- Of nodes that lie one behind the other, the way to an offset takes the one around it. -/
lemma stepsAmong_of_strictlyContains {i j : Nat} (hin : InOrder lo ns hi)
    (hmissing : anyMissingAt offset ns = false) (hc : ns[j]? = some c) (hkind : c.kind ≠ .missing)
    (hoffset : c.span.strictlyContains offset = true) :
    stepsAmong offset i ns = (i + j, c) :: stepsTo offset c := by
  induction ns generalizing lo i j with
  | nil => simp at hc
  | cons d ds ih =>
    obtain ⟨-, -, hds⟩ := hin
    rw [anyMissingAt, Bool.or_eq_false_iff] at hmissing
    rw [stepsAmong]
    cases j with
    | zero =>
      rw [List.getElem?_cons_zero, Option.some.injEq] at hc
      subst hc
      simp [covers, isMissing, hkind, hoffset]
    | succ j =>
      rw [List.getElem?_cons_succ] at hc
      -- `d` ends before `c` starts, and `c` starts before the offset.
      have hd : d.covers offset = false := by
        have := hds.start_le (List.mem_of_getElem? hc)
        simp only [Span.strictlyContains, Bool.and_eq_true, decide_eq_true_eq] at hoffset
        simp only [covers, Span.strictlyContains, hmissing.1, Bool.or_false, Bool.and_eq_false_iff,
          decide_eq_false_iff_not]
        omega
      rw [if_neg (by simp [hd]), ih hds hmissing.2 hc, Nat.add_right_comm, Nat.add_assoc]

/-- The way to an offset at which nothing is missing leads through every node around the offset. -/
theorem prefix_stepsTo (h : n.Laid src) (hm : n.descendant? path = some m)
    (hsettled : n.Settled path) (hoffset : m.span.strictlyContains offset = true)
    (hmissing : n.hasMissingAt offset = false) : path <+: (n.stepsTo offset).map (·.1) := by
  induction path generalizing n with
  | nil => exact List.nil_prefix
  | cons i path ih =>
    have hkind := ne_missing_of_strictlyContains h.own
      (strictlyContains_of_descendant? h hm hsettled hoffset)
    rw [descendant?] at hm
    obtain ⟨c, hc, hcm⟩ := Option.bind_eq_some_iff.mp hm
    have hmem := List.mem_of_getElem? hc
    have hlaid := h.inner c hmem
    have hrest := hsettled.rest hc
    have hcoffset := strictlyContains_of_descendant? hlaid hcm hrest hoffset
    obtain ⟨hi, hin⟩ := h.own.children
    obtain ⟨kind, role, span, text, children⟩ := n
    rw [hasMissingAt, if_neg hkind] at hmissing
    rw [stepsTo, stepsAmong_of_strictlyContains hin hmissing hc
      (ne_missing_of_strictlyContains hlaid.own hcoffset) hcoffset, List.map_cons, Nat.zero_add,
      List.cons_prefix_cons]
    exact ⟨rfl, ih hlaid hcm hrest (hasMissingAt_eq_false_of_mem hmissing hmem)⟩

end Node

/-! ### The trees of texts -/

/-- In the tree of a text, what a node is made of ends with the node or before it, unless it is empty
or waits for a branch. -/
theorem parse_nested (source : String) :
    (parse source).tree.Everywhere fun n => ∀ c ∈ n.children, c.EndsBy n.span.stop :=
  (parse_laid source).imp fun _ h => h.within

/-- The way to an offset at which nothing is missing leads through every node around the offset, unless
a conditional statement that waits for a branch lies on the way. -/
theorem prefix_ofOffset (source : String) {path : Path} {m : Node} {offset : Nat}
    (hm : (parse source).tree.descendant? path = some m) (hsettled : (parse source).tree.Settled path)
    (hoffset : m.span.strictlyContains offset = true)
    (hmissing : (parse source).tree.hasMissingAt offset = false) :
    path <+: (TreePath.ofOffset (parse source).tree offset).indices := by
  have hlaid := parse_laid source
  generalize (parse source).tree = tree at *
  exact Node.prefix_stepsTo hlaid hm hsettled hoffset hmissing

/-- The inner statement waits for a branch in front of the brace. The loop ends before it does, and so the
way to an offset between the two ends does not lead there. -/
example :
    let tree := (parse "class A { void m() { while (a) if (b)   } }").tree
    (tree.descendant? [0, 1, 2, 0]).map (·.span) = some ⟨21, 37⟩
      ∧ (tree.descendant? [0, 1, 2, 0, 1]).map (·.span) = some ⟨31, 40⟩
      ∧ (TreePath.ofOffset tree 39).indices = [0, 1, 2] := by
  decide +kernel

end Shorthand
