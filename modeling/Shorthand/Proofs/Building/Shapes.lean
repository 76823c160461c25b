import Shorthand.Proofs.Building.Words

/-!
The shapes of nodes.

The parts of a conditional statement and of a loop over elements come in one order, and a simple name is a
word with at least one character.

* `Parser.Builds.everywhere` with `Parser.ByMaking.shaped`: what is built from tokens whose names are not
  empty has these shapes.
* `parse_shaped`: the trees of texts have.
* `Node.start_lt_stop_of_simpleName`: a simple name covers some text.
-/

namespace Shorthand

namespace Node

/-- The parts come in the order that the kind prescribes, and a simple name is not empty. -/
structure Shaped (n : Node) : Prop where
  arranged : n.kind.arrangements = [] ∨ n.children.map (·.role) ∈ n.kind.arrangements
  named : n.kind = .simpleName → n.text ≠ some ""

variable {n : Node} {src : List Char}

lemma Shaped.roles_enhancedFor (h : n.Shaped) (hkind : n.kind = .enhancedForStatement) :
    n.children.map (·.role) = [.parameter, .expression, .body] := by
  have hroles := h.arranged
  rw [hkind] at hroles
  exact List.mem_singleton.mp (hroles.resolve_left nofun)

/-- No part of a conditional statement is an initial value. -/
lemma Shaped.kind_ne_ifStatement (h : n.Shaped) {c : Node} (hc : c ∈ n.children)
    (hrole : c.role = .initializer) : n.kind ≠ .ifStatement := by
  intro hkind
  have hroles := h.arranged
  rw [hkind] at hroles
  have hmem : .initializer ∈ n.children.map (·.role) := hrole ▸ List.mem_map_of_mem hc
  have hnone : ∀ roles ∈ Kind.ifStatement.arrangements, Role.initializer ∉ roles := by decide
  exact hnone _ (hroles.resolve_left nofun) hmem

/-- A simple name covers some text. -/
lemma start_lt_stop_of_simpleName (h : n.Shaped) (hlaid : n.LaidOut src)
    (hkind : n.kind = .simpleName) : n.span.start < n.span.stop := by
  obtain ⟨text, htext, hslice⟩ := hlaid.spelled (by rw [hkind]; rfl)
  have hne : text.toList ≠ [] := by
    intro hnil
    rw [String.toList_eq_nil_iff] at hnil
    exact h.named hkind (hnil ▸ htext)
  obtain ⟨before, after, -, hbefore, hstop⟩ := Text.slice?_eq_some.mp hslice
  have hpos := Text.bytes_pos_of_ne_nil hne
  omega

end Node

lemma Parser.ByMaking.shaped : ByMaking (fun k => ∀ name, k = .ident name → name ≠ "") Node.Shaped where
  inRole _ _ h := ⟨h.arranged, h.named⟩
  leaf kind _ _ k hkind hname := by
    refine ⟨.inl (Kind.arrangements_of_isLeaf hkind), fun hsimple htext => ?_⟩
    obtain ⟨hname, hne⟩ := hname hsimple
    cases k with
    | ident name => exact hne name rfl (Option.some.inj htext)
    | keyword k =>
      obtain rfl : k = .newKw := by simpa [isNameToken] using hname
      exact absurd (Option.some.inj htext) (by decide)
    | _ => cases hname
  missing _ _ := ⟨.inl rfl, nofun⟩
  plain kind _ _ _ _ hkind := by
    refine ⟨.inl (Kind.arrangements_of_isPlain hkind), fun hsimple => ?_⟩
    obtain rfl : kind = .simpleName := hsimple
    cases hkind
  arranged _ _ _ _ hroles := ⟨.inr hroles, fun _ htext => by cases htext⟩
  qualifiedName _ _ _ _ _ _ := ⟨.inl rfl, nofun⟩

/-- The nodes in the tree of a text have their shapes. -/
theorem parse_shaped (source : String) : (parse source).tree.Everywhere Node.Shaped := by
  obtain ⟨c, hparse⟩ := parse_builds source
  refine hparse.builds.everywhere .shaped (fun t ht name hname => ?_) _ (List.mem_singleton_self _)
  have hmem : t ∈ (lex source).tokens := (List.mem_filter.mp ht).1
  obtain ⟨c, cs, hchars, -⟩ := (isIdentifier_of_mem_tokens hmem hname).start
  rintro rfl
  cases hchars

end Shorthand
