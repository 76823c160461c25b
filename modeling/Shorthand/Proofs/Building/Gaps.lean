import Shorthand.Proofs.Building.Parse
import Shorthand.Proofs.Tree.Paths

/-!
No part is missing without a complaint.

The parameter of a catch clause may have no type, and nothing is said about it (`Node.IsCatchType`).
Every other missing part of a tree is one about which something was complained, and the complaint is
among the diagnostics: complaints that were made while a rule was only tried go with what was read then.

* `Builds.whole`: where nothing is wrong, nothing is missing.
* `missing_accounted`: a tree with a missing part comes with a diagnostic of the parser.
* `parse_bare`: there is nothing below a missing part.
-/

namespace Shorthand

open Cursor

namespace Node

/-- No child is missing. -/
def Gapless (n : Node) : Prop := ∀ m ∈ n.children, m.kind ≠ .missing

/-- A declared parameter of which at most the type is missing. -/
structure UntypedParameter (n : Node) : Prop where
  kind : n.kind = .singleVariableDeclaration
  role : n.role = .parameter
  gaps : ∀ m ∈ n.children, m.kind = .missing → m.role = .type

/-- Each child has no missing child of its own, unless it is the parameter of a catch clause. -/
def Tidy (n : Node) : Prop :=
  ∀ m ∈ n.children, m.Gapless ∨ n.kind = .catchClause ∧ m.UntypedParameter

/-- Nothing is missing in a node but types of the parameters of catch clauses. -/
structure Whole (n : Node) : Prop where
  present : n.kind ≠ .missing
  gapless : n.Gapless
  below : n.Everywhere Tidy

/-- The path leads to the type of the parameter of a catch clause. -/
def IsCatchType (tree : Node) (path : Path) : Prop := ∃ before i j clause parameter type,
  path = before ++ [i, j]
    ∧ tree.descendant? before = some clause ∧ clause.kind = .catchClause
    ∧ clause.children[i]? = some parameter
    ∧ parameter.kind = .singleVariableDeclaration ∧ parameter.role = .parameter
    ∧ parameter.children[j]? = some type ∧ type.role = .type

variable {n m : Node} {ns : List Node}

namespace Whole

/-- A leaf is whole. -/
lemma leaf {kind : Kind} {role : Role} {span : Span} {text : Option String}
    (hkind : kind ≠ .missing) : Whole ⟨kind, role, span, text, []⟩ :=
  ⟨hkind, by simp [Gapless], .mk (by simp [Tidy]) (by simp)⟩

/-- A node made of whole nodes is whole. -/
lemma node {kind : Kind} {role : Role} {span : Span} {text : Option String} (hkind : kind ≠ .missing)
    (hns : ∀ n ∈ ns, n.Whole) : Whole ⟨kind, role, span, text, ns⟩ :=
  ⟨hkind, fun m hm => (hns m hm).present,
    .mk (fun m hm => .inl (hns m hm).gapless) fun m hm => (hns m hm).below⟩

lemma inRole (h : n.Whole) (role : Role) : (n.inRole role).Whole :=
  ⟨h.present, h.gapless, .mk h.below.own h.below.inner⟩

/-- A catch clause is whole although its parameter has no type. -/
lemma untypedCatch {role : Role} {offset : Nat} {span span' : Span} {text : Option String}
    {modifiers rest : List Node} {name : Node}
    (h : ∀ n ∈ modifiers ++ name :: rest, n.Whole) :
    Whole ⟨.catchClause, role, span, none,
      ⟨.singleVariableDeclaration, .parameter, span', text,
        modifiers ++ [.missing .type offset, name]⟩ :: rest⟩ := by
  obtain ⟨hmodifiers, hname, hrest⟩ : (∀ n ∈ modifiers, n.Whole) ∧ name.Whole ∧ ∀ n ∈ rest, n.Whole := by
    simpa only [List.forall_mem_append, List.forall_mem_cons] using h
  have hgap : (Node.missing .type offset).Everywhere Tidy :=
    .mk (by simp [Tidy, Node.missing]) (by simp [Node.missing])
  have hparts : ∀ m ∈ modifiers ++ [.missing .type offset, name],
      m.Gapless ∧ m.Everywhere Tidy ∧ (m.kind = .missing → m.role = .type) := by
    intro m hm
    rcases List.mem_append.mp hm with hm | hm
    · have hwhole := hmodifiers m hm
      exact ⟨hwhole.gapless, hwhole.below, fun hkind => absurd hkind hwhole.present⟩
    · rcases List.mem_cons.mp hm with rfl | hm
      · exact ⟨by simp [Gapless, Node.missing], hgap, fun _ => rfl⟩
      · obtain rfl := List.mem_singleton.mp hm
        exact ⟨hname.gapless, hname.below, fun hkind => absurd hkind hname.present⟩
  refine ⟨by simp, ?_, .mk ?_ ?_⟩
  · intro m hm
    rcases List.mem_cons.mp hm with rfl | hm
    · simp
    · exact (hrest m hm).present
  · intro m hm
    rcases List.mem_cons.mp hm with rfl | hm
    · exact .inr ⟨rfl, rfl, rfl, fun k hk => (hparts k hk).2.2⟩
    · exact .inl (hrest m hm).gapless
  · intro m hm
    rcases List.mem_cons.mp hm with rfl | hm
    · exact .mk (fun k hk => .inl (hparts k hk).1) fun k hk => (hparts k hk).2.1
    · exact (hrest m hm).below

end Whole

/-- A path that is longer by one step leads to a child of where it led before. -/
lemma descendant?_concat {path : Path} {i : Nat} :
    n.descendant? (path ++ [i]) = (n.descendant? path).bind (·.children[i]?) := by
  rw [descendant?_append]
  refine congrArg _ (funext fun m => ?_)
  rw [descendant?_cons]
  cases m.children[i]? <;> rfl

/-- What is missing in a whole tree is the type of the parameter of a catch clause. -/
theorem Whole.isCatchType {path : Path} (h : n.Whole) (hm : n.descendant? path = some m)
    (hmissing : m.kind = .missing) : n.IsCatchType path := by
  rcases List.eq_nil_or_concat path with rfl | ⟨up, j, rfl⟩
  · obtain rfl := Option.some.inj hm
    exact absurd hmissing h.present
  rw [List.concat_eq_append, descendant?_concat] at hm
  obtain ⟨parent, hparent, hj⟩ := Option.bind_eq_some_iff.mp hm
  have hmem : m ∈ parent.children := List.mem_of_getElem? hj
  rcases List.eq_nil_or_concat up with rfl | ⟨before, i, rfl⟩
  · obtain rfl := Option.some.inj hparent
    exact absurd hmissing (h.gapless m hmem)
  rw [List.concat_eq_append, descendant?_concat] at hparent
  obtain ⟨clause, hclause, hi⟩ := Option.bind_eq_some_iff.mp hparent
  have htidy := (h.below.descendant? hclause).own parent (List.mem_of_getElem? hi)
  rcases htidy with hgapless | ⟨hcatch, hparameter⟩
  · exact absurd hmissing (hgapless m hmem)
  · exact ⟨before, i, j, clause, parent, m, by simp, hclause, hcatch, hi, hparameter.kind,
      hparameter.role, hj, hparameter.gaps m hmem hmissing⟩

end Node

/-- Where nothing is wrong between two cursors, nothing is missing in what was built. -/
theorem Parser.Builds.whole {c c' : Cursor} {ns : List Node} (h : Parser.Builds c ns c')
    (hs : Silent c c') : ∀ n ∈ ns, n.Whole := by
  induction h with
  | refl => simp
  | advance => simp
  | complain => simp
  | stall => simp
  | undo => simp
  | append h h' ih ih' =>
    intro n hn
    rcases List.mem_append.mp hn with hn | hn
    · exact ih (h.later.silent_left h'.later hs) n hn
    · exact ih' (h.later.silent_right h'.later hs) n hn
  | sublist _ hms ih => exact fun n hn => ih hs n (hms.subset hn)
  | leaf hkind => exact List.forall_mem_singleton.mpr (.leaf (Kind.ne_missing_of_isLeaf hkind))
  | missing _ hwrong => exact absurd hs hwrong
  | node hkind _ ih =>
    exact List.forall_mem_singleton.mpr (.node (Kind.ne_missing_of_isPlain hkind) (ih hs))
  | arranged hroles _ ih =>
    have hkind := Kind.ne_missing_of_mem_arrangements hroles
    exact List.forall_mem_singleton.mpr (.node hkind (ih hs))
  | qualifiedName _ _ _ ih => exact List.forall_mem_singleton.mpr (.node (by decide) (ih hs))
  | inRole role _ ih =>
    exact List.forall_mem_singleton.mpr ((List.forall_mem_singleton.mp (ih hs)).inRole role)
  | untypedCatch _ ih => exact List.forall_mem_singleton.mpr (.untypedCatch (ih hs))

namespace ParseOutput

/-- Each missing part of a tree is the type of the parameter of a catch clause, or the parser has said
something about the text. -/
def Accounted (out : ParseOutput) : Prop := ∀ path n, out.tree.descendant? path = some n →
  n.isMissing = true → (∃ d ∈ out.diagnostics, d.stage = .parse) ∨ out.tree.IsCatchType path

lemma Built.accounted {source : String} {out : ParseOutput} {c' : Cursor} (h : out.Built source c')
    (hruns : c'.stalled = false) : out.Accounted := by
  intro path n hn hmissing
  have hkind : n.kind = .missing := by simpa [Node.isMissing] using hmissing
  obtain ⟨new, hnew, hstage⟩ := h.builds.later.problems
  cases new with
  | cons d new =>
    refine .inl ⟨d, ?_, hstage d List.mem_cons_self⟩
    rw [h.diagnostics, hnew]
    simp
  | nil =>
    have hsilent : Silent (Cursor.front source) c' := ⟨hnew, hruns⟩
    exact .inr ((h.builds.whole hsilent out.tree (List.mem_singleton_self _)).isCatchType hn hkind)

end ParseOutput

/-- Every missing part of the tree of a text comes with a diagnostic of the parser, but for the types of
the parameters of catch clauses. -/
theorem missing_accounted (source : String) :
    (parse source).Accounted ∧ (parseExpression source).Accounted := by
  constructor
  · obtain ⟨c', hbuilt⟩ := parse_builds source
    obtain ⟨package, imports, types, d, hread, hstalled⟩ := parse_read source
    refine hbuilt.accounted ?_
    rw [← hbuilt.stalled, hstalled, hread.placed.reads.stalled_eq]
    rfl
  · obtain ⟨c', hbuilt⟩ := parseExpression_builds source
    obtain ⟨d, hread, hstalled⟩ := ParseOutput.of_after
      (Parser.wholeExpression_placed (c := Cursor.front source) (Parser.rulesTo_good _)
        (Nat.lt_succ_self _))
    refine hbuilt.accounted ?_
    rw [← hbuilt.stalled]
    exact hstalled.trans hread.reads.stalled_eq

/-- The type of the parameter of a catch clause is missing, and nothing is said about it. -/
theorem missing_accounted_catch :
    (parse "class A { void m() { try { } catch (e) { } } }").diagnostics = []
      ∧ ((parse "class A { void m() { try { } catch (e) { } } }").tree.descendant?
          [0, 1, 2, 0, 1, 0, 0]).map (·.isMissing) = some true
      ∧ (parse "class A { void m() { try { } catch (e) { } } }").tree.IsCatchType
          [0, 1, 2, 0, 1, 0, 0] := by
  have hdiagnostics : (parse "class A { void m() { try { } catch (e) { } } }").diagnostics = [] := by
    decide +kernel
  have hmissing : ((parse "class A { void m() { try { } catch (e) { } } }").tree.descendant?
      [0, 1, 2, 0, 1, 0, 0]).map (·.isMissing) = some true := by
    decide +kernel
  refine ⟨hdiagnostics, hmissing, ?_⟩
  obtain ⟨n, hn, hn'⟩ := Option.map_eq_some_iff.mp hmissing
  rcases (missing_accounted _).1 _ n hn hn' with ⟨d, hd, -⟩ | hcatch
  · rw [hdiagnostics] at hd
    cases hd
  · exact hcatch

/-! ### Below a missing part -/

lemma Parser.ByMaking.bare : ByMaking (fun _ => True) Node.Bare where
  inRole _ _ h := h
  leaf _ _ _ _ _ _ _ := rfl
  missing _ _ _ := rfl
  plain _ _ _ _ _ hkind hmissing := absurd hmissing (Kind.ne_missing_of_isPlain hkind)
  arranged _ _ _ _ hroles hmissing :=
    absurd hmissing (Kind.ne_missing_of_mem_arrangements hroles)
  qualifiedName _ _ _ _ _ _ := nofun

/-- Nothing is built below a part that is missing. -/
theorem Parser.Builds.bare {c c' : Cursor} {ns : List Node} (h : Parser.Builds c ns c') :
    ∀ n ∈ ns, n.Everywhere Node.Bare :=
  h.everywhere .bare fun _ _ => trivial

lemma parse_bare (source : String) : (parse source).tree.Everywhere Node.Bare := by
  obtain ⟨c', hbuilt⟩ := parse_builds source
  exact hbuilt.builds.bare _ (List.mem_singleton_self _)

end Shorthand
