import Mathlib.Data.List.Basic
import Mathlib.Data.List.Induction
import Shorthand.Model.Scope
import Shorthand.Proofs.Building.Shapes
import Shorthand.Proofs.Reading.Owner

/-!
Which declarations make variables visible at an offset.

`Node.Shows` says that a construct around an offset shows the variables of a declaration there. A
declaration among statements or resources has ended by then; the one in the header of a counting loop
need not have. The variable of a loop over elements is visible in the body alone, and so behind what it
runs over.

* `Index.covers_of_mem_waysOut`: the way out goes through children that cover the offset.
* `ElementScope.mem_introduced` and `ElementScope.introduced_congr`: what a construct adds comes from what
  it shows, and depends on nothing else.
* `Index.declared_before`: apart from the header of a counting loop, every local variable and resource in
  scope was declared by something that ends at or before the offset.
-/

namespace Shorthand

/-! ### The way out -/

namespace Index

variable {ix : Index} {offset i : Nat} {n : Node} {through : Option Nat}

lemma mem_nodes_of_mem_waysOut (h : (n, through) ∈ ix.waysOut offset) :
    n ∈ (TreePath.ofOffset ix.tree offset).nodes :=
  (List.of_mem_zip (List.mem_reverse.mp h)).1

/-- The way to an offset goes on through a child that covers the offset. -/
lemma covers_of_mem_waysOut (h : (n, some i) ∈ ix.waysOut offset) :
    ∃ c, n.children[i]? = some c ∧ c.covers offset = true := by
  have hsteps : ∀ (steps : List (Nat × Node)) (root : Node), root.stepsTo offset = steps →
      (n, some i) ∈ (root :: steps.map (·.2)).zip ((steps.map (·.1)).map some ++ [none]) →
      ∃ c, n.children[i]? = some c ∧ c.covers offset = true := by
    intro steps
    induction steps with
    | nil => simp
    | cons s steps ih =>
      intro root hroot hmem
      obtain ⟨hchild, hcovers, hrest⟩ := Node.stepsTo_eq_cons hroot
      rcases List.mem_cons.mp hmem with heq | hmem
      · obtain ⟨rfl, hi⟩ := Prod.mk.inj heq
        obtain rfl := Option.some.inj hi
        exact ⟨s.2, hchild, hcovers⟩
      · exact ih s.2 hrest.symm hmem
  exact hsteps _ ix.tree rfl (List.mem_reverse.mp h)

end Index

/-! ### What a construct shows -/

namespace Node

/-- The role of the child at an index, if there is one. -/
def roleAt? (n : Node) (through : Option Nat) : Option Role :=
  (through.bind (n.children[·]?)).map (·.role)

/-- A construct shows the variables of a declaration at an offset to which the way goes on through the
child at an index: with the kind that they have as elements. -/
inductive Shows (offset : Nat) (n : Node) (through : Option Nat) : ElementKind → Node → Prop
  /-- A statement before the way, which has ended. -/
  | statement {d : Node} (kind : n.kind = .block ∨ n.kind = .switchStatement)
      (before : d ∈ n.children.take (through.getD n.children.length))
      (declares : d.kind = .variableDeclarationStatement) (ended : d.span.stop ≤ offset) :
      Shows offset n through .localVariable d
  /-- The first part of the header of a counting loop, wherever the offset is. -/
  | counter {d : Node} (kind : n.kind = .forStatement) (mem : d ∈ n.childrenWith .init)
      (declares : d.kind = .variableDeclarationExpression) : Shows offset n through .localVariable d
  /-- A resource that has ended, in the body and in other resources. -/
  | resource {d : Node} (kind : n.kind = .tryStatement)
      (way : n.roleAt? through = some .body ∨ n.roleAt? through = some .resource)
      (mem : d ∈ n.childrenWith .resource) (declares : d.kind = .variableDeclarationExpression)
      (ended : d.span.stop ≤ offset) : Shows offset n through .resourceVariable d

lemma exists_of_roleAt? {n : Node} {through : Option Nat} {role : Role}
    (h : n.roleAt? through = some role) :
    ∃ i c, through = some i ∧ n.children[i]? = some c ∧ c.role = role := by
  obtain ⟨c, hc, hrole⟩ := Option.map_eq_some_iff.mp h
  obtain ⟨i, hi, hc⟩ := Option.bind_eq_some_iff.mp hc
  exact ⟨i, c, hi, hc, hrole⟩

/-- A loop over elements shows its variable on the way to its body. -/
structure ShowsLoop (n : Node) (through : Option Nat) (param : Node) : Prop where
  kind : n.kind = .enhancedForStatement
  way : n.roleAt? through = some .body
  param : n.child? .parameter = some param

lemma mem_of_child? {n c : Node} {role : Role} (h : n.child? role = some c) :
    c ∈ n.children ∧ c.role = role :=
  ⟨List.mem_of_find?_eq_some h, by simpa using List.find?_some h⟩

lemma mem_childrenWith {n c : Node} {role : Role} :
    c ∈ n.childrenWith role ↔ c ∈ n.children ∧ c.role = role := by
  rw [childrenWith, List.mem_filter, beq_iff_eq]

lemma Shows.mem {offset : Nat} {n d : Node} {through : Option Nat} {kind : ElementKind}
    (h : n.Shows offset through kind d) : d ∈ n.children := by
  cases h with
  | statement _ before => exact List.mem_of_mem_take before
  | counter _ mem => exact (mem_childrenWith.mp mem).1
  | resource _ _ mem => exact (mem_childrenWith.mp mem).1

end Node

namespace ElementScope

variable {sc sc' : ElementScope} {n d : Node} {through : Option Nat} {e : Element} {offset : Nat}

lemma mem_filter_declaredBy {kind : Kind} {ds : List Node} :
    d ∈ ds.filter (declaredBy kind offset) ↔ d ∈ ds ∧ d.kind = kind ∧ d.span.stop ≤ offset := by
  rw [List.mem_filter, declaredBy, Bool.and_eq_true, beq_iff_eq, decide_eq_true_eq]

lemma shows_statement (hn : n.kind = .block ∨ n.kind = .switchStatement)
    (hd : d ∈ (n.children.take (through.getD n.children.length)).filter
      (declaredBy .variableDeclarationStatement offset)) : n.Shows offset through .localVariable d :=
  have ⟨hbefore, hdeclares, hended⟩ := mem_filter_declaredBy.mp hd
  .statement hn hbefore hdeclares hended

lemma shows_counter (hn : n.kind = .forStatement)
    (hd : d ∈ (n.childrenWith .init).filter (·.kind == .variableDeclarationExpression)) :
    n.Shows offset through .localVariable d :=
  have ⟨hmem, hdeclares⟩ := List.mem_filter.mp hd
  .counter hn hmem (beq_iff_eq.mp hdeclares)

lemma shows_resource (hn : n.kind = .tryStatement)
    (hway : (decide (n.roleAt? through = some .body)
      || decide (n.roleAt? through = some .resource)) = true)
    (hd : d ∈ (n.childrenWith .resource).filter (declaredBy .variableDeclarationExpression offset)) :
    n.Shows offset through .resourceVariable d := by
  obtain ⟨hmem, hdeclares, hended⟩ := mem_filter_declaredBy.mp hd
  rw [Bool.or_eq_true, decide_eq_true_eq, decide_eq_true_eq] at hway
  exact .resource hn hway hmem hdeclares hended

lemma kind_of_mem_parameter {kind : ElementKind} {param : Node}
    (h : sc.parameter kind param = some e) : e.kind = kind := by
  rw [parameter] at h
  dsimp only at h
  split at h
  · split at h
    · cases h
    · obtain rfl := Option.some.inj h
      rfl
  · obtain rfl := Option.some.inj h
    rfl
  · cases h

/-- The variables of local declarations and resources that a construct adds are those it shows. -/
lemma mem_introduced (he : e ∈ sc.introduced n through)
    (hkind : e.kind = .localVariable ∨ e.kind = .resourceVariable) :
    (∃ kind d, n.Shows sc.types.offset through kind d ∧ e ∈ sc.declared kind d)
      ∨ ∃ param, n.ShowsLoop through param ∧ sc.loopVariable n param = some e := by
  have hother : ∀ kind param, sc.parameter kind param = some e →
      kind = .localVariable ∨ kind = .resourceVariable := by
    intro kind param hparam
    rwa [kind_of_mem_parameter hparam] at hkind
  rw [introduced] at he
  dsimp only at he
  split at he
  · next hn =>
    obtain ⟨d, hd, he⟩ := List.mem_flatMap.mp (List.mem_reverse.mp he)
    exact .inl ⟨_, d, shows_statement (.inl hn) hd, he⟩
  · next hn =>
    obtain ⟨d, hd, he⟩ := List.mem_flatMap.mp (List.mem_reverse.mp he)
    exact .inl ⟨_, d, shows_statement (.inr hn) hd, he⟩
  · next hn =>
    obtain ⟨d, hd, he⟩ := List.mem_flatMap.mp he
    exact .inl ⟨_, d, shows_counter hn hd, he⟩
  · next hn =>
    split at he
    · next hway =>
      obtain ⟨param, hparam, hloop⟩ := Option.bind_eq_some_iff.mp (Option.mem_toList.mp he)
      exact .inr ⟨param, ⟨hn, hway, hparam⟩, hloop⟩
    · cases he
  · obtain ⟨param, -, hparam⟩ := Option.bind_eq_some_iff.mp (Option.mem_toList.mp he)
    exact absurd (hother _ _ hparam) (by decide)
  · next hn =>
    split at he
    · next hway =>
      obtain ⟨d, hd, he⟩ := List.mem_flatMap.mp he
      exact .inl ⟨_, d, shows_resource hn hway hd, he⟩
    · cases he
  · obtain ⟨param, -, hparam⟩ := List.mem_filterMap.mp he
    exact absurd (hother _ _ hparam) (by decide)
  · obtain ⟨param, -, hparam⟩ := List.mem_filterMap.mp he
    exact absurd (hother _ _ hparam) (by decide)
  · cases he

lemma parameter_congr (htypes : sc.types = sc'.types) : sc.parameter = sc'.parameter := by
  funext kind param
  rw [parameter, parameter, htypes]

/-- The variables of a declaration depend on the types of their initial values where these count. -/
lemma declared_congr {kind : ElementKind} (htypes : sc.types = sc'.types)
    (hexpr : ∀ fragment ∈ d.childrenWith .fragment, ∀ e, fragment.child? .initializer = some e →
      (d.child? .type).any isInferred = true → sc.exprTy e = sc'.exprTy e) :
    sc.declared kind d = sc'.declared kind d := by
  refine List.filterMap_congr fun fragment hfragment => ?_
  rw [variableTy, variableTy, htypes]
  split
  · next hinferred =>
    rw [Option.map_congr fun e he => hexpr fragment hfragment e he hinferred]
  · rfl

lemma loopVariable_congr {param : Node} (htypes : sc.types = sc'.types)
    (hexpr : ∀ e, n.child? .expression = some e → (param.child? .type).any isInferred = true →
      sc.exprTy e = sc'.exprTy e) : sc.loopVariable n param = sc'.loopVariable n param := by
  rw [loopVariable, loopVariable, parameter_congr htypes, htypes]
  split
  · next hinferred =>
    rw [Option.map_congr fun e he => congrArg sc'.types.index.elementTy (hexpr e he hinferred)]
  · rfl

/-- What a construct adds depends on what it shows alone. -/
lemma introduced_congr (htypes : sc.types = sc'.types)
    (hshows : ∀ kind d, n.Shows sc.types.offset through kind d →
      sc.declared kind d = sc'.declared kind d)
    (hloop : ∀ param, n.ShowsLoop through param → sc.loopVariable n param = sc'.loopVariable n param) :
    sc.introduced n through = sc'.introduced n through := by
  rw [introduced, introduced, ← htypes, parameter_congr htypes]
  dsimp only
  split
  · next hn =>
    exact congrArg List.reverse
      (List.flatMap_congr fun d hd => hshows _ d (shows_statement (.inl hn) hd))
  · next hn =>
    exact congrArg List.reverse
      (List.flatMap_congr fun d hd => hshows _ d (shows_statement (.inr hn) hd))
  · next hn => exact List.flatMap_congr fun d hd => hshows _ d (shows_counter hn hd)
  · next hn =>
    split
    · next hway =>
      refine congrArg Option.toList (Option.bind_congr fun param hparam => ?_)
      exact hloop param ⟨hn, hway, hparam⟩
    · rfl
  · rfl
  · next hn =>
    split
    · next hway => exact List.flatMap_congr fun d hd => hshows _ d (shows_resource hn hway hd)
    · rfl
  · rfl
  · rfl
  · rfl

/-! ### Names -/

lemma exists_fragment_of_mem_declared {kind : ElementKind} (he : e ∈ sc.declared kind d) :
    ∃ fragment ∈ d.childrenWith .fragment, fragment.name? = some e.name := by
  obtain ⟨fragment, hfragment, hvariable⟩ := List.mem_filterMap.mp he
  obtain ⟨name, hname, rfl⟩ := Option.map_eq_some_iff.mp hvariable
  exact ⟨fragment, hfragment, hname⟩

end ElementScope

namespace Node

/-- The name is that of a variable of a declaration, or of a parameter. -/
def Declares (d : Node) (name : String) : Prop :=
  (∃ fragment ∈ d.childrenWith .fragment, fragment.name? = some name)
    ∨ d.name? = some name ∨ d.kind = .simpleName ∧ d.spelling = name

end Node

lemma ElementScope.declares_of_loopVariable {sc : ElementScope} {n param : Node} {e : Element}
    (h : sc.loopVariable n param = some e) : param.Declares e.name := by
  obtain ⟨e', hparam, rfl⟩ := Option.map_eq_some_iff.mp h
  have hname : param.Declares e'.name := by
    rw [parameter] at hparam
    dsimp only at hparam
    split at hparam
    · split at hparam
      · cases hparam
      · next hne =>
        obtain rfl := Option.some.inj hparam
        refine .inr (.inl ?_)
        rw [TypeScope.parameter] at hne ⊢
        cases hname : param.name? with
        | none => simp [hname] at hne
        | some name => rfl
    · next hkind =>
      obtain rfl := Option.some.inj hparam
      exact .inr (.inr ⟨hkind, rfl⟩)
    · cases hparam
  split
  · exact hname
  · exact hname

/-! ### Before the offset -/

namespace Node

variable {src : List Char} {n param : Node} {offset i : Nat} {through : Option Nat}

/-- A node that covers an offset does not start behind it. -/
lemma Laid.start_le_of_covers (h : n.Laid src) (hcovers : n.covers offset = true) :
    n.span.start ≤ offset := by
  rw [covers, Bool.and_eq_true, Bool.or_eq_true, Span.strictlyContains, Bool.and_eq_true,
    decide_eq_true_eq] at hcovers
  rcases hcovers.2 with hinside | hlacks
  · exact Nat.le_of_lt hinside.1
  · exact h.start_le_of_hasMissingAt hlacks

/-- On the way to the body of a loop over elements, the variable and what it runs over lie before the
offset. -/
lemma ShowsLoop.before (h : n.ShowsLoop through param) (hlaid : n.Laid src) (hshaped : n.Shaped)
    (hway : ∀ i, through = some i → ∃ c, n.children[i]? = some c ∧ c.covers offset = true) :
    param.span.stop ≤ offset
      ∧ ∃ iterable, n.child? .expression = some iterable ∧ iterable.span.stop ≤ offset := by
  have hroles := hshaped.roles_enhancedFor h.kind
  obtain ⟨first, second, third, hchildren⟩ :=
    List.length_eq_three.mp (show n.children.length = 3 by simpa using congrArg List.length hroles)
  rw [hchildren] at hroles
  obtain ⟨hfirst, hsecond, hthird⟩ : first.role = .parameter ∧ second.role = .expression
      ∧ third.role = .body := by simpa using hroles
  -- The way goes on through the last of the three.
  obtain ⟨i, c, hi, hc, hrole⟩ := exists_of_roleAt? h.way
  obtain ⟨c', hc', hcovers⟩ := hway i hi
  obtain rfl : c' = c := Option.some.inj (hc'.symm.trans hc)
  have hmem := List.mem_of_getElem? hc
  have hlast : c' = third := by
    rw [hchildren] at hmem
    simp only [List.mem_cons, List.not_mem_nil, or_false] at hmem
    rcases hmem with rfl | rfl | rfl
    · simp [hfirst] at hrole
    · simp [hsecond] at hrole
    · rfl
  have hbody := Laid.start_le_of_covers (hlaid.inner c' hmem) hcovers
  rw [hlast] at hbody
  have hparam : param = first := by
    have hfound := h.param
    rw [child?, hchildren, List.find?_cons_of_pos (by simp [hfirst])] at hfound
    exact (Option.some.inj hfound).symm
  obtain ⟨hi, hin⟩ := hlaid.own.children
  rw [hchildren] at hin
  obtain ⟨-, -, hafter, hle, hbehind, -⟩ := hin
  refine ⟨by rw [hparam]; omega, second, ?_, by omega⟩
  rw [child?, hchildren, List.find?_cons_of_neg (by simp [hfirst]),
    List.find?_cons_of_pos (by simp [hsecond])]

end Node

namespace Element

lemma mem_of_mem_visible {es : List Element} {e : Element} (h : e ∈ visible es) : e ∈ es := by
  induction es using List.reverseRecOn with
  | nil => exact h
  | append_singleton es d ih =>
    rw [visible, List.foldl_append, ← visible, List.foldl_cons, List.foldl_nil] at h
    split at h
    · rcases List.mem_append.mp h with h | h
      · exact List.mem_append_left _ (ih h)
      · exact List.mem_append_right _ h
    · exact List.mem_append_left _ (ih h)

lemma kind_ofField (f : FieldInfo) : (ofField f).kind = .enumConstant ∨ (ofField f).kind = .field := by
  rw [ofField]
  dsimp only
  split
  · exact .inl rfl
  · exact .inr rfl

end Element

namespace Index

variable {ix : Index} {source : String} {offset : Nat} {e : Element}

/-- Every local variable and resource in scope at an offset was declared by a part of a construct around
the offset that ends at or before it, but for the variables of counting loops. So it is not visible in
its initial value. -/
theorem declared_before (htree : ix.tree = (parse source).tree) (he : e ∈ ix.elementsInScope offset)
    (hkind : e.kind = .localVariable ∨ e.kind = .resourceVariable) :
    ∃ n through, (n, through) ∈ ix.waysOut offset ∧ ∃ d ∈ n.children, d.Declares e.name
      ∧ (d.span.stop ≤ offset ∨ n.kind = .forStatement ∧ d.role = .init) := by
  rw [elementsInScope] at he
  split at he
  case isFalse => cases he
  rw [elementsAt, elementsGiven] at he
  rcases List.mem_append.mp (Element.mem_of_mem_visible he) with he | he
  · obtain ⟨⟨n, through⟩, hway, he⟩ := List.mem_flatMap.mp he
    refine ⟨n, through, hway, ?_⟩
    have hnode := mem_nodes_of_mem_waysOut hway
    rcases ElementScope.mem_introduced he hkind with ⟨kind, d, hshows, hd⟩ | ⟨param, hloop, hparam⟩
    · refine ⟨d, hshows.mem, .inl (ElementScope.exists_fragment_of_mem_declared hd), ?_⟩
      cases hshows with
      | statement _ _ _ ended => exact .inl ended
      | counter kind mem => exact .inr ⟨kind, (Node.mem_childrenWith.mp mem).2⟩
      | resource _ _ _ _ ended => exact .inl ended
    · refine ⟨param, (Node.mem_of_child? hloop.param).1, ElementScope.declares_of_loopVariable hparam, ?_⟩
      rw [htree] at hnode
      refine .inl (hloop.before (TreePath.everywhere_of_mem (parse_laid source) hnode)
        (TreePath.everywhere_of_mem (parse_shaped source) hnode).own fun i hi => ?_).1
      subst hi
      exact covers_of_mem_waysOut hway
  · obtain ⟨t, -, hf⟩ := List.mem_flatMap.mp he
    obtain ⟨f, -, rfl⟩ := List.mem_map.mp hf
    rcases Element.kind_ofField f with hfield | hfield
    · rw [hfield] at hkind
      exact absurd hkind (by decide)
    · rw [hfield] at hkind
      exact absurd hkind (by decide)

end Index

end Shorthand
