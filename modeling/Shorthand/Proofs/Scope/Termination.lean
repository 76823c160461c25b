import Mathlib.Logic.Relation
import Shorthand.Proofs.Scope.Declared

/-!
Looking for the elements at an offset comes to an end.

The type of a variable that is declared without one is that of its initial value or of what a loop runs
over, looked at from where this stands. A simple name in it is looked for among the elements there, and so
finding the elements at an offset can ask for those at another one. `Computation.Starts` says which
computations start which; the type of an expression is read off what it denotes, so that to ask for one is
to ask for the other. `Index.elementsFrom` finds elements from others without a look at where these stand.

* `ExprScope.denote_congr` and `Index.elementsFrom_congr`: a computation depends on those that it starts and
  on no others.
* `Node.Asks.start_lt_stop`: what asks for a name covers some text.
* `Index.Consults.start_lt`: what is looked at for the elements at an offset, and asks for a name, starts
  before the offset, since it lies in something that ends there at the latest. The variables of counting
  loops are visible in their own initial values, so their types have to be written down.
* `Index.terminates`: no computation goes on without end, and the elements at an offset are the only ones
  that follow from each other when no bound is looked at.
-/

namespace Shorthand

namespace Kind

/-- The roles of the parts of which it is asked what they denote, to tell what the whole denotes. -/
def askedRoles : Kind → List Role
  | qualifiedName | thisExpression => [.qualifier]
  | fieldAccess | methodInvocation | arrayAccess => [.receiver]
  | parenthesizedExpression => [.expression]
  | assignment => [.left]
  | conditionalExpression => [.thenBranch, .elseBranch]
  | infixExpression => [.left, .right]
  | prefixExpression | postfixExpression => [.operand]
  | _ => []

end Kind

/-! ### Computations -/

/-- The expression depends on the elements in scope: it is a simple name, or a part does that is asked
for. -/
inductive Node.Asks : Node → Prop
  | name {n : Node} (kind : n.kind = .simpleName) : n.Asks
  | part {n c : Node} {role : Role} (asked : role ∈ n.kind.askedRoles) (found : n.child? role = some c)
      (inner : c.Asks) : n.Asks

/-- The type of an expression is looked at to find the elements at an offset. -/
inductive Index.Consults (ix : Index) (offset : Nat) : Node → Prop
  /-- The initial value of a variable whose type is to be inferred. -/
  | initializer {n d fragment e : Node} {through : Option Nat} {kind : ElementKind}
      (way : (n, through) ∈ ix.waysOut offset) (shows : n.Shows offset through kind d)
      (inferred : (d.child? .type).any isInferred = true) (mem : fragment ∈ d.childrenWith .fragment)
      (found : fragment.child? .initializer = some e) : Consults ix offset e
  /-- What a loop over elements runs over. -/
  | iterable {n param e : Node} {through : Option Nat} (way : (n, through) ∈ ix.waysOut offset)
      (shows : n.ShowsLoop through param) (inferred : (param.child? .type).any isInferred = true)
      (found : n.child? .expression = some e) : Consults ix offset e

/-- Something to compute. -/
inductive Computation where
  /-- The elements at an offset. -/
  | elements (offset : Nat)
  /-- What an expression denotes that is looked at from an offset. -/
  | expression (n : Node) (offset : Nat)

/-- To compute the first, the second is computed. -/
inductive Computation.Starts (ix : Index) : Computation → Computation → Prop
  | name {n : Node} {offset : Nat} (kind : n.kind = .simpleName) :
      Starts ix (.expression n offset) (.elements offset)
  | part {n c : Node} {offset : Nat} {role : Role} (asked : role ∈ n.kind.askedRoles)
      (found : n.child? role = some c) : Starts ix (.expression n offset) (.expression c offset)
  | consulted {e : Node} {offset : Nat} (consults : ix.Consults offset e) :
      Starts ix (.elements offset) (.expression e e.span.start)

/-- The counting loop does not leave the type of its variables to be inferred. -/
def Node.CountsTyped (n : Node) : Prop := n.kind = .forStatement →
  ∀ d ∈ n.childrenWith .init, d.kind = .variableDeclarationExpression →
    (d.child? .type).any isInferred = false

instance (n : Node) : Decidable n.CountsTyped :=
  inferInstanceAs (Decidable (n.kind = .forStatement → ∀ d ∈ n.childrenWith .init,
    d.kind = .variableDeclarationExpression → (d.child? .type).any isInferred = false))

/-- The elements that can be named at an offset, from those at any other offset. -/
def Index.elementsFrom (ix : Index) (offset : Nat) (scope : Nat → List Element) : List Element :=
  let exprTy := fun (n : Node) =>
    ExprScope.tyOf ⟨ix, n.span.start, Thunk.mk fun _ => scope n.span.start⟩ n
  let sc : ElementScope := ⟨.ofOffset ix offset, exprTy⟩
  Element.visible (((ix.waysOut offset).flatMap fun (n, through) => sc.introduced n through)
    ++ ix.enclosingFields offset)

/-! ### What computations depend on -/

namespace ExprScope

variable {ix : Index} {offset : Nat} {elements elements' : Thunk (List Element)} {n : Node}

lemma denoteIn_eq (sc : ExprScope) (role : Role) (ns : List Node) :
    sc.denoteIn role ns = (ns.find? (·.role == role)).map sc.denote := by
  induction ns with
  | nil => rfl
  | cons c cs ih =>
    rw [denoteIn]
    split
    · next hrole => rw [List.find?_cons_of_pos (by simpa using hrole), Option.map_some]
    · next hrole => rw [List.find?_cons_of_neg (by simpa using hrole), ih]

lemma tyIn_eq (sc : ExprScope) (role : Role) (ns : List Node) :
    sc.tyIn role ns = ((sc.denoteIn role ns).map (·.ty)).getD .unknown := by
  induction ns with
  | nil => rfl
  | cons c cs ih =>
    rw [denoteIn, tyIn]
    split
    · rfl
    · exact ih

/-- What an expression denotes depends on what those of its parts denote that are asked for, and on the
elements in scope only if it is a simple name. -/
theorem denote_congr (hname : n.kind = .simpleName → elements.get = elements'.get)
    (hparts : ∀ role ∈ n.kind.askedRoles, ∀ c, n.child? role = some c →
      denote ⟨ix, offset, elements⟩ c = denote ⟨ix, offset, elements'⟩ c) :
    denote ⟨ix, offset, elements⟩ n = denote ⟨ix, offset, elements'⟩ n := by
  have hin : ∀ role ∈ n.kind.askedRoles, denoteIn ⟨ix, offset, elements⟩ role n.children
      = denoteIn ⟨ix, offset, elements'⟩ role n.children := by
    intro role hrole
    rw [denoteIn_eq, denoteIn_eq]
    exact Option.map_congr fun c hc => hparts role hrole c hc
  have hty : ∀ role ∈ n.kind.askedRoles, tyIn ⟨ix, offset, elements⟩ role n.children
      = tyIn ⟨ix, offset, elements'⟩ role n.children := by
    intro role hrole
    rw [tyIn_eq, tyIn_eq, hin role hrole]
  obtain ⟨kind, role, span, text, children⟩ := n
  cases kind with
  | simpleName => rw [denote, denote, ofSimpleName, ofSimpleName, hname rfl]
  | qualifiedName | fieldAccess | thisExpression | methodInvocation =>
    rw [denote, denote, hin _ List.mem_cons_self]
    rfl
  | parenthesizedExpression | assignment | prefixExpression | postfixExpression | arrayAccess =>
    rw [denote, denote, hty _ List.mem_cons_self]
  | conditionalExpression =>
    rw [denote, denote, hty _ List.mem_cons_self, hin _ (List.mem_cons_of_mem _ List.mem_cons_self)]
  | infixExpression =>
    rw [denote, denote, hty _ List.mem_cons_self, hty _ (List.mem_cons_of_mem _ List.mem_cons_self)]
  | superFieldAccess | superMethodInvocation | classInstanceCreation | castExpression
  | arrayCreation | typeLiteral =>
    rw [denote, denote]
    rfl
  | _ => rfl

end ExprScope

namespace Node

lemma sizeOf_lt_of_mem_children {n c : Node} (h : c ∈ n.children) : sizeOf c < sizeOf n := by
  obtain ⟨kind, role, span, text, children⟩ := n
  have hlt : sizeOf c < sizeOf children := List.sizeOf_lt_of_mem h
  rw [Node.mk.sizeOf_spec]
  omega

/-- An expression that does not ask for names denotes the same whatever is in scope. -/
lemma denote_eq_of_asks {ix : Index} {offset : Nat} {elements elements' : Thunk (List Element)} (n : Node)
    (h : n.Asks → elements.get = elements'.get) :
    ExprScope.denote ⟨ix, offset, elements⟩ n = ExprScope.denote ⟨ix, offset, elements'⟩ n := by
  refine ExprScope.denote_congr (fun hkind => h (.name hkind)) fun role hrole c hc => ?_
  have hlt := sizeOf_lt_of_mem_children (mem_of_child? hc).1
  exact denote_eq_of_asks c fun hasks => h (.part hrole hc hasks)
termination_by sizeOf n

end Node

namespace Index

variable {ix : Index} {offset : Nat} {scope scope' : Nat → List Element}

/-- The elements at an offset depend on those at the places of expressions that are looked at for them and
ask for names. -/
theorem elementsFrom_congr
    (h : ∀ e, ix.Consults offset e → e.Asks → scope e.span.start = scope' e.span.start) :
    ix.elementsFrom offset scope = ix.elementsFrom offset scope' := by
  have hty : ∀ e, ix.Consults offset e →
      ExprScope.tyOf ⟨ix, e.span.start, Thunk.mk fun _ => scope e.span.start⟩ e
        = ExprScope.tyOf ⟨ix, e.span.start, Thunk.mk fun _ => scope' e.span.start⟩ e :=
    fun e he => congrArg Denotation.ty (Node.denote_eq_of_asks e (h e he))
  rw [elementsFrom, elementsFrom]
  refine congrArg (fun es => Element.visible (es ++ ix.enclosingFields offset))
    (List.flatMap_congr fun way hway => ?_)
  refine ElementScope.introduced_congr rfl (fun kind d hshows => ?_) fun param hshows => ?_
  · refine ElementScope.declared_congr rfl fun fragment hfragment e he hinferred => ?_
    exact hty e (.initializer hway hshows hinferred hfragment he)
  · refine ElementScope.loopVariable_congr rfl fun e he hinferred => ?_
    exact hty e (.iterable hway hshows hinferred he)

/-- The elements at an offset come from those at smaller offsets, which is how they are found. -/
lemma elementsAt_eq (ix : Index) (offset : Nat) : ix.elementsAt offset
    = ix.elementsFrom offset fun o => if _h : o < offset then ix.elementsAt o else [] := by
  rw [elementsAt, elementsGiven]
  rfl

end Index

/-! ### Where computations lead -/

namespace Node

variable {src : List Char} {n c : Node}

lemma Asks.kind_ne_ifStatement (h : n.Asks) : n.kind ≠ .ifStatement := by
  intro hkind
  cases h with
  | name hname => exact absurd (hname.symm.trans hkind) (by decide)
  | part asked =>
    rw [hkind] at asked
    cases asked

/-- A part that covers some text ends with the whole, unless it is a conditional statement. -/
lemma LaidOut.stop_le (h : n.LaidOut src) (hc : c ∈ n.children) (hcovers : c.span.start < c.span.stop)
    (hkind : c.kind ≠ .ifStatement) : n.span.start ≤ c.span.start ∧ c.span.stop ≤ n.span.stop := by
  obtain ⟨hi, hin⟩ := h.children
  refine ⟨hin.start_le hc, ?_⟩
  rcases h.within c hc with hstop | hempty | hwaits
  · exact hstop
  · omega
  · exact absurd hwaits.1 hkind

/-- What asks for a name covers some text. -/
theorem Asks.start_lt_stop (h : n.Asks) (hlaid : n.Laid src) (hshaped : n.Everywhere Shaped) :
    n.span.start < n.span.stop := by
  induction h with
  | name hkind => exact start_lt_stop_of_simpleName hshaped.own hlaid.own hkind
  | part _ found inner ih =>
    have hc := (mem_of_child? found).1
    have hcovers := ih (hlaid.inner _ hc) (hshaped.inner _ hc)
    have hwithin := hlaid.own.stop_le hc hcovers inner.kind_ne_ifStatement
    omega

/-- An initial value that asks for a name starts before the end of the declaration. -/
lemma Asks.start_lt_of_initializer {d fragment : Node} (h : c.Asks) (hlaid : d.Laid src)
    (hshaped : d.Everywhere Shaped) (hfragment : fragment ∈ d.childrenWith .fragment)
    (hc : fragment.child? .initializer = some c) : c.span.start < d.span.stop := by
  have hfragment := (mem_childrenWith.mp hfragment).1
  obtain ⟨hmem, hrole⟩ := mem_of_child? hc
  have hlaid' := hlaid.inner _ hfragment
  have hshaped' := hshaped.inner _ hfragment
  have hcovers := h.start_lt_stop (hlaid'.inner _ hmem) (hshaped'.inner _ hmem)
  have hinner := hlaid'.own.stop_le hmem hcovers h.kind_ne_ifStatement
  have houter := hlaid.own.stop_le hfragment (by omega)
    (hshaped'.own.kind_ne_ifStatement hmem hrole)
  omega

end Node

namespace Index

variable {ix : Index} {source : String} {offset : Nat} {e : Node}

/-- What is looked at for the elements at an offset starts before it, if it asks for a name. -/
theorem Consults.start_lt (h : ix.Consults offset e) (hasks : e.Asks)
    (htree : ix.tree = (parse source).tree)
    (htyped : (parse source).tree.Everywhere Node.CountsTyped) : e.span.start < offset := by
  have hlaid : ∀ n ∈ (TreePath.ofOffset ix.tree offset).nodes, n.Laid source.toList := by
    rw [htree]
    exact fun n hn => TreePath.everywhere_of_mem (parse_laid source) hn
  have hshaped : ∀ n ∈ (TreePath.ofOffset ix.tree offset).nodes, n.Everywhere Node.Shaped := by
    rw [htree]
    exact fun n hn => TreePath.everywhere_of_mem (parse_shaped source) hn
  cases h with
  | @initializer n d _ _ _ _ way shows inferred mem found =>
    have hn := mem_nodes_of_mem_waysOut way
    have hlt := hasks.start_lt_of_initializer ((hlaid n hn).inner _ shows.mem)
      ((hshaped n hn).inner _ shows.mem) mem found
    cases shows with
    | statement _ _ _ ended => omega
    | counter kind mem declares =>
      rw [htree] at hn
      have hwritten := (TreePath.everywhere_of_mem htyped hn).own kind d mem declares
      rw [inferred] at hwritten
      cases hwritten
    | resource _ _ _ _ ended => omega
  | @iterable n _ _ _ way shows _ found =>
    have hn := mem_nodes_of_mem_waysOut way
    obtain ⟨-, iterable, hiterable, hstop⟩ := shows.before (hlaid n hn) (hshaped n hn).own fun i hi =>
      covers_of_mem_waysOut (hi ▸ way)
    obtain rfl : iterable = e := Option.some.inj (hiterable.symm.trans found)
    have hmem := (Node.mem_of_child? found).1
    have hcovers := hasks.start_lt_stop ((hlaid n hn).inner _ hmem) ((hshaped n hn).inner _ hmem)
    omega

end Index

/-! ### The end of computations -/

namespace Node.Asks

/-- What asks for a name leads to the elements at the offset from which it is looked at. -/
lemma starts {ix : Index} {n : Node} (h : n.Asks) (offset : Nat) :
    Relation.TransGen (Computation.Starts ix) (.expression n offset) (.elements offset) := by
  induction h with
  | name kind => exact .single (.name kind)
  | part asked found _ ih => exact .head (.part asked found) ih

end Node.Asks

namespace Index

/-- What is looked at for the elements at an offset lies before it. -/
def LooksBack (ix : Index) : Prop :=
  ∀ offset e, ix.Consults offset e → e.Asks → e.span.start < offset

end Index

namespace Computation

variable {ix : Index} {p q : Computation} {o o' : Nat} {n : Node}

/-- What is computed can lead to the elements at an offset: it is looked at from there or from behind, and
if it is an expression it asks for a name. -/
def Within (o : Nat) : Computation → Prop
  | elements offset => o ≤ offset
  | expression n offset => n.Asks ∧ o ≤ offset

/-- What starts a computation that can lead to the elements at an offset can do so itself. -/
lemma Starts.within (hback : ix.LooksBack) (h : Starts ix p q) (hq : q.Within o) : p.Within o := by
  cases h with
  | name kind => exact ⟨.name kind, hq⟩
  | part asked found => exact ⟨.part asked found hq.1, hq.2⟩
  | consulted consults => exact Nat.le_of_lt (Nat.lt_of_le_of_lt hq.2 (hback _ _ consults hq.1))

lemma within_of_reflTransGen (hback : ix.LooksBack)
    (h : Relation.ReflTransGen (Starts ix) p (.elements o)) : p.Within o := by
  induction h using Relation.ReflTransGen.head_induction_on with
  | refl => exact Nat.le_refl o
  | head hstart _ ih => exact hstart.within hback ih

/-- While the elements at an offset are looked for, none are at the same or at a greater offset. -/
theorem lt_of_transGen (hback : ix.LooksBack)
    (h : Relation.TransGen (Starts ix) (.elements o) (.elements o')) : o' < o := by
  obtain ⟨q, hstart, hrest⟩ := Relation.TransGen.head'_iff.mp h
  have hq := within_of_reflTransGen hback hrest
  cases hstart with
  | consulted consults => exact Nat.lt_of_le_of_lt hq.2 (hback _ _ consults hq.1)

/-- To tell what an expression denotes comes to an end if looking for the elements does, where they are
asked for. -/
lemma acc_expression (n : Node) (h : n.Asks → Acc (fun q p => Starts ix p q) (.elements o)) :
    Acc (fun q p => Starts ix p q) (.expression n o) := by
  refine .intro _ fun q hstart => ?_
  cases hstart with
  | name kind => exact h (.name kind)
  | @part _ c _ _ asked found =>
    have hlt := Node.sizeOf_lt_of_mem_children (Node.mem_of_child? found).1
    exact acc_expression c fun hasks => h (.part asked found hasks)
termination_by sizeOf n

lemma acc_elements (hback : ix.LooksBack) (o : Nat) :
    Acc (fun q p => Starts ix p q) (.elements o) := by
  induction o using Nat.strong_induction_on with
  | _ o ih =>
    refine .intro _ fun q hstart => ?_
    cases hstart with
    | consulted consults => exact acc_expression _ fun hasks => ih _ (hback _ _ consults hasks)

theorem wellFounded_starts (hback : ix.LooksBack) : WellFounded fun q p => Starts ix p q := by
  refine ⟨fun q => ?_⟩
  cases q with
  | elements o => exact acc_elements hback o
  | expression n o => exact acc_expression n fun _ => acc_elements hback o

end Computation

namespace Index

variable {ix : Index}

/-- That the elements at an offset come from those at smaller ones is no restriction. -/
lemma elementsAt_eq_elementsFrom (hback : ix.LooksBack) (offset : Nat) :
    ix.elementsAt offset = ix.elementsFrom offset ix.elementsAt := by
  rw [elementsAt_eq]
  exact elementsFrom_congr fun e he hasks => dif_pos (hback offset e he hasks)

/-- There is one way to assign elements to offsets such that each follow from the others. -/
lemma eq_elementsAt (hback : ix.LooksBack) {scope : Nat → List Element}
    (h : ∀ o, scope o = ix.elementsFrom o scope) : scope = ix.elementsAt := by
  funext offset
  induction offset using Nat.strong_induction_on with
  | _ offset ih =>
    rw [h, elementsAt_eq_elementsFrom hback]
    exact elementsFrom_congr fun e he hasks => ih _ (hback offset e he hasks)

/-- Finding the elements in scope and the types of expressions comes to an end. -/
structure Terminates (ix : Index) : Prop where
  /-- No computation starts others without end. -/
  wellFounded : WellFounded fun q p => Computation.Starts ix p q
  /-- While the elements at an offset are looked for, all others are looked for at smaller offsets. -/
  elements : ∀ o o', Relation.TransGen (Computation.Starts ix) (.elements o) (.elements o') → o' < o
  /-- To tell what an expression denotes, it is asked what parts of it denote, at the same offset. -/
  expression : ∀ n o m o', Computation.Starts ix (.expression n o) (.expression m o') →
    m ∈ n.children ∧ o' = o
  /-- What an expression denotes depends on what is started for it, -/
  ofStarted : ∀ n o elements elements',
    (Computation.Starts ix (.expression n o) (.elements o) → elements.get = elements'.get) →
    (∀ m, Computation.Starts ix (.expression n o) (.expression m o) →
      ExprScope.denote ⟨ix, o, elements⟩ m = ExprScope.denote ⟨ix, o, elements'⟩ m) →
    ExprScope.denote ⟨ix, o, elements⟩ n = ExprScope.denote ⟨ix, o, elements'⟩ n
  /-- and so do the elements at an offset. -/
  fromStarted : ∀ o scope scope',
    (∀ o', Relation.TransGen (Computation.Starts ix) (.elements o) (.elements o') →
      scope o' = scope' o') →
    ix.elementsFrom o scope = ix.elementsFrom o scope'
  /-- The elements that are found satisfy the equations without a bound, and nothing else does. -/
  solution : ∀ scope, (∀ o, scope o = ix.elementsFrom o scope) ↔ scope = ix.elementsAt

lemma tree_resolve (tree : Node) (library : List TypeInfo) :
    (Index.ofTree tree library).resolve.tree = tree := rfl

/-- In a text whose counting loops do not leave types to be inferred, finding the elements in scope and the
types of expressions comes to an end. -/
theorem terminates {source : String} (htree : ix.tree = (parse source).tree)
    (htyped : (parse source).tree.Everywhere Node.CountsTyped) : ix.Terminates := by
  have hback : ix.LooksBack := fun _ _ he hasks => he.start_lt hasks htree htyped
  refine ⟨Computation.wellFounded_starts hback, fun _ _ => Computation.lt_of_transGen hback, ?_, ?_,
    ?_, ?_⟩
  · intro n o m o' hstart
    cases hstart with
    | part asked found => exact ⟨(Node.mem_of_child? found).1, rfl⟩
  · intro n o elements elements' hname hparts
    exact ExprScope.denote_congr (fun hkind => hname (.name hkind))
      fun role hrole c hc => hparts c (.part hrole hc)
  · intro o scope scope' h
    refine elementsFrom_congr fun e he hasks => h _ ?_
    exact .head (.consulted he) (hasks.starts _)
  · intro scope
    refine ⟨eq_elementsAt hback, ?_⟩
    rintro rfl
    exact elementsAt_eq_elementsFrom hback

/-- Types are inferred from a parameter, from a local variable and from the variable of a loop, and the
counter of the other loop has its type written down. -/
theorem terminates_inferred :
    let text := "class A { void m(int[] p) { var a = p; for (var x : a) { } for (int i = 0; ; ) { var c = i; } } }"
    let ix := (Index.ofTree (parse text).tree []).resolve
    (parse text).tree.Everywhere Node.CountsTyped ∧ ix.Terminates := by
  intro text ix
  have htyped : (parse text).tree.Everywhere Node.CountsTyped :=
    Node.everywhere_of_descendants _ (by decide +kernel)
  exact ⟨htyped, terminates (tree_resolve _ _) htyped⟩

/-- If the type of a counter is left to be inferred, the elements in its initial value are looked for
while they are looked for. -/
theorem starts_itself_counter :
    let ix := Index.ofTree (parse "class A { void m() { for (var i = i; ; ) { } } }").tree []
    Relation.TransGen (Computation.Starts ix) (.elements 34) (.elements 34) := by
  intro ix
  have hevaluated : ((ix.waysOut 34).any fun (n, _) => n.kind == .forStatement
      && (n.childrenWith .init).any fun d => d.kind == .variableDeclarationExpression
        && (d.child? .type).any isInferred
        && (d.childrenWith .fragment).any fun fragment => (fragment.child? .initializer).any fun e =>
          e.kind == .simpleName && e.span.start == 34) = true := by decide +kernel
  obtain ⟨⟨n, through⟩, hway, hn⟩ := List.any_eq_true.mp hevaluated
  rw [Bool.and_eq_true, beq_iff_eq] at hn
  obtain ⟨d, hd, hn'⟩ := List.any_eq_true.mp hn.2
  rw [Bool.and_eq_true, Bool.and_eq_true, beq_iff_eq] at hn'
  obtain ⟨fragment, hfragment, hinit⟩ := List.any_eq_true.mp hn'.2
  obtain ⟨e, he, hvalue⟩ := (Option.any_eq_true _ _).mp hinit
  have hconsults : ix.Consults 34 e :=
    .initializer hway (.counter hn.1 hd hn'.1.1) hn'.1.2 hfragment he
  rw [Bool.and_eq_true, beq_iff_eq, beq_iff_eq] at hvalue
  have hfirst := Computation.Starts.consulted hconsults
  rw [hvalue.2] at hfirst
  exact .head hfirst (.single (.name hvalue.1))

end Index

end Shorthand
