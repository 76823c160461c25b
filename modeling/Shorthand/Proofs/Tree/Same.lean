import Mathlib.Tactic.Common
import Shorthand.Tree.Node

/-!
Trees apart from the places where they stand.

Two nodes are the same (`Node.Same`) if taking all ranges out of them leaves one and the same tree. What
grammar and library ask of a node without its ranges they then answer alike.

* `Same.mk` makes a node of parts that are the same.
* `Same.containsMissing_eq` and `qualifiedName?_unplace` are such answers.
-/

namespace Shorthand

namespace Node

variable {n m : Node} {ns ms ns' ms' : List Node}

lemma unplaceAll_eq_map (ns : List Node) : unplaceAll ns = ns.map unplace := by
  induction ns with
  | nil => rfl
  | cons n ns ih => rw [unplaceAll, ih, List.map_cons]

lemma unplace_eq (n : Node) :
    n.unplace = ⟨n.kind, n.role, .detached, n.text, n.children.map unplace⟩ := by
  cases n
  rw [unplace, unplaceAll_eq_map]

/-- The nodes differ only in where they stand. -/
def Same (n m : Node) : Prop := n.unplace = m.unplace

/-- The nodes differ only in where they stand. -/
def SameAll (ns ms : List Node) : Prop := ns.map unplace = ms.map unplace

lemma same_iff : Same n m ↔
    n.kind = m.kind ∧ n.role = m.role ∧ n.text = m.text ∧ SameAll n.children m.children := by
  rw [Same, unplace_eq, unplace_eq, Node.mk.injEq]
  simp [SameAll]

namespace Same

lemma refl (n : Node) : Same n n := rfl

lemma kind_eq (h : Same n m) : n.kind = m.kind := (same_iff.mp h).1

lemma role_eq (h : Same n m) : n.role = m.role := (same_iff.mp h).2.1

lemma text_eq (h : Same n m) : n.text = m.text := (same_iff.mp h).2.2.1

lemma children (h : Same n m) : SameAll n.children m.children := (same_iff.mp h).2.2.2

/-- Nodes of one kind whose parts are the same are the same, wherever they stand. -/
lemma mk {kind : Kind} {role : Role} {span span' : Span} {text : Option String}
    (h : SameAll ns ms) : Same ⟨kind, role, span, text, ns⟩ ⟨kind, role, span', text, ms⟩ :=
  same_iff.mpr ⟨rfl, rfl, rfl, h⟩

lemma inRole (h : Same n m) (role : Role) : Same (n.inRole role) (m.inRole role) :=
  same_iff.mpr ⟨h.kind_eq, rfl, h.text_eq, h.children⟩

lemma withText (h : Same n m) (text : String) : Same (n.withText text) (m.withText text) :=
  same_iff.mpr ⟨h.kind_eq, h.role_eq, rfl, h.children⟩

lemma withRange (h : Same n m) (span span' : Span) :
    Same { n with span := span } { m with span := span' } :=
  same_iff.mpr ⟨h.kind_eq, h.role_eq, h.text_eq, h.children⟩

end Same

namespace SameAll

lemma refl (ns : List Node) : SameAll ns ns := rfl

lemma cons (h : Same n m) (hs : SameAll ns ms) : SameAll (n :: ns) (m :: ms) := by
  rw [SameAll, List.map_cons, List.map_cons, h, hs]

lemma one (h : Same n m) : SameAll [n] [m] := .cons h (.refl [])

lemma append (h : SameAll ns ms) (h' : SameAll ns' ms') : SameAll (ns ++ ns') (ms ++ ms') := by
  rw [SameAll, List.map_append, List.map_append, h, h']

lemma isEmpty_eq (h : SameAll ns ms) : ns.isEmpty = ms.isEmpty := by
  simpa using congrArg List.isEmpty h

/-- What keeps nodes the same one by one keeps them the same all together. -/
lemma map {f : Node → Node} (hf : ∀ n m, Same n m → Same (f n) (f m)) (h : SameAll ns ms) :
    SameAll (ns.map f) (ms.map f) := by
  induction ns generalizing ms with
  | nil =>
    cases ms with
    | nil => exact .refl []
    | cons m ms => cases h
  | cons n ns ih =>
    cases ms with
    | nil => cases h
    | cons m ms =>
      obtain ⟨hhead, htail⟩ := List.cons.inj h
      exact cons (hf n m hhead) (ih htail)

lemma take (h : SameAll ns ms) (k : Nat) : SameAll (ns.take k) (ms.take k) := by
  rw [SameAll, List.map_take, List.map_take, h]

end SameAll

/-! ### Missing parts -/

mutual

lemma containsMissing_unplace : (n : Node) → n.unplace.containsMissing = n.containsMissing
  | ⟨kind, role, span, text, children⟩ => by
    rw [unplace, containsMissing, containsMissing, anyMissing_unplaceAll children]

lemma anyMissing_unplaceAll : (ns : List Node) → anyMissing (unplaceAll ns) = anyMissing ns
  | [] => rfl
  | n :: ns => by
    rw [unplaceAll, anyMissing, anyMissing, containsMissing_unplace n, anyMissing_unplaceAll ns]

end

lemma Same.containsMissing_eq (h : Same n m) : n.containsMissing = m.containsMissing := by
  rw [← containsMissing_unplace n, h, containsMissing_unplace m]

/-! ### Parts and names -/

lemma child?_unplace (n : Node) (role : Role) :
    n.unplace.child? role = (n.child? role).map unplace := by
  rw [unplace_eq, child?, child?, List.find?_map]
  congr 1
  refine congrArg (List.find? · n.children) (funext fun m => ?_)
  rw [Function.comp_apply, unplace_eq]

lemma childrenWith_unplace (n : Node) (role : Role) :
    n.unplace.childrenWith role = (n.childrenWith role).map unplace := by
  rw [unplace_eq, childrenWith, childrenWith, List.filter_map]
  congr 1
  refine congrArg (List.filter · n.children) (funext fun m => ?_)
  rw [Function.comp_apply, unplace_eq]

lemma hasModifier_unplace (n : Node) (keyword : String) :
    n.unplace.hasModifier keyword = n.hasModifier keyword := by
  rw [hasModifier, hasModifier, childrenWith_unplace, List.any_map]
  refine congrArg (List.any _) (funext fun m => ?_)
  rw [Function.comp_apply, unplace_eq, spelling, spelling]

mutual

lemma qualifiedName?_unplace : (n : Node) → n.unplace.qualifiedName? = n.qualifiedName?
  | ⟨kind, role, span, text, children⟩ => by
    have hqualifier := qualifierIn?_unplaceAll children
    have hname : (unplaceAll children).find? (·.role == .name)
        = (children.find? (·.role == .name)).map unplace :=
      child?_unplace ⟨kind, role, span, text, children⟩ .name
    rw [unplace]
    cases kind with
    | qualifiedName =>
      rw [qualifiedName?, qualifiedName?, hqualifier, hname]
      cases children.find? (·.role == .name) with
      | none => rfl
      | some m =>
        rw [Option.map_some, unplace_eq]
        rfl
    | _ => rfl

lemma qualifierIn?_unplaceAll : (ns : List Node) → qualifierIn? (unplaceAll ns) = qualifierIn? ns
  | [] => rfl
  | n :: ns => by
    rw [unplaceAll, qualifierIn?, qualifierIn?, qualifiedName?_unplace n, qualifierIn?_unplaceAll ns,
      unplace_eq]

end

lemma name?_unplace (n : Node) : n.unplace.name? = n.name? := by
  rw [name?, name?, child?_unplace]
  cases h : n.child? .name with
  | none => rfl
  | some name =>
    simp only [Option.map_some, Option.bind_eq_bind, Option.bind_some]
    rw [child?_unplace, unplace_eq name]
    cases name.kind with
    | qualifiedName =>
      cases name.child? .name with
      | none => rfl
      | some last => simp [unplace_eq last]
    | _ => rfl

lemma qualifiedName?_child_unplace (n : Node) (role : Role) :
    (n.unplace.child? role).bind qualifiedName? = (n.child? role).bind qualifiedName? := by
  rw [child?_unplace]
  cases n.child? role with
  | none => rfl
  | some m => exact qualifiedName?_unplace m

end Node

end Shorthand
