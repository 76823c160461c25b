import Shorthand.Proofs.Moved.Steps

/-!
Reading types in two places.

The rules for types are alike in both, with any rules for the types inside of them that are. A type is
tried by counting complaints and by looking for missing parts, and both come out the same.
-/

namespace Shorthand.Parser

open Node

variable {s : Places} {ty ty' : Role → Parser Node} {n m : Node} {first second : Nat} {role : Role}

/-- A node is put in a role once it is complete. -/
lemma nodeIn_alike {kind : Kind} {ns ms : List Node} (h : SameAll ns ms) :
    Alike s Same (do return (← node kind first ns).inRole role)
      (do return (← node kind second ms).inRole role) :=
  .bind (node_alike h) fun _ _ h => .pure (h.inRole role)

section Over

variable (h : ∀ role, Alike s Same (ty role) (ty' role))

include h

lemma wildcardBound_alike : Alike s (Option.Rel fun a b => a.1 = b.1 ∧ Same a.2 b.2)
    (wildcardBound ty) (wildcardBound ty') := by
  refine .look (eatKeyword_alike .extendsKw) fun _ => .ite ?_ ?_
  · exact .bind (h .bound) fun _ _ h => .pure (.some ⟨rfl, h⟩)
  refine .look (eatKeyword_alike .superKw) fun _ => .ite ?_ (.pure .none)
  exact .bind (h .bound) fun _ _ h => .pure (.some ⟨rfl, h⟩)

lemma typeArgument_alike : Alike s Same (typeArgument ty) (typeArgument ty') := by
  refine .look (atPunct_alike 0 .question) fun _ => .ite ?_ (h .typeArgument)
  refine .andThen start_alike fun first second => .andThen bump_alike fun _ _ => ?_
  refine .option (wildcardBound_alike h) ?_ (nodeIn_alike (.refl []))
  rintro ⟨k, bound⟩ ⟨k', bound'⟩ ⟨hk, hbound⟩
  obtain rfl : k = k' := hk
  refine .bind (node_alike (.one hbound)) fun n m hnm => ?_
  exact .pure ((hnm.withText k.spelling).inRole .typeArgument)

lemma typeArguments_alike : Alike s SameAll (typeArguments ty) (typeArguments ty') := by
  refine .andThen bump_alike fun _ _ => .look (eat_alike .gt) fun _ => ?_
  refine .ite (.pure (.refl [])) (.bind (sepBy1_alike _ (typeArgument_alike h)) fun ns ms hns => ?_)
  exact .look (expect_alike .gt) fun _ => .pure hns

lemma classTypeStep_alike (hnm : Same n m) :
    Alike s (Option.Rel Same) (classTypeStep ty first n) (classTypeStep ty' second m) := by
  refine .look (atPunct_alike 0 .lt) fun _ => .ite ?_ ?_
  · refine .bind (typeArguments_alike h) fun args args' hargs => ?_
    exact .bind (node_alike (.cons (hnm.inRole .type) hargs)) fun _ _ h => .pure (.some h)
  refine .look (atPunct_alike 0 .dot) fun _ => .look (atIdent_alike 1) fun _ => ?_
  refine .ite (.andThen bump_alike fun _ _ => ?_) (.pure .none)
  refine .bind (ident_alike .name) fun last last' hlast => ?_
  rw [hnm.kind_eq]
  refine .ite ?_ ?_
  · have hqualifier := (hnm.children.take 1).map fun _ _ h => h.inRole .qualifier
    refine .bind (node_alike (hqualifier.append (.one hlast))) fun name name' hname => ?_
    exact .bind (node_alike (.one (hname.inRole .name))) fun _ _ h => .pure (.some h)
  · have hparts := SameAll.cons (hnm.inRole .qualifier) (.one hlast)
    exact .bind (node_alike hparts) fun _ _ h => .pure (.some h)

lemma elementType_alike : Alike s Same (elementType ty) (elementType ty') := by
  refine .look atPrimitiveType_alike fun _ => .ite (leaf_alike .primitiveType .type) ?_
  refine .andThen start_alike fun first second => ?_
  refine .bind (ident_alike .name) fun name name' hname => ?_
  refine .bind (node_alike (.one hname)) fun n m hnm => ?_
  exact chain_alike (fun n m hnm => classTypeStep_alike h hnm) hnm

end Over

lemma arrayTypeStep_alike (hnm : Same n m) :
    Alike s (Option.Rel Same) (arrayTypeStep first n) (arrayTypeStep second m) := by
  refine .look atEmptyBrackets_alike fun _ => .ite ?_ (.pure .none)
  refine .look (bumpAll_alike 2) fun _ => ?_
  exact .bind (node_alike (.one (hnm.inRole .element))) fun _ _ h => .pure (.some h)

lemma typeOver_alike (h : ∀ role, Alike s Same (ty role) (ty' role)) (role : Role) :
    Alike s Same (typeOver ty role) (typeOver ty' role) := by
  refine .look atType_alike fun _ => .ite ?_ (missing_alike role "type")
  refine .andThen start_alike fun first second => .bind (elementType_alike h) fun n m hnm => ?_
  refine .bind (chain_alike (fun n m hnm => ?_) hnm) fun n m hnm => .pure (hnm.inRole role)
  exact arrayTypeStep_alike hnm

lemma typeBelow_alike {bound : Nat} (h : ∀ role, Alike s Same (ty role) (ty' role)) (role : Role) :
    Alike s Same (typeBelow bound ty role) (typeBelow bound ty' role) :=
  below_alike (fun c d hcd _ => h role c d hcd) (.refl _)

lemma typeTo_alike (depth : Nat) (role : Role) :
    Alike s Same (typeTo depth role) (typeTo depth role) := by
  induction depth generalizing role with
  | zero => exact .look stall_alike fun _ => .pure (.refl _)
  | succ depth ih => exact .look remaining_alike fun _ => typeOver_alike (typeBelow_alike ih) role

lemma type_alike (role : Role) : Alike s Same (type role) (type role) :=
  .look remaining_alike fun _ => typeTo_alike _ role

lemma createdType_alike : Alike s Same createdType createdType :=
  .look remaining_alike fun count => elementType_alike (typeBelow_alike (typeTo_alike count))

lemma tryType_alike : Alike s (Option.Rel Same) tryType tryType := by
  refine .look atType_alike fun _ => .ite ?_ (.pure .none)
  refine .bind get_alike fun before before' hbefore => ?_
  refine .bind (type_alike .type) fun n m hnm => .bind get_alike fun now now' hnow => ?_
  have hcount : now.problems.length > before.problems.length
      ↔ now'.problems.length > before'.problems.length := hnow.problems_lt_iff hbefore
  rw [decide_eq_decide.mpr hcount, hnm.containsMissing_eq]
  refine .ite (.look (rewind_alike hbefore) fun _ => .pure .none) ?_
  exact .pure (.some hnm)

lemma typeList_alike (role : Role) : Alike s SameAll (typeList role) (typeList role) :=
  sepBy1_alike _ (type_alike role)

lemma typeParameter_alike : Alike s Same typeParameter typeParameter := by
  refine .andThen start_alike fun first second => ?_
  refine .bind (ident_alike .name) fun name name' hname => ?_
  have hbounds := itemsIf_alike (s := s) (eatKeyword_alike .extendsKw)
    (sepBy1_alike .amp (type_alike .bound))
  exact .bind hbounds fun _ _ hbounds => nodeIn_alike (.cons hname hbounds)

lemma typeParameters_alike : Alike s SameAll typeParameters typeParameters := by
  refine .look (eat_alike .lt) fun _ => .ite ?_ (.pure (.refl []))
  refine .bind (sepBy1_alike _ typeParameter_alike) fun ns ms hns => ?_
  exact .look (expect_alike .gt) fun _ => .pure hns

end Shorthand.Parser
