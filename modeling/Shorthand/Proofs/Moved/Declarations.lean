import Shorthand.Proofs.Moved.Rules
import Shorthand.Proofs.Reading.Declarations

/-!
Reading declarations in two places.

Whether a declaration comes next is told by the kinds of the tokens ahead
(`startsTypeDeclaration_of_kinds`), so it comes in both places or in none.
-/

namespace Shorthand.Parser

open Node

variable {s : Places} {r q : Rules} {first second : Nat} {ns ms : List Node}

/-! ### Recognising the declaration of a type -/

lemma afterModifier_of_kinds {t u : Token} {next next' : Option Token} (hkind : u.kind = t.kind)
    (hnext : next'.map Token.kind = next.map Token.kind) :
    afterModifier u next' = afterModifier t next := by
  rw [afterModifier, afterModifier, hkind, hnext]

lemma startsTypeDeclaration_of_kinds {ts us : List Token}
    (h : us.map Token.kind = ts.map Token.kind) (ahead : Ahead) :
    startsTypeDeclaration ahead us = startsTypeDeclaration ahead ts := by
  induction ts generalizing us ahead with
  | nil =>
    obtain rfl := List.map_eq_nil_iff.mp h
    rfl
  | cons t ts ih =>
    obtain ⟨u, us, rfl, hkind, hkinds⟩ := List.map_eq_cons_iff.mp h
    have hmodifier : afterModifier u us.head? = afterModifier t ts.head? := by
      refine afterModifier_of_kinds hkind ?_
      rw [← List.head?_map, hkinds, List.head?_map]
    have hrest := fun ahead => ih hkinds ahead
    cases ahead with
    | modifier => simp only [startsTypeDeclaration, hmodifier, hrest]
    | annotationName => exact hrest .annotationEnd
    | annotationEnd => simp only [startsTypeDeclaration, hmodifier, hrest, hkind]
    | annotationArguments depth => simp only [startsTypeDeclaration, hrest, hkind]

lemma atTypeDeclaration_alike : Alike s Eq atTypeDeclaration atTypeDeclaration := by
  refine .bind get_alike fun c d hcd => .pure ?_
  exact (startsTypeDeclaration_of_kinds hcd.kinds_eq .modifier).symm

/-! ### Types -/

lemma atConstantsEnd_alike : Alike s Eq atConstantsEnd atConstantsEnd :=
  .look (atIdent_alike 0) fun _ => .look (atPunct_alike 0 .atSign) fun _ => .pure rfl

lemma typesAfter_alike (k : Keyword) (role : Role) :
    Alike s SameAll (typesAfter k role) (typesAfter k role) :=
  itemsIf_alike (eatKeyword_alike k) (typeList_alike role)

lemma atParametersEnd_alike : Alike s Eq atParametersEnd atParametersEnd :=
  .look (atPunct_alike 0 .closeParen) fun _ => .look atEnd_alike fun _ =>
    .look (atPunct_alike 0 .openBrace) fun _ => .look (atPunct_alike 0 .semi) fun _ => .pure rfl

lemma atInitializer_alike : Alike s Eq atInitializer atInitializer :=
  .look (atPunct_alike 0 .openBrace) fun _ => .look (atKeyword_alike 0 .staticKw) fun _ =>
    .look (atPunct_alike 1 .openBrace) fun _ => .pure rfl

lemma atCallableName_alike : Alike s Eq atCallableName atCallableName :=
  .look (atIdent_alike 0) fun _ => .look (atPunct_alike 1 .openParen) fun _ => .pure rfl

section Over

variable (h : r.Alike s q)

include h

lemma enumConstant_alike : Alike s Same (enumConstant r) (enumConstant q) := by
  refine .andThen start_alike fun first second => .bind (modifiers_alike h) fun ns ms hns => ?_
  refine .bind (ident_alike .name) fun name name' hname => ?_
  have harguments := itemsIf_alike (atPunct_alike 0 .openParen) (arguments_alike h)
  refine .bind harguments fun args args' hargs => ?_
  refine .bind (anonymousBody_alike h) fun body body' hbody => ?_
  exact nodeIn_alike ((hns.append (.cons hname hargs)).append hbody)

lemma enumBody_alike : Alike s SameAll (enumBody r) (enumBody q) := by
  refine .look (expectAs_alike .openBrace _) fun _ => .ite ?_ (.pure (.refl []))
  have hconstants := sepUntil_alike .comma atConstantsEnd_alike (enumConstant_alike h)
  refine .bind hconstants fun constants constants' hconstants => ?_
  refine .bind (itemsIf_alike (eat_alike .semi) (membersIn_alike h)) fun ns ms hns => ?_
  exact .look (expect_alike .closeBrace) fun _ => .pure (hconstants.append hns)

lemma annotationTypeDeclaration_alike (hns : SameAll ns ms) :
    Alike s Same (annotationTypeDeclaration r first ns) (annotationTypeDeclaration q second ms) := by
  refine .look (bumpAll_alike 2) fun _ => .bind (ident_alike .name) fun name name' hname => ?_
  refine .bind (classBody_alike h) fun members members' hmembers => ?_
  exact node_alike (hns.append (.cons hname hmembers))

lemma enumDeclaration_alike (hns : SameAll ns ms) :
    Alike s Same (enumDeclaration r first ns) (enumDeclaration q second ms) := by
  refine .bind (ident_alike .name) fun name name' hname => ?_
  refine .bind (typesAfter_alike .implementsKw .superInterface) fun types types' htypes => ?_
  refine .bind (enumBody_alike h) fun body body' hbody => ?_
  exact node_alike ((hns.append (.cons hname htypes)).append hbody)

lemma interfaceDeclaration_alike (hns : SameAll ns ms) :
    Alike s Same (interfaceDeclaration r first ns) (interfaceDeclaration q second ms) := by
  refine .bind (ident_alike .name) fun name name' hname => ?_
  refine .bind typeParameters_alike fun params params' hparams => ?_
  refine .bind (typesAfter_alike .extendsKw .superInterface) fun types types' htypes => ?_
  refine .bind (classBody_alike h) fun members members' hmembers => ?_
  have hall := ((hns.append (.cons hname hparams)).append htypes).append hmembers
  exact .bind (node_alike hall) fun _ _ h => .pure (h.withText _)

lemma classDeclaration_alike (hns : SameAll ns ms) :
    Alike s Same (classDeclaration r first ns) (classDeclaration q second ms) := by
  refine .bind (ident_alike .name) fun name name' hname => ?_
  refine .bind typeParameters_alike fun params params' hparams => ?_
  have hsuperclass := itemIf_alike (s := s) (eatKeyword_alike .extendsKw) (type_alike .superClass)
  refine .bind hsuperclass fun base base' hbase => ?_
  refine .bind (typesAfter_alike .implementsKw .superInterface) fun types types' htypes => ?_
  refine .bind (classBody_alike h) fun members members' hmembers => ?_
  have hall := (((hns.append (.cons hname hparams)).append hbase).append htypes).append hmembers
  exact .bind (node_alike hall) fun _ _ h => .pure (h.withText _)

lemma typeDeclarationAfter_alike (hns : SameAll ns ms) :
    Alike s Same (typeDeclarationAfter r first ns) (typeDeclarationAfter q second ms) := by
  refine .look (atPunct_alike 0 .atSign) fun _ => .ite (annotationTypeDeclaration_alike h hns) ?_
  refine .look (eatKeyword_alike .enumKw) fun _ => .ite (enumDeclaration_alike h hns) ?_
  refine .look (eatKeyword_alike .interfaceKw) fun _ => .ite (interfaceDeclaration_alike h hns) ?_
  exact .andThen bump_alike fun _ _ => classDeclaration_alike h hns

lemma typeDeclaration_alike : Alike s Same (typeDeclaration r) (typeDeclaration q) :=
  .andThen start_alike fun _ _ => .bind (modifiers_alike h) fun _ _ hns =>
    typeDeclarationAfter_alike h hns

/-! ### Members -/

lemma methodBody_alike : Alike s SameAll (methodBody r) (methodBody q) := by
  refine .look (atPunct_alike 0 .openBrace) fun _ => .ite ?_ ?_
  · exact .bind (block_alike h .body) fun _ _ h => .pure (.one h)
  · exact .look (expectAs_alike .semi _) fun _ => .pure (.refl [])

lemma methodAfter_alike (hns : SameAll ns ms) :
    Alike s Same (methodAfter r first ns) (methodAfter q second ms) := by
  refine .andThen bump_alike fun _ _ => ?_
  have hparameters := sepUntil_alike .comma atParametersEnd_alike (parameter_alike h)
  refine .bind hparameters fun params params' hparams => ?_
  refine .look (expect_alike .closeParen) fun _ => .look skipEmptyBrackets_alike fun _ => ?_
  refine .bind (typesAfter_alike .throwsKw .throws) fun thrown thrown' hthrown => ?_
  refine .bind (methodBody_alike h) fun body body' hbody => ?_
  exact node_alike (((hns.append hparams).append hthrown).append hbody)

lemma initializer_alike : Alike s Same (initializer r) (initializer q) := by
  refine .andThen start_alike fun first second => ?_
  have hmodifiers := itemIf_alike (s := s) (atKeyword_alike 0 .staticKw)
    (leaf_alike .modifier .modifier)
  refine .bind hmodifiers fun ns ms hns => .bind (block_alike h .body) fun n m hnm => ?_
  exact node_alike (hns.append (.one hnm))

lemma typedMember_alike (hns : SameAll ns ms) :
    Alike s Same (typedMember r first ns) (typedMember q second ms) := by
  refine .bind (type_alike .type) fun n m hnm => .look atCallableName_alike fun _ => .ite ?_ ?_
  · refine .bind (ident_alike .name) fun name name' hname => ?_
    exact methodAfter_alike h (hns.append (.cons (hnm.inRole .returnType) (.one hname)))
  · refine .bind (variableFragments_alike h) fun fragments fragments' hfragments => ?_
    exact .look (expect_alike .semi) fun _ => node_alike (hns.append (.cons hnm hfragments))

lemma plainMember_alike : Alike s (Option.Rel Same) (plainMember r) (plainMember q) := by
  refine .andThen start_alike fun first second => .bind (modifiers_alike h) fun ns ms hns => ?_
  refine .bind typeParameters_alike fun params params' hparams => ?_
  have hbefore := hns.append hparams
  refine .look atCallableName_alike fun _ => .ite ?_ (.look atType_alike fun _ => .ite ?_ ?_)
  · refine .bind (ident_alike .name) fun name name' hname => ?_
    exact .bind (methodAfter_alike h (hbefore.append (.one hname))) fun _ _ h => .pure (.some h)
  · exact .bind (typedMember_alike h hbefore) fun _ _ h => .pure (.some h)
  · rw [hbefore.isEmpty_eq]
    refine .ite (.look (unexpected_alike _) fun _ => .andThen bump_alike fun _ _ => .pure .none) ?_
    refine .bind (missing_alike .type "type") fun n m hnm => ?_
    exact .bind (node_alike (hbefore.append (.one hnm))) fun _ _ h => .pure (.some h)

lemma member_alike : Alike s (Option.Rel Same) (member r) (member q) := by
  refine .look (eat_alike .semi) fun _ => .ite (.pure .none) ?_
  refine .look atInitializer_alike fun _ => .ite ?_ ?_
  · exact .bind (initializer_alike h) fun _ _ h => .pure (.some h)
  refine .look atTypeDeclaration_alike fun _ => .ite ?_ (plainMember_alike h)
  exact .bind (typeDeclaration_alike h) fun _ _ h => .pure (.some h)

end Over

end Shorthand.Parser
