import Shorthand.Proofs.Building.Rules
import Shorthand.Proofs.Reading.Declarations

/-!
What the rules for declarations of types and of their members build.
-/

namespace Shorthand.Parser

open Cursor

variable {r : Rules} {c c₀ : Cursor} {role : Role} {before : List Node} {start : Nat}

/-! ### Types -/

lemma enumConstant_builds (hr : r.Building) : (enumConstant r).After c (BuildsOne c) := by
  simp only [enumConstant, after_bind, after_start, after_node, after_pure]
  refine (modifiers_builds hr).imp fun ms c₁ hms => ?_
  refine After.imp ident_builds fun name c₂ hname => ?_
  refine (itemsIf_builds (after_atPunct.mpr (.refl c₂)) fun _ => arguments_builds hr).imp
    fun args c₃ hargs => ?_
  refine (anonymousBody_builds hr).imp fun body c₄ hbody => ?_
  exact .inRole .enumConstant (.node rfl ((hms.append (hname.cons hargs)).append hbody))

lemma enumBody_builds (hr : r.Building) : (enumBody r).After c (Builds c) := by
  simp only [enumBody, after_bind, after_ite, after_pure]
  refine After.imp expectAs_builds fun found c₁ hopen => ?_
  split
  · refine (sepUntil_builds (fun _ _ => after_atConstantsEnd) fun _ => enumConstant_builds hr).imp
      fun constants c₂ hconstants => ?_
    refine (itemsIf_builds eat_builds fun _ => membersIn_builds hr).imp fun members c₃ hmembers => ?_
    refine After.imp expect_builds fun _ c₄ hclose => ?_
    exact (Builds.behind hopen.1 (hconstants.append hmembers)).before hclose
  · exact hopen.1

lemma typesAfter_builds {k : Keyword} : (typesAfter k role).After c (Builds c) :=
  itemsIf_builds eatKeyword_builds fun _ => typeList_builds

lemma annotationTypeDeclaration_builds (hr : r.Building) (h : Builds c₀ before c) :
    (annotationTypeDeclaration r start before).After c (BuildsOne c₀) := by
  simp only [annotationTypeDeclaration, after_bind, after_node]
  refine (bumpAll_builds 2).imp fun _ c₁ hsign => ?_
  refine After.imp ident_builds fun name c₂ hname => ?_
  refine (classBody_builds hr).imp fun members c₃ hmembers => ?_
  exact .node rfl ((h.before hsign).append (hname.cons hmembers))

lemma enumDeclaration_builds (hr : r.Building) (h : Builds c₀ before c) :
    (enumDeclaration r start before).After c (BuildsOne c₀) := by
  simp only [enumDeclaration, after_bind, after_node]
  refine After.imp ident_builds fun name c₁ hname => ?_
  refine After.imp typesAfter_builds fun interfaces c₂ hinterfaces => ?_
  refine (enumBody_builds hr).imp fun body c₃ hbody => ?_
  exact .node rfl ((h.append (hname.cons hinterfaces)).append hbody)

lemma interfaceDeclaration_builds (hr : r.Building) (h : Builds c₀ before c) :
    (interfaceDeclaration r start before).After c (BuildsOne c₀) := by
  simp only [interfaceDeclaration, after_bind, after_node, after_pure]
  refine After.imp ident_builds fun name c₁ hname => ?_
  refine After.imp typeParameters_builds fun params c₂ hparams => ?_
  refine After.imp typesAfter_builds fun interfaces c₃ hinterfaces => ?_
  refine (classBody_builds hr).imp fun members c₄ hmembers => ?_
  have hhead := (h.append (hname.cons hparams)).append hinterfaces
  exact .nodeWithText rfl (hhead.append hmembers)

lemma classDeclaration_builds (hr : r.Building) (h : Builds c₀ before c) :
    (classDeclaration r start before).After c (BuildsOne c₀) := by
  simp only [classDeclaration, after_bind, after_node, after_pure]
  refine After.imp ident_builds fun name c₁ hname => ?_
  refine After.imp typeParameters_builds fun params c₂ hparams => ?_
  refine (itemIf_builds eatKeyword_builds fun _ => type_builds).imp fun superclass c₃ hsuper => ?_
  refine After.imp typesAfter_builds fun interfaces c₄ hinterfaces => ?_
  refine (classBody_builds hr).imp fun members c₅ hmembers => ?_
  have hhead := ((h.append (hname.cons hparams)).append hsuper).append hinterfaces
  exact .nodeWithText rfl (hhead.append hmembers)

lemma typeDeclaration_builds (hr : r.Building) : (typeDeclaration r).After c (BuildsOne c) := by
  simp only [typeDeclaration, after_bind, after_start]
  refine (modifiers_builds hr).imp fun ms c₁ hms => ?_
  have hms' := hms.before (.advance c₁)
  simp only [typeDeclarationAfter, after_bind, after_atPunct, after_eatKeyword, after_ite, after_bump,
    reduceIte, Bool.false_eq_true]
  split
  · exact annotationTypeDeclaration_builds hr hms
  · split
    · exact enumDeclaration_builds hr hms'
    · split
      · exact interfaceDeclaration_builds hr hms'
      · exact classDeclaration_builds hr hms'

/-! ### Members -/

lemma methodBody_builds (hr : r.Building) : (methodBody r).After c (Builds c) := by
  simp only [methodBody, after_bind, after_atPunct, after_ite, after_pure]
  split
  · exact block_builds hr
  · exact After.imp expectAs_builds fun _ _ h => h.1

lemma methodAfter_builds (hr : r.Building) (h : Builds c₀ before c) :
    (methodAfter r start before).After c (BuildsOne c₀) := by
  simp only [methodAfter, after_bind, after_bump, after_node]
  refine (sepUntil_builds (fun _ _ => after_atParametersEnd) fun _ => parameter_builds hr).imp
    fun params c₁ hparams => ?_
  refine After.imp expect_builds fun _ c₂ hclose => ?_
  refine After.imp skipEmptyBrackets_builds fun _ c₃ hbrackets => ?_
  refine After.imp typesAfter_builds fun exceptions c₄ hexceptions => ?_
  refine (methodBody_builds hr).imp fun body c₅ hbody => ?_
  have hhead := ((h.before (.advance c)).append hparams).before (hclose.before hbrackets)
  exact .node rfl ((hhead.append hexceptions).append hbody)

lemma initializer_builds (hr : r.Building) : (initializer r).After c (BuildsOne c) := by
  simp only [initializer, after_bind, after_start, after_node]
  refine (itemIf_builds (after_atKeyword.mpr (.refl c)) fun _ => leaf_builds (by decide) (by decide)).imp
    fun ms c₁ hms => ?_
  exact (block_builds hr).imp fun body c₂ hbody => .node rfl (hms.append hbody)

lemma typedMember_builds (hr : r.Building) (h : Builds c₀ before c) :
    (typedMember r start before).After c (BuildsOne c₀) := by
  simp only [typedMember, after_bind, atCallableName, after_atIdent, after_atPunct, after_pure,
    after_ite, after_node]
  refine After.imp type_builds fun ty c₁ hty => ?_
  split
  · refine After.imp ident_builds fun name c₂ hname => ?_
    exact methodAfter_builds hr (h.append ((hty.inRole .returnType).cons hname))
  · refine (variableFragments_builds hr).imp fun fragments c₂ hfragments => ?_
    refine After.imp expect_builds fun _ c₃ hsemi => ?_
    exact .node rfl (h.append (hty.cons (hfragments.before hsemi)))

lemma plainMember_builds (hr : r.Building) : (plainMember r).After c (BuildsOption c) := by
  simp only [plainMember, after_bind, after_start, atCallableName, after_atIdent, after_atPunct,
    after_atType, after_pure, after_ite, after_unexpected, after_bump, after_node]
  refine (modifiers_builds hr).imp fun ms c₁ hms => ?_
  refine After.imp typeParameters_builds fun params c₂ hparams => ?_
  have hhead := hms.append hparams
  split
  · refine After.imp ident_builds fun name c₃ hname => ?_
    exact methodAfter_builds hr (hhead.append hname)
  · split
    · exact typedMember_builds hr hhead
    · split
      · exact (hhead.before (.complain c₂ _)).before (.advance _) |>.drop
      · exact After.imp missing_builds fun ty c₃ hty => .node rfl (hhead.append hty)

/-- A member is built, or a token is skipped. -/
theorem member_builds (hr : r.Building) : (member r).After c (BuildsOption c) := by
  simp only [member, after_bind, after_eat, after_ite, atInitializer, after_atPunct, after_atKeyword,
    after_pure, after_atTypeDeclaration, reduceIte, Bool.false_eq_true]
  split
  · exact .advance c
  · split
    · exact initializer_builds hr
    · split
      · exact typeDeclaration_builds hr
      · exact plainMember_builds hr

end Shorthand.Parser
