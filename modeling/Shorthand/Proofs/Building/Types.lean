import Shorthand.Proofs.Building.Basic

/-!
What the rules for types build.
-/

namespace Shorthand.Parser

open Cursor

/-- A rule for types builds what it reads, wherever it is used. -/
def BuildsTypes (ty : Role → Parser Node) : Prop := ∀ role c, (ty role).After c (BuildsOne c)

variable {ty : Role → Parser Node} {c c₀ : Cursor} {n : Node} {role : Role} {start : Nat}

lemma wildcardBound_builds (hty : BuildsTypes ty) :
    (wildcardBound ty).After c fun o c' => Builds c (o.map (·.2)).toList c' := by
  have hbound : (ty .bound).After c.advance (Builds c [·]) :=
    (hty .bound c.advance).imp fun _ _ h => .behind (.advance c) h
  simp only [wildcardBound, after_bind, after_eatKeyword, after_ite, after_pure, reduceIte,
    Bool.false_eq_true]
  split
  · exact hbound
  · split
    · exact hbound
    · exact .refl c

lemma typeArgument_builds (hty : BuildsTypes ty) : (typeArgument ty).After c (BuildsOne c) := by
  simp only [typeArgument, after_bind, after_atPunct, after_ite, after_start, after_bump]
  split
  · refine (wildcardBound_builds hty).imp fun o c' ho => ?_
    have hall := Builds.behind (.advance c) ho
    cases o with
    | none => exact .inRole .typeArgument (.node rfl hall)
    | some bound => exact .inRole .typeArgument (.nodeWithText rfl hall)
  · exact hty .typeArgument c

lemma typeArguments_builds (hty : BuildsTypes ty) : (typeArguments ty).After c (Builds c) := by
  simp only [typeArguments, after_bind, after_bump, after_eat, after_ite, after_pure, reduceIte,
    Bool.false_eq_true]
  split
  · exact (Builds.advance c).before (.advance _)
  · refine (sepBy1_builds fun _ => typeArgument_builds hty).imp fun ns c₁ hns => ?_
    exact After.imp expect_builds fun _ c₂ h => (Builds.behind (.advance c) hns).before h

/-- A class type is read. What a simple type is made of is read, too, since a further name takes it
up. -/
def BuildsClassType (c₀ : Cursor) (n : Node) (c : Cursor) : Prop :=
  Builds c₀ [n] c ∧ (n.kind = .simpleType → ∃ name, n.children = [name] ∧ Builds c₀ [name] c)

lemma BuildsClassType.of_name {name : Node} {span : Span} (h : Builds c₀ [name] c) :
    BuildsClassType c₀ ⟨.simpleType, .unplaced, span, none, [name]⟩ c :=
  ⟨.node rfl h, fun _ => ⟨name, rfl, h⟩⟩

lemma classTypeStep_builds (hty : BuildsTypes ty) (hn : BuildsClassType c₀ n c) :
    (classTypeStep ty start n).After c fun o c' => BuildsClassType c₀ (o.getD n) c' := by
  simp only [classTypeStep, after_bind, after_atPunct, after_atIdent, after_ite, after_pure,
    after_bump, after_node]
  split
  · refine (typeArguments_builds hty).imp fun args c₁ hargs => ⟨?_, by simp⟩
    exact .node rfl ((hn.1.inRole .type).cons hargs)
  · split
    · refine After.imp (ident_builds.and ident_isWord) fun last c₁ hlast => ?_
      have hlast' := Builds.behind (.advance c) hlast.1
      split
      · next hkind =>
        obtain ⟨name, hchildren, hname⟩ := hn.2 hkind
        rw [hchildren]
        exact .of_name (.inRole .name
          (.qualifiedName rfl hlast.2 ((hname.inRole .qualifier).cons hlast')))
      · exact ⟨.node rfl ((hn.1.inRole .qualifier).cons hlast'), by simp⟩
    · exact hn

lemma elementType_builds (hty : BuildsTypes ty) : (elementType ty).After c (BuildsOne c) := by
  simp only [elementType, after_bind, after_atPrimitiveType, after_ite, after_start, after_node]
  split
  · exact leaf_builds (by decide) (by decide)
  · refine After.imp ident_builds fun name c₁ hname => ?_
    refine After.imp (chain_builds (I := BuildsClassType c) (.of_name hname) (fun m c' hm => ?_)
      fun m c' hm => classTypeStep_builds hty hm) fun m c' hm => hm.1
    refine ⟨hm.1.stalls, fun hkind => ?_⟩
    obtain ⟨name, hchildren, hname⟩ := hm.2 hkind
    exact ⟨name, hchildren, hname.stalls⟩

lemma typeOver_builds (hty : BuildsTypes ty) : (typeOver ty role).After c (BuildsOne c) := by
  simp only [typeOver, after_bind, after_atType, after_ite, after_start, after_pure]
  split
  · refine (elementType_builds hty).imp fun n c₁ hn => ?_
    refine (chain_buildsOne hn fun m c₂ hm => ?_).imp fun m c₂ hm => hm.inRole role
    simp only [arrayTypeStep, after_bind, after_atEmptyBrackets, after_ite, after_node, after_pure]
    split
    · exact (bumpAll_builds 2).imp fun _ _ h => .node rfl ((hm.inRole .element).before h)
    · exact hm
  · exact missing_builds

lemma typeBelow_builds {bound : Nat} (hty : BuildsTypes ty) : BuildsTypes (typeBelow bound ty) :=
  fun role c => below_builds (hty role c) (.missing_stall c role 0)

/-- Types of any depth are built, also where the depth is not enough. -/
lemma typeTo_builds (depth : Nat) : BuildsTypes (typeTo depth) := by
  induction depth with
  | zero => exact fun role c => Builds.missing_stall c role 0
  | succ depth ih =>
    intro role c
    simp only [typeTo, after_bind, after_remaining]
    exact typeOver_builds (typeBelow_builds ih)

lemma type_builds : (type role).After c (BuildsOne c) := by
  simp only [type, after_bind, after_remaining]
  exact typeTo_builds _ role c

lemma createdType_builds : createdType.After c (BuildsOne c) := by
  simp only [createdType, after_bind, after_remaining]
  exact elementType_builds (typeBelow_builds (typeTo_builds _))

/-- A type that was only tried is undone, with what was complained about it. -/
lemma tryType_builds : tryType.After c (BuildsOption c) := by
  simp only [tryType, after_bind, after_atType, after_ite, after_get, after_pure, after_rewind]
  split
  · refine After.imp type_builds fun n c₁ hn => ?_
    split
    · exact hn.backTo
    · exact hn
  · exact .refl c

lemma typeList_builds : (typeList role).After c (Builds c) := sepBy1_builds fun _ => type_builds

lemma typeParameter_builds : typeParameter.After c (BuildsOne c) := by
  simp only [typeParameter, after_bind, after_start, after_node, after_pure]
  refine After.imp ident_builds fun name c₁ hname => ?_
  refine (itemsIf_builds eatKeyword_builds fun _ => sepBy1_builds fun _ => type_builds).imp
    fun bounds c₂ hbounds => ?_
  exact .inRole .typeParameter (.node (by decide) (hname.cons hbounds))

lemma typeParameters_builds : typeParameters.After c (Builds c) := by
  simp only [typeParameters, after_bind, after_eat, after_ite, after_pure, reduceIte,
    Bool.false_eq_true]
  split
  · refine (sepBy1_builds fun _ => typeParameter_builds).imp fun ns c₁ hns => ?_
    exact After.imp expect_builds fun _ c₂ h => (Builds.behind (.advance c) hns).before h
  · exact .refl c

end Shorthand.Parser
