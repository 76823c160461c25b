import Shorthand.Proofs.Building.Statements
import Shorthand.Proofs.Reading.Parse

/-!
What whole texts build.

Rules made of rules that build what they read do so, too, and the rules of depth zero, which only stall,
are no exception. So all rules build what they read (`rulesTo_building`), and the tree of a text is built
from its tokens (`parse_builds`, `parseExpression_builds`).
-/

namespace Shorthand

open Cursor

namespace Parser

variable {r : Rules} {c : Cursor}

namespace Rules.Building

lemma below (h : r.Building) (bound : Nat) : (r.below bound).Building where
  expression c := below_builds (h.expression c) (.missing_stall c _ _)
  conditional c := below_builds (h.conditional c) (.missing_stall c _ _)
  operation least c := below_builds (h.operation least c) (.missing_stall c _ _)
  unary c := below_builds (h.unary c) (.missing_stall c _ _)
  arrayInitializer role c := below_builds (h.arrayInitializer role c) (.missing_stall c _ _)
  statement c := below_builds (h.statement c) ⟨.stall c, fun _ hs => by cases hs.runs⟩
  member c := below_builds (h.member c) (.stall c)

lemma empty : Rules.empty.Building where
  expression c := Builds.missing_stall c _ _
  conditional c := Builds.missing_stall c _ _
  operation _ c := Builds.missing_stall c _ _
  unary c := Builds.missing_stall c _ _
  arrayInitializer _ c := Builds.missing_stall c _ _
  statement c := ⟨Builds.stall c, fun _ hs => by cases hs.runs⟩
  member c := Builds.stall c

end Rules.Building

theorem rulesOver_building (hr : r.Building) : (rulesOver r).Building where
  expression _ := after_below.mpr (expression_builds (hr.below _))
  conditional _ := after_below.mpr (conditional_builds (hr.below _))
  operation least _ :=
    (after_below (f := fun r => operation r least)).mpr (operation_builds (hr.below _))
  unary _ := after_below.mpr (unary_builds (hr.below _))
  arrayInitializer role _ :=
    (after_below (f := fun r => arrayInitializer r role)).mpr (arrayInitializer_builds (hr.below _))
  statement _ := after_below.mpr (statement_builds (hr.below _))
  member _ := after_below.mpr (member_builds (hr.below _))

theorem rulesTo_building (depth : Nat) : (rulesTo depth).Building := by
  induction depth with
  | zero => exact .empty
  | succ depth ih => exact rulesOver_building ih

/-! ### Compilation units -/

lemma packageDeclaration_builds : packageDeclaration.After c (BuildsOne c) := by
  simp only [packageDeclaration, after_bind, after_start, after_bump, after_node, after_pure]
  refine After.imp qualifiedName_builds fun name c₁ hname => ?_
  refine After.imp expect_builds fun _ c₂ hsemi => ?_
  exact .inRole .package (.node rfl ((Builds.behind (.advance c) hname).before hsemi))

lemma eatDotStar_builds : eatDotStar.After c fun _ c' => Builds c [] c' := by
  simp only [eatDotStar, after_bind, after_atPunct, after_ite, after_pure]
  split
  · exact bumpAll_builds 2
  · exact .refl c

lemma importDeclaration_builds : importDeclaration.After c (BuildsOne c) := by
  simp only [importDeclaration, after_bind, after_start, after_bump, after_node, after_pure]
  have hmodifiers : (itemIf (atKeyword .staticKw) (leaf .modifier .modifier)).After c.advance
      (Builds c.advance) :=
    itemIf_builds (after_atKeyword.mpr (.refl _)) fun _ => leaf_builds (by decide) (by decide)
  refine hmodifiers.imp fun ms c₁ hms => ?_
  refine After.imp qualifiedName_builds fun name c₂ hname => ?_
  refine After.imp eatDotStar_builds fun onDemand c₃ hstar => ?_
  refine After.imp expect_builds fun _ c₄ hsemi => ?_
  have hall := (Builds.behind (.advance c) (hms.append hname)).before (hstar.before hsemi)
  cases onDemand with
  | true => exact .nodeInRole rfl hall
  | false => exact .nodeInRole rfl hall

lemma topLevelType_builds (hr : r.Building) : (topLevelType r).After c (BuildsOption c) := by
  simp only [topLevelType, after_bind, after_eat, after_ite, after_atTypeDeclaration,
    after_remaining, after_unexpected, after_bump, after_pure, reduceIte, Bool.false_eq_true]
  split
  · exact .advance c
  · split
    · exact (typeDeclaration_builds (hr.below _)).imp fun n c₁ hn => hn.inRole .member
    · exact (Builds.complain c _).before (.advance _)

theorem compilationUnit_builds (hr : r.Building) : (compilationUnit r).After c (BuildsOne c) := by
  simp only [compilationUnit, after_bind, after_get, after_pure]
  refine (itemIf_builds (after_atKeyword.mpr (.refl c)) fun _ => packageDeclaration_builds).imp
    fun package c₁ hpackage => ?_
  refine (manyUntil_builds (fun _ _ => after_notAtImport) fun c' => ?_).imp fun imports c₂ himports => ?_
  · rw [after_map]
    exact importDeclaration_builds
  · refine (manyUntil_builds (fun _ _ => after_atEnd) fun _ => topLevelType_builds hr).imp
      fun types c₃ htypes => ?_
    exact .node rfl ((hpackage.append himports).append htypes)

theorem wholeExpression_builds (hr : r.Building) : (wholeExpression r).After c (BuildsOne c) := by
  simp only [wholeExpression, after_bind, after_atEnd, after_ite, after_unexpected, after_pure]
  refine (expressionOr_builds hr).imp fun n c₁ hn => ?_
  split
  · exact Builds.before hn (.complain c₁ _)
  · exact hn

end Parser

/-! ### Whole texts -/

/-- The tree of a text is built from its tokens, with the complaints about the text on the way. -/
structure ParseOutput.Built (source : String) (out : ParseOutput) (c' : Cursor) : Prop where
  builds : Parser.Builds (Cursor.front source) [out.tree] c'
  diagnostics : out.diagnostics = (lex source).diagnostics ++ c'.problems.reverse
  stalled : out.stalled = c'.stalled

/-- A text read by a rule that builds what it reads. -/
lemma ParseOutput.built_ofSource {rule : Parser.Rules → Parser Node}
    (hrule : ∀ r c, Parser.Rules.Building r → (rule r).After c (Parser.BuildsOne c)) (source : String) :
    ∃ c', (ParseOutput.ofSource rule source).Built source c' :=
  ⟨_, hrule _ (Cursor.front source) (Parser.rulesTo_building _), rfl, rfl⟩

theorem parse_builds (source : String) : ∃ c', (parse source).Built source c' :=
  ParseOutput.built_ofSource (fun _ _ => Parser.compilationUnit_builds) source

theorem parseExpression_builds (source : String) : ∃ c', (parseExpression source).Built source c' :=
  ParseOutput.built_ofSource (fun _ _ => Parser.wholeExpression_builds) source

end Shorthand
