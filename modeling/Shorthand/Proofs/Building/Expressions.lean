import Shorthand.Proofs.Building.Rules
import Shorthand.Proofs.Reading.Expressions

/-!
What the rules for expressions build.

An expression that is extended was begun at an earlier cursor `c₀`, and what is built reaches from there
to the end of the extension.
-/

namespace Shorthand.Parser

open Cursor

variable {r : Rules} {c c₀ : Cursor} {n : Node} {before : List Node} {start : Nat}

/-! ### Lambdas and casts -/

lemma lambdaBody_builds (hr : r.Building) (h : Builds c₀ before c) :
    (lambdaBody r start before).After c (BuildsOne c₀) := by
  simp only [lambdaBody, afterArrow, after_bind, after_atPunct, after_ite, after_node]
  split
  · exact (block_builds hr).imp fun body c₁ hbody => .node rfl (h.append hbody)
  · exact (expressionOr_builds hr).imp fun body c₁ hbody => .node rfl (h.append hbody)

lemma lambdaParameter_builds (hr : r.Building) : (lambdaParameter r).After c (BuildsOne c) := by
  simp only [lambdaParameter, after_bind, after_atIdent, after_atPunct, after_ite]
  split
  · exact ident_builds
  · exact parameter_builds hr

lemma lambda_builds (hr : r.Building) : (lambda r start).After c (BuildsOne c) := by
  simp only [lambda, after_bind, after_bump]
  refine (sepUntil_builds (fun _ _ => after_atParenEnd) fun _ => lambdaParameter_builds hr).imp
    fun params c₁ hparams => ?_
  refine After.imp expect_builds fun _ c₂ hclose => ?_
  refine After.imp expect_builds fun _ c₃ harrow => ?_
  exact lambdaBody_builds hr ((Builds.behind (.advance c) hparams).before (hclose.before harrow))

/-- A cast that was only tried is undone. -/
lemma tryCast_builds (hr : r.Building) : (tryCast r start).After c (BuildsOption c) := by
  simp only [tryCast, after_bind, after_get, after_bump, after_atPrimitiveType]
  refine After.imp tryType_builds fun o c₁ ho => ?_
  have ho' := Builds.behind (.advance c) ho
  cases o with
  | none => exact ho'.backTo
  | some ty =>
    simp only [after_bind, after_atPunct, after_peek, after_pure, after_ite, after_bump, after_node,
      after_rewind]
    split
    · refine (hr.unary _).imp fun operand c₂ hoperand => ?_
      exact .node rfl ((ho'.before (.advance c₁)).append (hoperand.inRole .operand))
    · exact ho'.backTo

/-! ### Primary expressions -/

lemma dimension_builds (hr : r.Building) : (dimension r).After c (BuildsOne c) := by
  simp only [dimension, after_bind, after_bump, after_lastEnd, after_ite, after_pure]
  refine After.imp eat_builds fun closed c₁ hclosed => ?_
  have hopen := (Builds.advance c).before hclosed
  split
  · exact .nodeInRole rfl hopen
  · refine (expressionOr_builds hr).imp fun size c₂ hsize => ?_
    exact After.imp expect_builds fun _ c₃ hclose => (Builds.behind hopen hsize).before hclose

lemma arrayCreation_builds (hr : r.Building) (h : Builds c₀ [n] c) :
    (arrayCreation r start n).After c (BuildsOne c₀) := by
  simp only [arrayCreation, after_bind, after_node]
  refine (manyUntil_builds (fun _ _ => after_notAtPunct) fun c' => ?_).imp
    fun dimensions c₁ hdimensions => ?_
  · rw [after_map]
    exact dimension_builds hr
  · refine (itemIf_builds (after_atPunct.mpr (.refl c₁)) fun _ => arrayInitializer_builds hr).imp
      fun init c₂ hinit => ?_
    exact .node rfl ((h.cons hdimensions).append hinit)

lemma creationArguments_builds (hr : r.Building) : (creationArguments r).After c (Builds c) := by
  simp only [creationArguments, after_bind, after_atPunct, after_ite, after_unexpected, after_pure]
  split
  · exact arguments_builds hr
  · exact .complain c _

lemma creationType_builds : creationType.After c (BuildsOne c) := by
  simp only [creationType, after_bind, after_atType, after_ite, after_pure]
  split
  · exact After.imp createdType_builds fun _ _ h => h.inRole .type
  · exact missing_builds

/-- What stands before the keyword of a creation becomes a part of it, or is dropped where an array is
created. -/
lemma creation_builds {outer : Option Node} (hr : r.Building) (h : Builds c₀ outer.toList c) :
    (creation r start outer).After c (BuildsOne c₀) := by
  simp only [creation, after_bind, after_bump, after_atPunct, after_ite]
  refine After.imp creationType_builds fun ty c₁ hty => ?_
  have hty' := Builds.behind (.advance c) hty
  split
  · exact arrayCreation_builds hr (.behind h.drop hty')
  · have houter : Builds c₀ (outer.map (·.inRole .receiver)).toList c := by
      cases outer with
      | none => exact h
      | some e => exact h.inRole .receiver
    simp only [objectCreation, after_bind, after_node]
    refine (creationArguments_builds hr).imp fun args c₂ hargs => ?_
    refine (anonymousBody_builds hr).imp fun body c₃ hbody => ?_
    exact .node rfl (((houter.append hty').append hargs).append hbody)

lemma superAccess_builds (hr : r.Building) : (superAccess r start).After c (BuildsOne c) := by
  simp only [superAccess, after_bind, after_bump, after_ite, after_atPunct, after_node, after_pure,
    after_start]
  refine After.imp expectAs_builds fun found c₁ hdot => ?_
  have hdot' := (Builds.advance c).before hdot.1
  split
  · refine After.imp ident_builds fun name c₂ hname => ?_
    have hname' := Builds.behind hdot' hname
    split
    · exact (arguments_builds hr).imp fun args c₃ hargs => .node rfl (hname'.cons hargs)
    · exact .node rfl hname'
  · next hfound =>
    refine .missing hdot' fun hs => hdot.2 (Bool.eq_false_iff.mpr hfound) ?_
    exact (Builds.advance c).later.silent_right hdot.1.later hs

lemma primitiveLiteral_builds : (primitiveLiteral start).After c (BuildsOne c) := by
  simp only [primitiveLiteral, after_bind, after_atPunct, after_atKeyword, after_pure, after_ite,
    after_node, after_unexpected]
  refine After.imp type_builds fun ty c₁ hty => ?_
  split
  · exact (bumpAll_builds 2).imp fun _ c₂ h => .node rfl (hty.before h)
  · exact (hty.inRole .unplaced).before (.complain c₁ _)

lemma primary_builds (hr : r.Building) : (primary r).After c (BuildsOne c) := by
  simp only [primary, after_bind, after_start, after_peek]
  split
  · next kind _ _ => exact leaf_builds (by cases kind <;> decide) (by cases kind <;> decide)
  · simp only [after_bind, after_atPunct, after_ite, after_node, after_pure]
    refine After.imp ident_builds fun name c₁ hname => ?_
    split
    · exact (arguments_builds hr).imp fun args c₂ hargs => .node rfl (hname.cons hargs)
    · exact hname.inRole .unplaced
  · simp only [after_bind, after_bump, after_node]
    refine (expressionOr_builds hr).imp fun inner c₁ hinner => ?_
    refine After.imp expect_builds fun _ c₂ hclose => ?_
    exact .node rfl ((Builds.behind (.advance c) hinner).before hclose)
  · simp only [after_bind, after_bump, after_node]
    exact .node rfl (.advance c)
  · exact superAccess_builds hr
  · exact creation_builds hr (.refl c)
  · rw [after_ite]
    split
    · exact primitiveLiteral_builds
    · exact missing_builds
  · exact missing_builds

/-! ### What is joined behind an expression -/

lemma nameAsType_builds (h : Builds c₀ [n] c) : Builds c₀ [nameAsType n] c := by
  rw [nameAsType]
  split
  · exact .node rfl (h.inRole .name)
  · exact h

lemma memberAccess_builds (hr : r.Building) (h : Builds c₀ [n] c) :
    (memberAccess r start n).After c (BuildsOne c₀) := by
  simp only [memberAccess, after_bind, after_atPunct, after_ite, after_node]
  refine After.imp (ident_builds.and ident_isWord) fun name c₁ hname => ?_
  obtain ⟨hname, hword⟩ := hname
  split
  · refine (arguments_builds hr).imp fun args c₂ hargs => ?_
    exact .node rfl ((h.inRole .receiver).cons (hname.cons hargs))
  · split
    · exact .qualifiedName rfl hword ((h.inRole .qualifier).cons hname)
    · exact .node rfl ((h.inRole .receiver).cons hname)

lemma selection_builds (hr : r.Building) (h : Builds c₀ [n] c) :
    (selection r start n).After c (BuildsOne c₀) := by
  have hone := Builds.advance c.advance
  have h' := h.before (.advance c)
  simp only [selection, after_bind, after_bump, after_atKeyword, after_eatKeyword, after_ite,
    after_node, reduceIte, Bool.false_eq_true]
  split
  · have houter : Builds c₀ (some n).toList c.advance := h'
    exact creation_builds hr houter
  · split
    · exact .node rfl ((h'.inRole .qualifier).before hone)
    · split
      · exact .node rfl (((nameAsType_builds h').inRole .type).before hone)
      · exact memberAccess_builds hr h'

lemma arrayAccess_builds (hr : r.Building) (h : Builds c₀ [n] c) :
    (arrayAccess r start n).After c (BuildsOne c₀) := by
  simp only [arrayAccess, after_bind, after_bump, after_node]
  refine (expressionOr_builds hr).imp fun index c₁ hindex => ?_
  refine After.imp expect_builds fun _ c₂ hclose => ?_
  exact .node rfl (((h.inRole .receiver).before (.advance c)).cons (hindex.before hclose))

lemma referencedName_builds : referencedName.After c (BuildsOne c) := by
  simp only [referencedName, after_bind, after_atKeyword, after_ite]
  split
  · next hk =>
    rw [after_leaf]
    exact .leaf (by decide) fun _ => by rw [beq_iff_eq.mp hk]; rfl
  · exact ident_builds

lemma postfixStep_builds (hr : r.Building) (h : Builds c₀ [n] c) :
    (postfixStep r start n).After c fun o c' => Builds c₀ [o.getD n] c' := by
  have hoperand := (h.inRole .operand).before (.advance c)
  simp only [postfixStep, after_bind, after_peek]
  split
  · exact selection_builds hr h
  · exact arrayAccess_builds hr h
  · exact .nodeWithText rfl hoperand
  · exact .nodeWithText rfl hoperand
  · simp only [after_bind, after_bump, after_node, after_pure]
    refine After.imp referencedName_builds fun name c₁ hname => ?_
    exact .node rfl (((h.inRole .receiver).before (.advance c)).cons hname)
  · exact h

lemma joined_builds (hr : r.Building) : (joined r).After c (BuildsOne c) := by
  simp only [joined, after_bind, after_start]
  refine (primary_builds hr).imp fun n c₁ hn => ?_
  exact chain_buildsOne hn fun n' c' hn' => postfixStep_builds hr hn'

/-! ### Operators around operands -/

lemma prefixed_builds {op : Punct} (hr : r.Building) : (prefixed r start op).After c (BuildsOne c) := by
  simp only [prefixed, after_bind, after_bump, after_node, after_pure]
  refine (operandOr_builds (hr.unary _)).imp fun operand c₁ hoperand => ?_
  exact .nodeWithText rfl (.behind (.advance c) hoperand)

lemma tryLambda_builds (hr : r.Building) : (tryLambda r start).After c (BuildsOption c) := by
  simp only [tryLambda, after_bind, after_ite, after_pure]
  refine After.imp atLambda_stays fun b c₁ hstays => ?_
  subst hstays
  split
  · exact lambda_builds hr
  · exact .refl _

lemma opened_builds (hr : r.Building) : (opened r start).After c (BuildsOne c) := by
  simp only [opened, after_bind]
  refine (tryLambda_builds hr).imp fun o c₁ hlambda => ?_
  cases o with
  | some lambda => exact hlambda
  | none =>
    simp only [after_bind]
    refine (tryCast_builds hr).imp fun o c₂ hcast => ?_
    have hcast' := Builds.behind hlambda hcast
    cases o with
    | some cast => exact hcast'
    | none => exact (joined_builds hr).imp fun _ _ hn => .behind hcast' hn

theorem unary_builds (hr : r.Building) : (unary r).After c (BuildsOne c) := by
  simp only [unary, after_bind, after_start, after_peek]
  split
  · exact opened_builds hr
  · rw [after_ite]
    split
    · exact prefixed_builds hr
    · exact joined_builds hr
  · simp only [after_bind, after_atPunct, after_ite, after_bump]
    split
    · refine After.imp ident_builds fun param c₁ hparam => ?_
      exact lambdaBody_builds hr (hparam.before (.advance c₁))
    · exact joined_builds hr
  · exact joined_builds hr

lemma infixStep_builds {least : Nat} (hr : r.Building) (h : Builds c₀ [n] c) :
    (infixStep r start least n).After c fun o c' => Builds c₀ [o.getD n] c' := by
  simp only [infixStep, after_bind]
  refine After.imp infixOperator?_spec fun o c₁ hop => ?_
  obtain ⟨rfl, -⟩ := hop
  rcases o with _ | ⟨strength, op, count⟩
  · exact h
  simp only [after_ite, after_bind, after_pure, after_node]
  split
  · exact h
  refine (bumpAll_builds count).imp fun _ c₂ hbump => ?_
  have h' := (h.inRole .left).before hbump
  split
  · exact After.imp type_builds fun ty c₃ hty => .node rfl (h'.cons hty)
  · exact (operandOr_builds (hr.operation _ _)).imp fun rhs c₃ hrhs => .nodeWithText rfl (h'.cons hrhs)

theorem operation_builds {least : Nat} (hr : r.Building) :
    (operation r least).After c (BuildsOne c) := by
  simp only [operation, after_bind, after_start]
  refine (unary_builds hr).imp fun n c₁ hn => ?_
  exact chain_buildsOne hn fun n' c' hn' => infixStep_builds hr hn'

theorem conditional_builds (hr : r.Building) : (conditional r).After c (BuildsOne c) := by
  simp only [conditional, after_bind, after_start, after_ite, after_node, after_pure]
  refine (operation_builds hr).imp fun condition c₁ hcondition => ?_
  refine After.imp eat_builds fun asked c₂ hquestion => ?_
  split
  · refine (expressionOr_builds hr).imp fun whenTrue c₃ htrue => ?_
    refine After.imp expect_builds fun _ c₄ hcolon => ?_
    refine (operandOr_builds (hr.conditional _)).imp fun whenFalse c₅ hfalse => ?_
    have hhead := (hcondition.inRole .condition).before hquestion
    exact .node rfl (hhead.cons ((htrue.before hcolon).cons hfalse))
  · exact hcondition.before hquestion

theorem expression_builds (hr : r.Building) : (expression r).After c (BuildsOne c) := by
  simp only [expression, after_bind, after_start]
  refine (conditional_builds hr).imp fun lhs c₁ hlhs => ?_
  refine After.imp assignmentOperator?_spec fun o c₂ hop => ?_
  obtain ⟨rfl, -⟩ := hop
  rcases o with _ | ⟨op, count⟩
  · exact hlhs
  simp only [after_bind, after_node, after_pure]
  refine (bumpAll_builds count).imp fun _ c₃ hbump => ?_
  refine (operandOr_builds (hr.expression _)).imp fun rhs c₄ hrhs => ?_
  exact .nodeWithText rfl (((hlhs.inRole .left).before hbump).cons hrhs)

end Shorthand.Parser
