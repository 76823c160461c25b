import Shorthand.Proofs.Building.Types
import Shorthand.Proofs.Reading.Rules

/-!
What the shared pieces of the grammar build.

`Rules.Building r` says that the rules `r` build what they read, wherever they are used. Each lemma of
this module and of the following ones draws the same conclusion for a piece of the grammar that uses
such rules.
-/

namespace Shorthand.Parser

open Cursor

/-- The rules build what they read. A statement is skipped only with a complaint. -/
structure Rules.Building (r : Rules) : Prop where
  expression : ∀ c, r.expression.After c (BuildsOne c)
  conditional : ∀ c, r.conditional.After c (BuildsOne c)
  operation : ∀ least c, (r.operation least).After c (BuildsOne c)
  unary : ∀ c, r.unary.After c (BuildsOne c)
  arrayInitializer : ∀ role c, (r.arrayInitializer role).After c (BuildsOne c)
  statement : ∀ c, r.statement.After c fun o c' =>
    BuildsOption c o c' ∧ (o = none → ¬ Silent c c')
  member : ∀ c, r.member.After c (BuildsOption c)

variable {r : Rules} {c c₀ : Cursor} {role : Role} {what : String} {start : Nat}

lemma expressionOr_builds (hr : r.Building) : (expressionOr r role what).After c (BuildsOne c) := by
  simp only [expressionOr, after_bind, after_atExpression, after_ite, after_pure]
  split
  · exact (hr.expression c).imp fun _ _ h => h.inRole role
  · exact missing_builds

lemma expressionOr_role : (expressionOr r role what).After c fun n _ => n.role = role := by
  simp only [expressionOr, after_bind, after_atExpression, after_ite, after_pure, after_missing]
  split
  · exact rfl
  · exact rfl

lemma operandOr_builds {rule : Parser Node} (hrule : rule.After c (BuildsOne c)) :
    (operandOr rule role).After c (BuildsOne c) := by
  simp only [operandOr, after_bind, after_atExpression, after_ite, after_pure]
  split
  · exact hrule.imp fun _ _ h => h.inRole role
  · exact missing_builds

lemma valueOr_builds (hr : r.Building) : (valueOr r role what).After c (BuildsOne c) := by
  simp only [valueOr, after_bind, after_atPunct, after_ite]
  split
  · exact hr.arrayInitializer role c
  · exact expressionOr_builds hr

lemma arguments_builds (hr : r.Building) : (arguments r).After c (Builds c) := by
  simp only [arguments, after_bind, after_bump, after_eat, after_ite, after_pure, reduceIte,
    Bool.false_eq_true]
  split
  · exact (Builds.advance c).before (.advance _)
  · refine (sepBy1_builds fun _ => expressionOr_builds hr).imp fun ns c₁ hns => ?_
    exact After.imp expect_builds fun _ c₂ h => (Builds.behind (.advance c) hns).before h

lemma arrayInitializer_builds (hr : r.Building) :
    (arrayInitializer r role).After c (BuildsOne c) := by
  simp only [arrayInitializer, after_bind, after_start, after_bump, after_node, after_pure]
  refine (sepUntil_builds (fun _ _ => after_atBodyEnd) fun _ => valueOr_builds hr).imp
    fun ns c₁ hns => ?_
  refine After.imp expect_builds fun _ c₂ h => ?_
  exact .inRole role (.node rfl ((Builds.behind (.advance c) hns).before h))

/-! ### Blocks and class bodies -/

lemma entries_builds {entry : Parser (Option Node)} (hentry : ∀ c, entry.After c (BuildsOption c)) :
    (manyUntil atBodyEnd do return (← entry).map (·.inRole role)).After c (Builds c) := by
  refine manyUntil_builds (fun _ _ => after_atBodyEnd) fun c' => ?_
  simp only [after_bind, after_pure]
  refine (hentry c').imp fun o c₁ ho => ?_
  cases o with
  | none => exact ho
  | some n => exact ho.inRole role

lemma membersIn_builds (hr : r.Building) : (membersIn r).After c (Builds c) :=
  entries_builds hr.member

/-- A block is missing only with a complaint. -/
lemma block_builds (hr : r.Building) : (block r role).After c (BuildsOne c) := by
  simp only [block, after_bind, after_start, after_ite, after_node, after_pure]
  refine After.imp expectAs_builds fun found c₁ hopen => ?_
  split
  · refine (entries_builds fun c' => (hr.statement c').imp fun _ _ h => h.1).imp fun ns c₂ hns => ?_
    refine After.imp expect_builds fun _ c₃ hclose => ?_
    exact .inRole role (.node rfl ((Builds.behind hopen.1 hns).before hclose))
  · next hfound => exact .missing hopen.1 (hopen.2 (Bool.eq_false_iff.mpr hfound))

lemma classBody_builds (hr : r.Building) : (classBody r).After c (Builds c) := by
  simp only [classBody, after_bind, after_ite, after_pure]
  refine After.imp expectAs_builds fun found c₁ hopen => ?_
  split
  · refine (membersIn_builds hr).imp fun ns c₂ hns => ?_
    exact After.imp expect_builds fun _ c₃ hclose => (Builds.behind hopen.1 hns).before hclose
  · exact hopen.1

lemma anonymousBody_builds (hr : r.Building) : (anonymousBody r).After c (Builds c) := by
  simp only [anonymousBody, after_bind, after_atPunct, after_ite, after_start, after_node, after_pure]
  split
  · exact (classBody_builds hr).imp fun ns c₁ hns => .inRole .body (.node rfl hns)
  · exact .refl c

/-! ### Modifiers -/

lemma memberValuePair_builds (hr : r.Building) : (memberValuePair r).After c (BuildsOne c) := by
  simp only [memberValuePair, after_bind, after_start, after_node, after_pure]
  refine After.imp ident_builds fun key c₁ hkey => ?_
  refine After.imp expect_builds fun _ c₂ heq => ?_
  refine (expressionOr_builds hr).imp fun value c₃ hvalue => ?_
  exact .inRole .argument (.node rfl ((hkey.before heq).cons hvalue))

lemma annotationArguments_builds (hr : r.Building) :
    (annotationArguments r).After c fun a c' => Builds c a.2 c' ∧ a.1.isPlain = true := by
  simp only [annotationArguments, after_bind, after_atIdent, after_atPunct, after_ite, after_pure]
  split
  · exact (sepUntil_builds (fun _ _ => after_notAtIdent) fun _ => memberValuePair_builds hr).imp
      fun _ _ hns => ⟨hns, rfl⟩
  · split
    · exact ⟨.refl c, rfl⟩
    · exact (valueOr_builds hr).imp fun _ _ hn => ⟨hn, rfl⟩

lemma annotation_builds (hr : r.Building) : ( annotation r).After c (BuildsOne c) := by
  simp only [ annotation, after_bind, after_start, after_bump, after_ite, after_node, after_pure]
  refine After.imp qualifiedName_builds fun name c₁ hname => ?_
  refine After.imp eat_builds fun opened c₂ hopen => ?_
  have hname' := (Builds.behind (.advance c) hname).before hopen
  split
  · refine (annotationArguments_builds hr).imp fun arguments c₃ harguments => ?_
    refine After.imp expect_builds fun _ c₄ hclose => ?_
    exact .inRole .modifier (.node harguments.2 ((hname'.cons harguments.1).before hclose))
  · exact .inRole .modifier (.node rfl hname')

lemma modifier?_builds (hr : r.Building) : (modifier? r).After c (BuildsOption c) := by
  simp only [modifier?, after_bind, after_peek]
  split
  · next k hk =>
    rw [after_ite]
    split
    · exact leaf_builds (by decide) (by decide)
    · exact .refl c
  · simp only [after_bind, after_atKeyword, after_ite, after_pure]
    split
    · exact .refl c
    · exact annotation_builds hr
  · exact .refl c

lemma modifiers_builds (hr : r.Building) : (modifiers r).After c (Builds c) := by
  refine chain_builds (.refl c) (fun _ _ h => h.stalls) fun ns c' hns => ?_
  simp only [modifiers.step, after_bind, after_pure]
  refine (modifier?_builds hr).imp fun o c₁ ho => ?_
  cases o with
  | none => exact hns.before ho
  | some n => exact hns.append ho

/-! ### Declared variables -/

lemma catchType_builds : catchType.After c (BuildsOne c) := by
  simp only [catchType, after_bind, after_start, after_ite, after_node, after_pure]
  refine After.imp type_builds fun first c₁ hfirst => ?_
  refine After.imp eat_builds fun more c₂ hbar => ?_
  split
  · refine (sepBy1_builds fun _ => type_builds).imp fun others c₃ hothers => ?_
    exact .inRole .type (.node rfl (hfirst.cons (.behind hbar hothers)))
  · exact hfirst.before hbar

lemma parameterName_builds : parameterName.After c (BuildsOne c) := by
  simp only [parameterName, after_bind, after_atIdent, after_ite]
  split
  · exact ident_builds
  · exact missing_builds

/-- A parameter is made of what stands before its name, and its name is read. -/
lemma parameterRest_made {before : List Node} :
    (parameterRest start before).After c fun n c' => ∃ name span text,
      n = ⟨.singleVariableDeclaration, .parameter, span, text, before ++ [name]⟩
        ∧ Builds c [name] c' := by
  simp only [parameterRest, after_bind, after_node, after_pure]
  refine After.imp eat_builds fun varargs c₁ hdots => ?_
  refine After.imp parameterName_builds fun name c₂ hname => ?_
  cases varargs with
  | true => exact ⟨name, _, _, rfl, .behind hdots hname⟩
  | false => exact ⟨name, _, _, rfl, .behind hdots hname⟩

lemma parameterRest_builds {before : List Node} (h : Builds c₀ before c) :
    (parameterRest start before).After c (BuildsOne c₀) := by
  refine parameterRest_made.imp fun n c' hn => ?_
  obtain ⟨name, span, text, rfl, hname⟩ := hn
  exact .nodeInRole rfl (h.append hname)

lemma parameter_builds (hr : r.Building) : (parameter r).After c (BuildsOne c) := by
  simp only [parameter, after_bind, after_start]
  refine (modifiers_builds hr).imp fun ms c₁ hms => ?_
  exact After.imp type_builds fun ty c₂ hty => parameterRest_builds (hms.append hty)

/-- The parameter of a catch clause is built, or all of it but its type, which is missing. -/
def BuildsCatchParameter (c : Cursor) (n : Node) (c' : Cursor) : Prop :=
  Builds c [n] c' ∨ ∃ modifiers name offset span text,
    n = ⟨.singleVariableDeclaration, .parameter, span, text,
      modifiers ++ [.missing .type offset, name]⟩ ∧ Builds c (modifiers ++ [name]) c'

lemma catchParameter_builds (hr : r.Building) :
    (catchParameter r).After c (BuildsCatchParameter c) := by
  simp only [catchParameter, after_bind, after_start]
  refine (modifiers_builds hr).imp fun ms c₁ hms => ?_
  simp only [catchParameterType, after_bind, after_atIdent, after_atPunct, after_isAt, after_pure,
    after_ite, after_start]
  split
  · refine parameterRest_made.imp fun n c₂ hn => .inr ?_
    obtain ⟨name, span, text, rfl, hname⟩ := hn
    exact ⟨ms, name, _, span, text, by rw [List.append_assoc]; rfl, hms.append hname⟩
  · refine After.imp catchType_builds fun ty c₂ hty => ?_
    exact (parameterRest_builds (hms.append hty)).imp fun _ _ hn => .inl hn

lemma variableFragment_builds (hr : r.Building) : (variableFragment r).After c (BuildsOne c) := by
  simp only [variableFragment, after_bind, after_start, after_node, after_pure]
  refine After.imp ident_builds fun name c₁ hname => ?_
  refine After.imp skipEmptyBrackets_builds fun _ c₂ hbrackets => ?_
  refine (itemIf_builds eat_builds fun _ => valueOr_builds hr).imp fun value c₃ hvalue => ?_
  exact .inRole .fragment (.node rfl ((hname.before hbrackets).cons hvalue))

lemma variableFragments_builds (hr : r.Building) : (variableFragments r).After c (Builds c) :=
  sepBy1_builds fun _ => variableFragment_builds hr

end Shorthand.Parser
