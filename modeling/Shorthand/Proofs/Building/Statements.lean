import Shorthand.Proofs.Building.Declarations
import Shorthand.Proofs.Building.Expressions
import Shorthand.Proofs.Reading.Statements

/-!
What the rules for statements build.
-/

namespace Shorthand.Parser

open Cursor

variable {r : Rules} {c c₀ : Cursor} {role : Role} {before : List Node} {start : Nat}

/-! ### Pieces of statements -/

/-- A statement in another one is missing only where a token was skipped with a complaint. -/
lemma subStatement_builds (hr : r.Building) : (subStatement r role).After c (BuildsOne c) := by
  simp only [subStatement, after_bind, after_start]
  refine (hr.statement c).imp fun o c₁ ho => ?_
  cases o with
  | some s => exact ho.1.inRole role
  | none => exact .missing ho.1 (ho.2 rfl)

lemma subStatement_role : (subStatement r role).After c fun n _ => n.role = role := by
  simp only [subStatement, after_bind, after_start]
  refine After.imp (Q := fun _ _ => True) trivial fun o c₁ _ => ?_
  cases o with
  | some s => exact rfl
  | none => exact rfl

/-- Something between parentheses, which may not be there. -/
lemma inParens_builds {inner : Parser Node} (hinner : ∀ c, inner.After c (BuildsOne c)) :
    (do expect .openParen; let n ← inner; expect .closeParen; return n : Parser Node).After c
      (BuildsOne c) := by
  simp only [after_bind, after_pure]
  refine After.imp expect_builds fun _ c₁ hopen => ?_
  refine (hinner c₁).imp fun n c₂ hn => ?_
  exact After.imp expect_builds fun _ c₃ hclose => (Builds.behind hopen hn).before hclose

lemma parenthesizedCondition_builds (hr : r.Building) :
    (parenthesizedCondition r).After c (BuildsOne c) :=
  inParens_builds fun _ => expressionOr_builds hr

lemma parenthesizedCondition_role :
    (parenthesizedCondition r).After c fun n _ => n.role = .condition :=
  expressionOr_role

lemma parenthesized_builds (hr : r.Building) : (parenthesized r).After c (BuildsOne c) :=
  inParens_builds fun _ => expressionOr_builds hr

/-- What stands before the names of local variables is undone if it was only tried. -/
lemma tryLocalHead_builds (hr : r.Building) :
    (tryLocalHead r).After c fun o c' => Builds c (o.getD []) c' := by
  simp only [tryLocalHead, after_bind, after_get]
  refine (modifiers_builds hr).imp fun ms c₁ hms => ?_
  refine After.imp tryType_builds fun o c₂ ho => ?_
  have hall := hms.append ho
  cases o with
  | some ty =>
    simp only [after_bind, after_atIdent, after_ite, after_pure, after_rewind]
    split
    · exact hall
    · exact hall.backTo
  | none =>
    simp only [after_bind, after_ite, after_pure, after_rewind]
    split
    · exact hall.backTo
    · exact After.imp missing_builds fun ty c₃ hty => (hms.before ho).append hty

/-! ### Branches and loops -/

lemma ifStatement_builds (hr : r.Building) : (ifStatement r start).After c (BuildsOne c) := by
  simp only [ifStatement, after_bind, after_bump, after_node, after_pure]
  refine (After.and (parenthesizedCondition_builds hr) parenthesizedCondition_role).imp
    fun condition c₁ hcondition => ?_
  refine (After.and (subStatement_builds hr) subStatement_role).imp fun whenTrue c₂ htrue => ?_
  have hhead := (Builds.behind (.advance c) hcondition.1).cons htrue.1
  rw [after_itemIf]
  refine After.imp eatKeyword_builds fun found c₃ helse => ?_
  split
  · refine (After.and (subStatement_builds hr) subStatement_role).imp fun whenFalse c₄ hfalse => ?_
    exact .arranged (by simp [hcondition.2, htrue.2, hfalse.2, Kind.arrangements])
      (hhead.append (.behind helse hfalse.1))
  · exact .arranged (by simp [hcondition.2, htrue.2, Kind.arrangements]) (hhead.before helse)

lemma whileStatement_builds (hr : r.Building) : (whileStatement r start).After c (BuildsOne c) := by
  simp only [whileStatement, after_bind, after_bump, after_node]
  refine (parenthesizedCondition_builds hr).imp fun condition c₁ hcondition => ?_
  refine (subStatement_builds hr).imp fun body c₂ hbody => ?_
  exact .node rfl ((Builds.behind (.advance c) hcondition).cons hbody)

/-- The condition behind a body is missing only with a complaint about its keyword. -/
lemma conditionBehind_builds (hr : r.Building) : (conditionBehind r).After c (BuildsOne c) := by
  simp only [conditionBehind, after_bind, after_ite, after_start, after_pure]
  refine After.imp expectKeyword_builds fun found c₁ hkeyword => ?_
  split
  · exact (parenthesizedCondition_builds hr).imp fun _ _ h => .behind hkeyword.1 h
  · next hfound => exact .missing hkeyword.1 (hkeyword.2 (Bool.eq_false_iff.mpr hfound))

lemma doStatement_builds (hr : r.Building) : (doStatement r start).After c (BuildsOne c) := by
  simp only [doStatement, after_bind, after_bump, after_node]
  refine (subStatement_builds hr).imp fun body c₁ hbody => ?_
  refine (conditionBehind_builds hr).imp fun condition c₂ hcondition => ?_
  refine After.imp expect_builds fun _ c₃ hsemi => ?_
  exact .node rfl ((Builds.behind (.advance c) hbody).cons (hcondition.before hsemi))

lemma enhancedFor_builds {initStart : Nat} {head : List Node} (hr : r.Building)
    (h : Builds c₀ head c) : (enhancedFor r start initStart head).After c (BuildsOne c₀) := by
  simp only [enhancedFor, after_bind, after_node, after_bump]
  refine After.imp ident_builds fun name c₁ hname => ?_
  refine (After.and (expressionOr_builds hr) expressionOr_role).imp fun iterable c₂ hiterable => ?_
  refine After.imp expect_builds fun _ c₃ hclose => ?_
  refine (After.and (subStatement_builds hr) subStatement_role).imp fun body c₄ hbody => ?_
  have helement : Builds c₀ [⟨.singleVariableDeclaration, .parameter, c₁.spanSince initStart, none,
      head ++ [name]⟩] c₁ := .nodeInRole rfl (h.append hname)
  exact .arranged (by simp [Node.inRole, hiterable.2, hbody.2, Kind.arrangements])
    ((helement.before (.advance c₁)).cons ((hiterable.1.before hclose).cons hbody.1))

lemma classicFor_builds {init : List Node} (hr : r.Building) (h : Builds c₀ init c) :
    (classicFor r start init).After c (BuildsOne c₀) := by
  simp only [classicFor, after_bind, after_node]
  refine After.imp expect_builds fun _ c₁ hsemi => ?_
  refine (itemIf_builds (after_notAtPunct.mpr (.refl c₁)) fun _ => expressionOr_builds hr).imp
    fun condition c₂ hcondition => ?_
  refine After.imp expect_builds fun _ c₃ hsemi' => ?_
  refine (itemsIf_builds (after_notAtPunct.mpr (.refl c₃))
    fun _ => sepBy1_builds fun _ => expressionOr_builds hr).imp fun updates c₄ hupdates => ?_
  refine After.imp expect_builds fun _ c₅ hclose => ?_
  refine (subStatement_builds hr).imp fun body c₆ hbody => ?_
  have hhead := ((h.before hsemi).append hcondition).before hsemi'
  exact .node rfl (((hhead.append hupdates).before hclose).append hbody)

lemma forStatement_builds (hr : r.Building) : (forStatement r start).After c (BuildsOne c) := by
  simp only [forStatement, after_bind, after_bump, after_start]
  refine After.imp expect_builds fun _ c₁ hopen => ?_
  have hopen' := (Builds.advance c).before hopen
  refine (tryLocalHead_builds hr).imp fun o c₂ ho => ?_
  have ho' := Builds.behind hopen' ho
  cases o with
  | some head =>
    simp only [after_bind, after_atIdent, after_atPunct, after_ite, after_node]
    split
    · exact enhancedFor_builds hr ho'
    · refine (variableFragments_builds hr).imp fun fragments c₃ hfragments => ?_
      refine classicFor_builds hr (.inRole .init (.node rfl ?_))
      exact ho'.append hfragments
  | none =>
    simp only [after_bind]
    refine (itemsIf_builds (after_notAtPunct.mpr (.refl c₂))
      fun _ => sepBy1_builds fun _ => expressionOr_builds hr).imp fun init c₃ hinit => ?_
    exact classicFor_builds hr (Builds.behind ho' hinit)

/-! ### Switches -/

lemma caseLabel_builds (hr : r.Building) : (caseLabel r).After c (BuildsOne c) := by
  simp only [caseLabel, after_bind, after_atPunct, after_ite]
  split
  · exact missing_builds
  · exact expressionOr_builds hr

lemma switchEntry_builds (hr : r.Building) : (switchEntry r).After c (BuildsOption c) := by
  simp only [switchEntry, after_bind, after_start, after_eatKeyword, after_ite, after_node,
    after_pure, reduceIte, Bool.false_eq_true]
  split
  · refine (caseLabel_builds hr).imp fun label c₁ hlabel => ?_
    refine After.imp expect_builds fun _ c₂ hcolon => ?_
    exact .inRole .statement (.node rfl ((Builds.behind (.advance c) hlabel).before hcolon))
  · split
    · refine After.imp expect_builds fun _ c₁ hcolon => ?_
      exact .inRole .statement (.nodeWithText rfl ((Builds.advance c).before hcolon))
    · refine (hr.statement c).imp fun o c₁ ho => ?_
      cases o with
      | none => exact ho.1
      | some s => exact ho.1.inRole .statement

lemma switchStatement_builds (hr : r.Building) : (switchStatement r start).After c (BuildsOne c) := by
  simp only [switchStatement, switchEntries, after_bind, after_bump, after_ite, after_pure, after_node]
  refine (parenthesized_builds hr).imp fun selector c₁ hselector => ?_
  have hselector' := Builds.behind (.advance c) hselector
  refine After.imp expectAs_builds fun found c₂ hopen => ?_
  split
  · refine (manyUntil_builds (fun _ _ => after_atBodyEnd) fun _ => switchEntry_builds hr).imp
      fun entries c₃ hentries => ?_
    refine After.imp expect_builds fun _ c₄ hclose => ?_
    exact .node rfl (hselector'.cons ((Builds.behind hopen.1 hentries).before hclose))
  · exact .node rfl (hselector'.cons hopen.1)

/-! ### Exceptions -/

lemma resource_builds (hr : r.Building) : (resource r).After c (BuildsOne c) := by
  simp only [resource, after_bind, after_start]
  refine (tryLocalHead_builds hr).imp fun o c₁ ho => ?_
  cases o with
  | some head =>
    simp only [after_bind, after_node, after_pure]
    refine (variableFragments_builds hr).imp fun fragments c₂ hfragments => ?_
    exact .nodeInRole rfl (Builds.append ho hfragments)
  | none => exact (expressionOr_builds hr).imp fun _ _ h => .behind ho h

lemma catchClause_builds (hr : r.Building) : (catchClause r).After c (BuildsOne c) := by
  simp only [catchClause, after_bind, after_start, after_bump, after_node, after_pure]
  refine After.imp expect_builds fun _ c₁ hopen => ?_
  have hopen' := (Builds.advance c).before hopen
  refine (catchParameter_builds hr).imp fun parameter c₂ hparameter => ?_
  refine After.imp expect_builds fun _ c₃ hclose => ?_
  refine (block_builds hr).imp fun body c₄ hbody => ?_
  have hrest := Builds.behind hclose hbody
  rcases hparameter with hparameter | ⟨modifiers, name, offset, span, text, rfl, hparameter⟩
  · exact .inRole .catchClause (.node rfl ((Builds.behind hopen' hparameter).cons hrest))
  · refine .inRole .catchClause (.untypedCatch ?_)
    simpa using (Builds.behind hopen' hparameter).append hrest

lemma resources_builds (hr : r.Building) : (resources r).After c (Builds c) := by
  simp only [resources, after_bind, after_ite, after_pure]
  refine After.imp eat_builds fun opened c₁ hopen => ?_
  split
  · refine (sepUntil_builds (fun _ _ => after_atParenEnd) fun _ => resource_builds hr).imp
      fun ns c₂ hns => ?_
    exact After.imp expect_builds fun _ c₃ hclose => (Builds.behind hopen hns).before hclose
  · exact hopen

lemma tryStatement_builds (hr : r.Building) : (tryStatement r start).After c (BuildsOne c) := by
  simp only [tryStatement, after_bind, after_bump, after_node]
  refine (resources_builds hr).imp fun resources c₁ hresources => ?_
  refine (block_builds hr).imp fun body c₂ hbody => ?_
  refine (manyUntil_builds (fun _ _ => after_notAtCatch) fun c' => ?_).imp fun clauses c₃ hclauses => ?_
  · rw [after_map]
    exact catchClause_builds hr
  · refine (itemIf_builds eatKeyword_builds fun _ => block_builds hr).imp fun last c₄ hlast => ?_
    have hhead := Builds.behind (.advance c) hresources
    exact .node rfl ((hhead.append (hbody.cons hclauses)).append hlast)

/-! ### Simple statements -/

lemma returnStatement_builds (hr : r.Building) : (returnStatement r start).After c (BuildsOne c) := by
  simp only [returnStatement, after_bind, after_bump, after_node]
  refine (itemIf_builds (after_atExpression.mpr (.refl _)) fun c' => ?_).imp fun value c₁ hvalue => ?_
  · exact (hr.expression c').imp fun _ _ h => h.inRole .expression
  · refine After.imp expect_builds fun _ c₂ hsemi => ?_
    exact .node rfl ((Builds.behind (.advance c) hvalue).before hsemi)

lemma jumpStatement_builds {kind : Kind} (hkind : kind.isPlain = true) :
    (jumpStatement kind start).After c (BuildsOne c) := by
  simp only [jumpStatement, after_bind, after_bump, after_node]
  refine (itemIf_builds (after_atIdent.mpr (.refl _)) fun _ => ident_builds).imp
    fun label c₁ hlabel => ?_
  refine After.imp expect_builds fun _ c₂ hsemi => ?_
  exact .node hkind ((Builds.behind (.advance c) hlabel).before hsemi)

lemma throwStatement_builds (hr : r.Building) : (throwStatement r start).After c (BuildsOne c) := by
  simp only [throwStatement, after_bind, after_bump, after_node]
  refine (expressionOr_builds hr).imp fun thrown c₁ hthrown => ?_
  refine After.imp expect_builds fun _ c₂ hsemi => ?_
  exact .node rfl ((Builds.behind (.advance c) hthrown).before hsemi)

lemma synchronizedStatement_builds (hr : r.Building) :
    (synchronizedStatement r start).After c (BuildsOne c) := by
  simp only [synchronizedStatement, after_bind, after_bump, after_node]
  refine (parenthesized_builds hr).imp fun lock c₁ hlock => ?_
  refine (block_builds hr).imp fun body c₂ hbody => ?_
  exact .node rfl ((Builds.behind (.advance c) hlock).cons hbody)

lemma assertStatement_builds (hr : r.Building) : (assertStatement r start).After c (BuildsOne c) := by
  simp only [assertStatement, after_bind, after_bump, after_node]
  refine (expressionOr_builds hr).imp fun condition c₁ hcondition => ?_
  refine (itemIf_builds eat_builds fun _ => expressionOr_builds hr).imp fun message c₂ hmessage => ?_
  refine After.imp expect_builds fun _ c₃ hsemi => ?_
  exact .node rfl ((Builds.behind (.advance c) hcondition).cons (hmessage.before hsemi))

lemma constructorCall_builds {kind : Kind} (hr : r.Building) (hkind : kind.isPlain = true) :
    (constructorCall r kind start).After c (BuildsOne c) := by
  simp only [constructorCall, after_bind, after_bump, after_node]
  refine (arguments_builds hr).imp fun args c₁ hargs => ?_
  refine After.imp expect_builds fun _ c₂ hsemi => ?_
  exact .node hkind ((Builds.behind (.advance c) hargs).before hsemi)

lemma labeledStatement_builds (hr : r.Building) : (labeledStatement r start).After c (BuildsOne c) := by
  simp only [labeledStatement, after_bind, after_bump, after_node]
  refine After.imp ident_builds fun label c₁ hlabel => ?_
  refine (subStatement_builds hr).imp fun body c₂ hbody => ?_
  exact .node rfl ((hlabel.before (.advance c₁)).cons hbody)

lemma plainStatement_builds (hr : r.Building) : (plainStatement r start).After c (BuildsOne c) := by
  simp only [plainStatement, after_bind, after_atTypeDeclaration, after_ite, after_node]
  split
  · exact (typeDeclaration_builds hr).imp fun n c₁ hn => .node rfl (hn.inRole .member)
  · refine (tryLocalHead_builds hr).imp fun o c₁ ho => ?_
    cases o with
    | some head =>
      simp only [after_bind, after_node]
      refine (variableFragments_builds hr).imp fun fragments c₂ hfragments => ?_
      refine After.imp expect_builds fun _ c₃ hsemi => ?_
      exact .node rfl (Builds.append ho (hfragments.before hsemi))
    | none =>
      simp only [after_bind, statedExpression, after_atExpression, after_ite, after_pure, after_node]
      split
      · refine (expression_builds hr).imp fun e c₂ he => ?_
        refine After.imp expect_builds fun _ c₃ hsemi => ?_
        exact .node rfl ((Builds.behind ho (he.inRole .expression)).before hsemi)
      · refine After.imp missing_builds fun e c₂ he => ?_
        exact After.imp expect_builds fun _ c₃ hsemi => .node rfl ((Builds.behind ho he).before hsemi)

/-! ### All statements -/

lemma keywordStatement_builds {k : Keyword} (hr : r.Building) :
    (keywordStatement r start k).After c (BuildsOne c) := by
  unfold keywordStatement
  split
  case h_1 => exact ifStatement_builds hr
  case h_2 => exact whileStatement_builds hr
  case h_3 => exact doStatement_builds hr
  case h_4 => exact forStatement_builds hr
  case h_5 => exact switchStatement_builds hr
  case h_6 => exact returnStatement_builds hr
  case h_7 => exact jumpStatement_builds rfl
  case h_8 => exact jumpStatement_builds rfl
  case h_9 => exact throwStatement_builds hr
  case h_10 => exact tryStatement_builds hr
  case h_11 => exact assertStatement_builds hr
  case h_12 =>
    simp only [after_bind, after_atPunct, after_ite]
    split
    · exact synchronizedStatement_builds hr
    · exact plainStatement_builds hr
  case h_13 =>
    simp only [after_bind, after_atPunct, after_ite]
    split
    · exact constructorCall_builds hr rfl
    · exact plainStatement_builds hr
  case h_14 =>
    simp only [after_bind, after_atPunct, after_ite]
    split
    · exact constructorCall_builds hr rfl
    · exact plainStatement_builds hr
  case h_15 => exact plainStatement_builds hr

/-- A statement is built, or a token is skipped with a complaint. -/
theorem statement_builds (hr : r.Building) :
    (statement r).After c fun o c' => BuildsOption c o c' ∧ (o = none → ¬ Silent c c') := by
  have hread {n : Node} {c' : Cursor} (h : Builds c [n] c') :
      BuildsOption c (some n) c' ∧ (some n = none → ¬ Silent c c') := ⟨h, by simp⟩
  simp only [statement, after_bind, after_start, after_peek, after_ite, after_unexpected, after_bump,
    after_pure]
  split
  · have hcomplaint : Builds c [] (c.complain (c.complaint "statement")) := .complain c _
    have hwrong := not_silent_complain c (c.complaint "statement")
    split
    · refine ⟨hcomplaint.before (.advance _), fun _ hs => hwrong ?_⟩
      exact hcomplaint.later.silent_left (Builds.advance _).later hs
    · exact ⟨hcomplaint, fun _ => hwrong⟩
  · split
    · simp only [after_bind, after_pure]
      exact (block_builds hr).imp fun _ _ => hread
    · exact hread (.node rfl (.advance c))
    · simp only [after_bind, after_pure]
      exact (keywordStatement_builds hr).imp fun _ _ => hread
    · simp only [after_bind, after_atPunct, after_ite, after_pure]
      split
      · exact (labeledStatement_builds hr).imp fun _ _ => hread
      · exact (plainStatement_builds hr).imp fun _ _ => hread
    · simp only [after_bind, after_pure]
      exact (plainStatement_builds hr).imp fun _ _ => hread

end Shorthand.Parser
