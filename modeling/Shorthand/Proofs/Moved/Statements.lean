import Shorthand.Proofs.Moved.Declarations
import Shorthand.Proofs.Moved.Expressions

/-!
Reading statements in two places.

The head of a declaration of variables is tried, and where there is none reading goes back to the same
place among the tokens (`tryLocalHead_alike`).
-/

namespace Shorthand.Parser

open Node

variable {s : Places} {r q : Rules} {first second : Nat} {ns ms : List Node}

lemma notAtCatch_alike : Alike s Eq notAtCatch notAtCatch :=
  .look (atKeyword_alike 0 .catchKw) fun _ => .pure rfl

lemma jumpStatement_alike (kind : Kind) :
    Alike s Same (jumpStatement kind first) (jumpStatement kind second) := by
  refine .andThen bump_alike fun _ _ => ?_
  refine .bind (itemIf_alike (atIdent_alike 0) (ident_alike .label)) fun ns ms hns => ?_
  exact .look (expect_alike .semi) fun _ => node_alike hns

section Over

variable (h : r.Alike s q)

include h

/-! ### Pieces of statements -/

lemma subStatement_alike (role : Role) : Alike s Same (subStatement r role) (subStatement q role) :=
  .andThen start_alike fun _ _ => .option h.statement (fun _ _ h => .pure (h.inRole role))
    (.pure (.mk (.refl [])))

lemma parenthesizedCondition_alike :
    Alike s Same (parenthesizedCondition r) (parenthesizedCondition q) := by
  refine .look (expect_alike .openParen) fun _ => ?_
  refine .bind (expressionOr_alike h .condition _) fun n m hnm => ?_
  exact .look (expect_alike .closeParen) fun _ => .pure hnm

lemma parenthesized_alike : Alike s Same (parenthesized r) (parenthesized q) := by
  refine .look (expect_alike .openParen) fun _ => ?_
  refine .bind (expressionOr_alike h .expression _) fun n m hnm => ?_
  exact .look (expect_alike .closeParen) fun _ => .pure hnm

lemma tryLocalHead_alike : Alike s (Option.Rel SameAll) (tryLocalHead r) (tryLocalHead q) := by
  refine .bind get_alike fun before before' hbefore => ?_
  have hback : Alike s (Option.Rel SameAll) (do rewind before; return none)
      (do rewind before'; return none) :=
    .look (rewind_alike hbefore) fun _ => .pure .none
  refine .bind (modifiers_alike h) fun ns ms hns => .option tryType_alike (fun n m hnm => ?_) ?_
  · refine .look (atIdent_alike 0) fun _ => ?_
    rw [hns.isEmpty_eq]
    exact .ite (.pure (.some (hns.append (.one hnm)))) hback
  · rw [hns.isEmpty_eq]
    refine .ite hback (.bind (missing_alike .type "type") fun n m hnm => ?_)
    exact .pure (.some (hns.append (.one hnm)))

/-! ### Branches and loops -/

lemma ifStatement_alike : Alike s Same (ifStatement r first) (ifStatement q second) := by
  refine .andThen bump_alike fun _ _ => ?_
  refine .bind (parenthesizedCondition_alike h) fun condition condition' hcondition => ?_
  refine .bind (subStatement_alike h .thenBranch) fun yes yes' hyes => ?_
  have hno := itemIf_alike (eatKeyword_alike .elseKw) (subStatement_alike h .elseBranch)
  refine .bind hno fun no no' hno => ?_
  refine .bind (node_alike (.cons hcondition (.cons hyes hno))) fun n m hnm => ?_
  exact .pure (hnm.withRange _ _)

lemma whileStatement_alike : Alike s Same (whileStatement r first) (whileStatement q second) := by
  refine .andThen bump_alike fun _ _ => ?_
  refine .bind (parenthesizedCondition_alike h) fun condition condition' hcondition => ?_
  refine .bind (subStatement_alike h .body) fun body body' hbody => ?_
  exact node_alike (.cons hcondition (.one hbody))

lemma conditionBehind_alike : Alike s Same (conditionBehind r) (conditionBehind q) := by
  refine .look (expectKeyword_alike .whileKw) fun _ => .ite (parenthesizedCondition_alike h) ?_
  exact .andThen start_alike fun _ _ => .pure (.mk (.refl []))

lemma doStatement_alike : Alike s Same (doStatement r first) (doStatement q second) := by
  refine .andThen bump_alike fun _ _ => .bind (subStatement_alike h .body) fun body body' hbody => ?_
  refine .bind (conditionBehind_alike h) fun condition condition' hcondition => ?_
  exact .look (expect_alike .semi) fun _ => node_alike (.cons hbody (.one hcondition))

lemma enhancedFor_alike {initFirst initSecond : Nat} (hns : SameAll ns ms) :
    Alike s Same (enhancedFor r first initFirst ns) (enhancedFor q second initSecond ms) := by
  refine .bind (ident_alike .name) fun name name' hname => ?_
  refine .bind (node_alike (hns.append (.one hname))) fun element element' helement => ?_
  refine .andThen bump_alike fun _ _ => ?_
  refine .bind (expressionOr_alike h .expression _) fun n m hnm => ?_
  refine .look (expect_alike .closeParen) fun _ => ?_
  refine .bind (subStatement_alike h .body) fun body body' hbody => ?_
  exact node_alike (.cons (helement.inRole .parameter) (.cons hnm (.one hbody)))

lemma classicFor_alike (hns : SameAll ns ms) :
    Alike s Same (classicFor r first ns) (classicFor q second ms) := by
  refine .look (expect_alike .semi) fun _ => ?_
  have hcondition := itemIf_alike (notAtPunct_alike .semi) (expressionOr_alike h .condition "condition")
  refine .bind hcondition fun condition condition' hcondition => ?_
  refine .look (expect_alike .semi) fun _ => ?_
  have hupdates := itemsIf_alike (notAtPunct_alike .closeParen)
    (sepBy1_alike .comma (expressionOr_alike h .update "expression"))
  refine .bind hupdates fun updates updates' hupdates => ?_
  refine .look (expect_alike .closeParen) fun _ => ?_
  refine .bind (subStatement_alike h .body) fun body body' hbody => ?_
  exact node_alike (((hns.append hcondition).append hupdates).append (.one hbody))

lemma forStatement_alike : Alike s Same (forStatement r first) (forStatement q second) := by
  refine .andThen bump_alike fun _ _ => .look (expect_alike .openParen) fun _ => ?_
  refine .andThen start_alike fun initFirst initSecond => ?_
  refine .option (tryLocalHead_alike h) (fun ns ms hns => ?_) ?_
  · refine .look (atIdent_alike 0) fun _ => .look (atPunct_alike 1 .colon) fun _ => ?_
    refine .ite (enhancedFor_alike h hns) ?_
    refine .bind (variableFragments_alike h) fun fragments fragments' hfragments => ?_
    refine .bind (node_alike (hns.append hfragments)) fun n m hnm => ?_
    exact classicFor_alike h (.one (hnm.inRole .init))
  · have hinit := itemsIf_alike (notAtPunct_alike .semi)
      (sepBy1_alike .comma (expressionOr_alike h .init "expression"))
    exact .bind hinit fun _ _ hinit => classicFor_alike h hinit

/-! ### Switches -/

lemma caseLabel_alike : Alike s Same (caseLabel r) (caseLabel q) :=
  .look (atPunct_alike 0 .colon) fun _ =>
    .ite (missing_alike .expression "case label") (expressionOr_alike h .expression "case label")

lemma switchEntry_alike : Alike s (Option.Rel Same) (switchEntry r) (switchEntry q) := by
  refine .andThen start_alike fun first second => .look (eatKeyword_alike .caseKw) fun _ => ?_
  refine .ite (.bind (caseLabel_alike h) fun n m hnm => ?_) ?_
  · refine .look (expect_alike .colon) fun _ => ?_
    exact .bind (node_alike (.one hnm)) fun _ _ h => .pure (.some (h.inRole .statement))
  refine .look (eatKeyword_alike .defaultKw) fun _ => .ite ?_ (optionIn_alike h.statement .statement)
  refine .look (expect_alike .colon) fun _ => .bind (node_alike (.refl [])) fun n m hnm => ?_
  exact .pure (.some ((hnm.withText _).inRole .statement))

lemma switchEntries_alike : Alike s SameAll (switchEntries r) (switchEntries q) := by
  refine .look (expectAs_alike .openBrace _) fun _ => .ite ?_ (.pure (.refl []))
  refine .bind (manyUntil_alike atBodyEnd_alike (switchEntry_alike h)) fun ns ms hns => ?_
  exact .look (expect_alike .closeBrace) fun _ => .pure hns

lemma switchStatement_alike : Alike s Same (switchStatement r first) (switchStatement q second) := by
  refine .andThen bump_alike fun _ _ => .bind (parenthesized_alike h) fun n m hnm => ?_
  exact .bind (switchEntries_alike h) fun _ _ hns => node_alike (.cons hnm hns)

/-! ### Exceptions -/

lemma resource_alike : Alike s Same (resource r) (resource q) := by
  refine .andThen start_alike fun first second => ?_
  refine .option (tryLocalHead_alike h) (fun ns ms hns => ?_) (expressionOr_alike h .resource _)
  exact .bind (variableFragments_alike h) fun _ _ hfragments => nodeIn_alike (hns.append hfragments)

lemma catchClause_alike : Alike s Same (catchClause r) (catchClause q) := by
  refine .andThen start_alike fun first second => .andThen bump_alike fun _ _ => ?_
  refine .look (expect_alike .openParen) fun _ => ?_
  refine .bind (catchParameter_alike h) fun n m hnm => .look (expect_alike .closeParen) fun _ => ?_
  exact .bind (block_alike h .body) fun _ _ hbody => nodeIn_alike (.cons hnm (.one hbody))

lemma resources_alike : Alike s SameAll (resources r) (resources q) := by
  refine .look (eat_alike .openParen) fun _ => .ite ?_ (.pure (.refl []))
  refine .bind (sepUntil_alike _ atParenEnd_alike (resource_alike h)) fun ns ms hns => ?_
  exact .look (expect_alike .closeParen) fun _ => .pure hns

lemma tryStatement_alike : Alike s Same (tryStatement r first) (tryStatement q second) := by
  refine .andThen bump_alike fun _ _ => .bind (resources_alike h) fun ns ms hns => ?_
  refine .bind (block_alike h .body) fun body body' hbody => ?_
  have hclauses := manyUntil_alike notAtCatch_alike (Alike.some (catchClause_alike h))
  refine .bind hclauses fun clauses clauses' hclauses => ?_
  have hlast := itemIf_alike (eatKeyword_alike .finallyKw) (block_alike h .finallyBlock)
  refine .bind hlast fun last last' hlast => ?_
  exact node_alike ((hns.append (.cons hbody hclauses)).append hlast)

/-! ### Simple statements -/

lemma returnStatement_alike : Alike s Same (returnStatement r first) (returnStatement q second) := by
  refine .andThen bump_alike fun _ _ => ?_
  have hvalue := itemIf_alike atExpression_alike
    (Alike.bind h.expression fun _ _ h => .pure (h.inRole .expression))
  exact .bind hvalue fun _ _ hvalue => .look (expect_alike .semi) fun _ => node_alike hvalue

lemma throwStatement_alike : Alike s Same (throwStatement r first) (throwStatement q second) := by
  refine .andThen bump_alike fun _ _ => ?_
  refine .bind (expressionOr_alike h .expression _) fun n m hnm => ?_
  exact .look (expect_alike .semi) fun _ => node_alike (.one hnm)

lemma synchronizedStatement_alike :
    Alike s Same (synchronizedStatement r first) (synchronizedStatement q second) := by
  refine .andThen bump_alike fun _ _ => .bind (parenthesized_alike h) fun n m hnm => ?_
  exact .bind (block_alike h .body) fun _ _ hbody => node_alike (.cons hnm (.one hbody))

lemma assertStatement_alike : Alike s Same (assertStatement r first) (assertStatement q second) := by
  refine .andThen bump_alike fun _ _ => ?_
  refine .bind (expressionOr_alike h .condition _) fun n m hnm => ?_
  have hmessage := itemIf_alike (eat_alike .colon) (expressionOr_alike h .message "expression")
  refine .bind hmessage fun ns ms hns => ?_
  exact .look (expect_alike .semi) fun _ => node_alike (.cons hnm hns)

lemma constructorCall_alike (kind : Kind) :
    Alike s Same (constructorCall r kind first) (constructorCall q kind second) := by
  refine .andThen bump_alike fun _ _ => .bind (arguments_alike h) fun ns ms hns => ?_
  exact .look (expect_alike .semi) fun _ => node_alike hns

lemma labeledStatement_alike :
    Alike s Same (labeledStatement r first) (labeledStatement q second) := by
  refine .bind (ident_alike .label) fun n m hnm => .andThen bump_alike fun _ _ => ?_
  exact .bind (subStatement_alike h .body) fun _ _ hbody => node_alike (.cons hnm (.one hbody))

lemma statedExpression_alike : Alike s Same (statedExpression r) (statedExpression q) := by
  refine .look atExpression_alike fun _ => .ite ?_ (missing_alike .expression "expression")
  exact .bind (expression_alike h) fun _ _ h => .pure (h.inRole .expression)

lemma plainStatement_alike : Alike s Same (plainStatement r first) (plainStatement q second) := by
  refine .look atTypeDeclaration_alike fun _ => .ite ?_ ?_
  · exact .bind (typeDeclaration_alike h) fun _ _ hnm => node_alike (.one (hnm.inRole .member))
  refine .option (tryLocalHead_alike h) (fun ns ms hns => ?_) ?_
  · refine .bind (variableFragments_alike h) fun fragments fragments' hfragments => ?_
    exact .look (expect_alike .semi) fun _ => node_alike (hns.append hfragments)
  · refine .bind (statedExpression_alike h) fun n m hnm => ?_
    exact .look (expect_alike .semi) fun _ => node_alike (.one hnm)

/-! ### All statements -/

lemma keywordStatement_alike (k : Keyword) :
    Alike s Same (keywordStatement r first k) (keywordStatement q second k) := by
  unfold keywordStatement
  split
  · exact ifStatement_alike h
  · exact whileStatement_alike h
  · exact doStatement_alike h
  · exact forStatement_alike h
  · exact switchStatement_alike h
  · exact returnStatement_alike h
  · exact jumpStatement_alike .breakStatement
  · exact jumpStatement_alike .continueStatement
  · exact throwStatement_alike h
  · exact tryStatement_alike h
  · exact assertStatement_alike h
  · exact .look (atPunct_alike 1 .openParen) fun _ =>
      .ite (synchronizedStatement_alike h) (plainStatement_alike h)
  · exact .look (atPunct_alike 1 .openParen) fun _ =>
      .ite (constructorCall_alike h _) (plainStatement_alike h)
  · exact .look (atPunct_alike 1 .openParen) fun _ =>
      .ite (constructorCall_alike h _) (plainStatement_alike h)
  · exact plainStatement_alike h

lemma statement_alike : Alike s (Option.Rel Same) (statement r) (statement q) := by
  refine .andThen start_alike fun first second => .bind (peek_alike 0) fun t t' ht => ?_
  rw [ht]
  refine .ite (.look (unexpected_alike _) fun _ => .ite ?_ (.pure .none)) ?_
  · exact .andThen bump_alike fun _ _ => .pure .none
  have hplain : Alike s (Option.Rel Same) (do return some (← plainStatement r first))
      (do return some (← plainStatement q second)) :=
    .bind (plainStatement_alike h) fun _ _ h => .pure (.some h)
  split
  · exact .bind (block_alike h .unplaced) fun _ _ h => .pure (.some h)
  · refine .andThen bump_alike fun _ _ => ?_
    exact .bind (node_alike (.refl [])) fun _ _ h => .pure (.some h)
  · exact .bind (keywordStatement_alike h _) fun _ _ h => .pure (.some h)
  · refine .look (atPunct_alike 1 .colon) fun _ => .ite ?_ hplain
    exact .bind (labeledStatement_alike h) fun _ _ h => .pure (.some h)
  · exact hplain

end Over

end Shorthand.Parser
