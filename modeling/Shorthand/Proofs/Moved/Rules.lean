import Shorthand.Proofs.Moved.Types
import Shorthand.Proofs.Reading.Rules

/-!
Reading the shared pieces of the grammar in two places.

`Rules.Alike s r q` says that the rules `r` in the first place and `q` in the second are alike, one by
one. What is made of such rules is alike as well, piece by piece.
-/

namespace Shorthand.Parser

open Node

/-- Rules for what stands inside of something else are alike in two places. -/
structure Rules.Alike (s : Places) (r q : Rules) : Prop where
  expression : Parser.Alike s Same r.expression q.expression
  conditional : Parser.Alike s Same r.conditional q.conditional
  operation : ∀ least, Parser.Alike s Same (r.operation least) (q.operation least)
  unary : Parser.Alike s Same r.unary q.unary
  arrayInitializer : ∀ role, Parser.Alike s Same (r.arrayInitializer role) (q.arrayInitializer role)
  statement : Parser.Alike s (Option.Rel Same) r.statement q.statement
  member : Parser.Alike s (Option.Rel Same) r.member q.member

variable {s : Places} {r q : Rules} {role : Role} {first second : Nat} {ns ms : List Node}

lemma operandOr_alike {p p' : Parser Node} (h : Alike s Same p p') (role : Role) :
    Alike s Same (operandOr p role) (operandOr p' role) := by
  refine .look atExpression_alike fun _ => .ite ?_ (missing_alike role "expression")
  exact .bind h fun _ _ h => .pure (h.inRole role)

lemma atBodyEnd_alike : Alike s Eq atBodyEnd atBodyEnd :=
  look_alike (f := fun kinds => kinds 0 == .punct .closeBrace || kinds 0 == .eof)
    fun _ _ => after_atBodyEnd

lemma atParenEnd_alike : Alike s Eq atParenEnd atParenEnd :=
  look_alike (f := fun kinds => kinds 0 == .punct .closeParen || kinds 0 == .eof)
    fun _ _ => after_atParenEnd

lemma notAtIdent_alike : Alike s Eq notAtIdent notAtIdent :=
  look_alike (f := fun kinds => !(kinds 0).identName?.isSome) fun _ _ => after_notAtIdent

lemma optionIn_alike {p p' : Parser (Option Node)} (h : Alike s (Option.Rel Same) p p') (role : Role) :
    Alike s (Option.Rel Same) (do return (← p).map (·.inRole role))
      (do return (← p').map (·.inRole role)) :=
  .option h (fun _ _ h => .pure (.some (h.inRole role))) (.pure .none)

lemma catchType_alike : Alike s Same catchType catchType := by
  refine .andThen start_alike fun first second => .bind (type_alike .type) fun n m hnm => ?_
  refine .look (eat_alike .pipe) fun _ => .ite ?_ (.pure hnm)
  refine .bind (sepBy1_alike _ (type_alike .type)) fun ns ms hns => nodeIn_alike (.cons hnm hns)

lemma parameterName_alike : Alike s Same parameterName parameterName :=
  .look (atIdent_alike 0) fun _ => .ite (ident_alike .name) (missing_alike .name "parameter name")

lemma parameterRest_alike (h : SameAll ns ms) :
    Alike s Same (parameterRest first ns) (parameterRest second ms) := by
  refine .look (eat_alike .ellipsis) fun varargs => ?_
  refine .bind parameterName_alike fun name name' hname => ?_
  refine .bind (node_alike (h.append (.one hname))) fun n m hnm => ?_
  have hparam := hnm.inRole .parameter
  cases varargs with
  | true => exact .pure (hparam.withText "...")
  | false => exact .pure hparam

lemma catchParameterType_alike : Alike s Same catchParameterType catchParameterType := by
  refine .look (atIdent_alike 0) fun _ => .look (atPunct_alike 1 .closeParen) fun _ => ?_
  refine .look (atPunct_alike 1 .comma) fun _ => .look (isAt_alike 1 .eof) fun _ => ?_
  exact .ite (.andThen start_alike fun _ _ => .pure (.mk (.refl []))) catchType_alike

section Over

variable (h : r.Alike s q)

include h

lemma expressionOr_alike (role : Role) (what : String) :
    Alike s Same (expressionOr r role what) (expressionOr q role what) := by
  refine .look atExpression_alike fun _ => .ite ?_ (missing_alike role what)
  exact .bind h.expression fun _ _ h => .pure (h.inRole role)

lemma valueOr_alike (role : Role) (what : String) :
    Alike s Same (valueOr r role what) (valueOr q role what) :=
  .look (atPunct_alike 0 .openBrace) fun _ =>
    .ite (h.arrayInitializer role) (expressionOr_alike h role what)

lemma arguments_alike : Alike s SameAll (arguments r) (arguments q) := by
  refine .andThen bump_alike fun _ _ => .look (eat_alike .closeParen) fun _ => ?_
  refine .ite (.pure (.refl [])) ?_
  refine .bind (sepBy1_alike _ (expressionOr_alike h .argument "argument")) fun ns ms hns => ?_
  exact .look (expect_alike .closeParen) fun _ => .pure hns

lemma arrayInitializer_alike (role : Role) :
    Alike s Same (arrayInitializer r role) (arrayInitializer q role) := by
  refine .andThen start_alike fun first second => .andThen bump_alike fun _ _ => ?_
  have helements := sepUntil_alike .comma atBodyEnd_alike
    (valueOr_alike h .element "expression")
  refine .bind helements fun ns ms hns => ?_
  exact .look (expect_alike .closeBrace) fun _ => nodeIn_alike hns

/-! ### Blocks and class bodies -/

lemma statementsIn_alike : Alike s SameAll (statementsIn r) (statementsIn q) :=
  manyUntil_alike atBodyEnd_alike (optionIn_alike h.statement .statement)

lemma membersIn_alike : Alike s SameAll (membersIn r) (membersIn q) :=
  manyUntil_alike atBodyEnd_alike (optionIn_alike h.member .member)

lemma block_alike (role : Role) : Alike s Same (block r role) (block q role) := by
  refine .andThen start_alike fun first second => .look (expectAs_alike .openBrace _) fun _ => ?_
  refine .ite (.bind (statementsIn_alike h) fun ns ms hns => ?_) (.pure (.mk (.refl [])))
  exact .look (expect_alike .closeBrace) fun _ => nodeIn_alike hns

lemma classBody_alike : Alike s SameAll (classBody r) (classBody q) := by
  refine .look (expectAs_alike .openBrace _) fun _ => .ite ?_ (.pure (.refl []))
  refine .bind (membersIn_alike h) fun ns ms hns => ?_
  exact .look (expect_alike .closeBrace) fun _ => .pure hns

lemma anonymousBody_alike : Alike s SameAll (anonymousBody r) (anonymousBody q) := by
  refine .look (atPunct_alike 0 .openBrace) fun _ => .ite ?_ (.pure (.refl []))
  refine .andThen start_alike fun first second => .bind (classBody_alike h) fun ns ms hns => ?_
  exact .bind (node_alike hns) fun _ _ h => .pure (.one (h.inRole .body))

/-! ### Modifiers -/

lemma memberValuePair_alike : Alike s Same (memberValuePair r) (memberValuePair q) := by
  refine .andThen start_alike fun first second => .bind (ident_alike .name) fun key key' hkey => ?_
  refine .look (expect_alike .eq) fun _ => ?_
  refine .bind (expressionOr_alike h .expression _) fun value value' hvalue => ?_
  exact nodeIn_alike (.cons hkey (.one hvalue))

lemma annotationArguments_alike : Alike s (fun a b => a.1 = b.1 ∧ SameAll a.2 b.2)
    (annotationArguments r) (annotationArguments q) := by
  refine .look (atIdent_alike 0) fun _ => .look (atPunct_alike 1 .eq) fun _ => .ite ?_ ?_
  · have hpairs := sepUntil_alike .comma notAtIdent_alike (memberValuePair_alike h)
    exact .bind hpairs fun _ _ hpairs => .pure ⟨rfl, hpairs⟩
  refine .look (atPunct_alike 0 .closeParen) fun _ => .ite (.pure ⟨rfl, .refl []⟩) ?_
  exact .bind (valueOr_alike h .expression _) fun _ _ hvalue => .pure ⟨rfl, .one hvalue⟩

lemma annotation_alike : Alike s Same ( annotation r) ( annotation q) := by
  refine .andThen start_alike fun first second => .andThen bump_alike fun _ _ => ?_
  refine .bind (qualifiedName_alike .name) fun name name' hname => ?_
  refine .look (eat_alike .openParen) fun _ => .ite ?_ (nodeIn_alike (.one hname))
  refine .bind (annotationArguments_alike h) ?_
  rintro ⟨kind, args⟩ ⟨kind', args'⟩ ⟨hkind, hargs⟩
  obtain rfl : kind = kind' := hkind
  exact .look (expect_alike .closeParen) fun _ => nodeIn_alike (.cons hname hargs)

lemma modifier?_alike : Alike s (Option.Rel Same) (modifier? r) (modifier? q) := by
  refine .bind (peek_alike 0) fun t t' ht => ?_
  rw [ht]
  split
  · refine .ite (.bind (leaf_alike .modifier .modifier) fun _ _ h => .pure (.some h)) (.pure .none)
  · refine .look (atKeyword_alike 1 .interfaceKw) fun _ => .ite (.pure .none) ?_
    exact .bind (annotation_alike h) fun _ _ h => .pure (.some h)
  · exact .pure .none

lemma modifiers_alike : Alike s SameAll (modifiers r) (modifiers q) := by
  refine chain_alike (fun ns ms hns => ?_) (.refl [])
  exact .option (modifier?_alike h) (fun _ _ h => .pure (.some (hns.append (.one h)))) (.pure .none)

/-! ### Declared variables -/

lemma parameter_alike : Alike s Same (parameter r) (parameter q) := by
  refine .andThen start_alike fun first second => .bind (modifiers_alike h) fun ns ms hns => ?_
  refine .bind (type_alike .type) fun n m hnm => ?_
  exact parameterRest_alike (hns.append (.one hnm))

lemma catchParameter_alike : Alike s Same (catchParameter r) (catchParameter q) := by
  refine .andThen start_alike fun first second => .bind (modifiers_alike h) fun ns ms hns => ?_
  refine .bind catchParameterType_alike fun n m hnm => ?_
  exact parameterRest_alike (hns.append (.one hnm))

lemma variableFragment_alike : Alike s Same (variableFragment r) (variableFragment q) := by
  refine .andThen start_alike fun first second => .bind (ident_alike .name) fun n m hnm => ?_
  refine .look skipEmptyBrackets_alike fun _ => ?_
  have hvalue := itemIf_alike (eat_alike .eq) (valueOr_alike h .initializer "initializer")
  exact .bind hvalue fun _ _ hvalue => nodeIn_alike (.cons hnm hvalue)

lemma variableFragments_alike : Alike s SameAll (variableFragments r) (variableFragments q) :=
  sepBy1_alike _ (variableFragment_alike h)

end Over

end Shorthand.Parser
