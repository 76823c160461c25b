import Shorthand.Proofs.Moved.Rules
import Shorthand.Proofs.Reading.Expressions

/-!
Reading expressions in two places.

Only the shift operators look at where tokens stand, and they ask no more than whether one token starts
where a `>` sign ends, which is so in both places or in none (`Cursor.Moved.run_eq`).
-/

namespace Shorthand

/-! ### Operators -/

namespace Cursor

variable {s : Places} {c d : Cursor} {t u : Token} {ts us : List Token}

/-- Some `>` signs that follow a token without a gap end with `>=`. -/
def assigns (t : Token) : List Token → Bool
  | [] => false
  | next :: rest =>
    if next.kind = .punct .gt && next.span.start == t.span.stop then assigns next rest
    else next.kind == .punct .ge && next.span.start == t.span.stop

lemma assigns_eq (textEnd : Nat) (t : Token) (ts : List Token) :
    assigns t ts = ((ts[gapless t.span.stop ts]?.getD (.eofAt textEnd)).kind == .punct .ge
      && (ts[gapless t.span.stop ts]?.getD (.eofAt textEnd)).span.start
        == ((t :: ts)[gapless t.span.stop ts]?.getD (.eofAt textEnd)).span.stop) := by
  induction ts generalizing t with
  | nil => rfl
  | cons next ts ih =>
    rw [assigns, gapless]
    by_cases hnext : (next.kind = .punct .gt && next.span.start == t.span.stop) = true
    · simp only [if_pos hnext, List.getElem?_cons_succ]
      exact ih next
    · simp only [if_neg hnext, List.getElem?_cons_zero, Option.getD_some]

/-- The marks of a `>` sign and of the tokens behind it tell how many of these go on with it. -/
lemma gapless_of_marks (h : Token.marks (u :: us) = Token.marks (t :: ts))
    (hkind : t.kind = .punct .gt) :
    gapless u.span.stop us = gapless t.span.stop ts ∧ assigns u us = assigns t ts := by
  induction ts generalizing t u us with
  | nil =>
    cases us with
    | nil => exact ⟨rfl, rfl⟩
    | cons u' us => simp [Token.marks] at h
  | cons t' ts ih =>
    cases us with
    | nil => simp [Token.marks] at h
    | cons u' us =>
      obtain ⟨hhead, htail⟩ := List.cons.inj h
      obtain ⟨hkind', hruns⟩ := Prod.mk.inj hhead
      obtain ⟨hnext, -⟩ := Prod.mk.inj (List.cons.inj htail).1
      simp only [Token.runsOn, hkind', hkind, List.head?_cons, Option.any_some, hnext] at hruns
      rw [gapless, gapless, assigns, assigns, hnext]
      by_cases hgt : t'.kind = .punct .gt
      · -- Both go on or both have a gap before them.
        have hgap : (u'.span.start == u.span.stop) = (t'.span.start == t.span.stop) := by
          simpa [hgt] using hruns
        obtain ⟨hlength, hassigns⟩ := ih htail hgt
        rw [hgap, hlength, hassigns]
        exact ⟨rfl, rfl⟩
      · have hge : (u'.span.start == u.span.stop && t'.kind == .punct .ge)
            = (t'.span.start == t.span.stop && t'.kind == .punct .ge) := by
          simpa [beq_eq_false_iff_ne.mpr hgt] using hruns
        simpa [hgt, Bool.and_comm] using hge

/-- The run of `>` signs that starts with the next token. -/
lemma run_of_ahead (hahead : c.ahead = t :: ts) (hkind : t.kind = .punct .gt) :
    c.runLength = gapless t.span.stop ts + 1 ∧ c.runAssigns = assigns t ts := by
  have hpeek : c.peek 0 = t := by rw [peek, hahead, List.getElem?_cons_zero, Option.getD_some]
  have hlength : c.runLength = gapless t.span.stop ts + 1 := by
    rw [runLength, hpeek, hahead, gapless, if_pos (by simp [hkind])]
  refine ⟨hlength, ?_⟩
  rw [runAssigns, hlength, Nat.add_sub_cancel, assigns_eq c.textEnd, peek, peek, hahead,
    List.getElem?_cons_succ]

lemma Moved.run_eq (h : c.Moved s d) (hkind : c.kindAt 0 = .punct .gt) :
    d.runLength = c.runLength ∧ d.runAssigns = c.runAssigns := by
  have hne : c.kindAt 0 ≠ .eof := by simp [hkind]
  have hc := ahead_eq_cons hne
  have hd := ahead_eq_cons (c := d) (by rwa [h.kindAt_eq])
  have hkind' : (d.peek 0).kind = .punct .gt := (congrFun h.kindAt_eq 0).trans hkind
  have hmarks := h.ahead
  rw [hc, hd] at hmarks
  obtain ⟨hlength, hassigns⟩ := gapless_of_marks hmarks hkind
  obtain ⟨hclength, hcassigns⟩ := run_of_ahead hc hkind
  obtain ⟨hdlength, hdassigns⟩ := run_of_ahead hd hkind'
  rw [hclength, hcassigns, hdlength, hdassigns, hlength, hassigns]
  exact ⟨rfl, rfl⟩

end Cursor

namespace Parser

open Node

variable {s : Places} {r q : Rules} {role : Role} {first second : Nat} {n m : Node}
  {ns ms : List Node}

lemma assignmentOperator?_alike : Alike s Eq assignmentOperator? assignmentOperator? := by
  refine .bind get_alike fun c d hcd => ?_
  rw [show (d.peek 0).kind = (c.peek 0).kind from congrFun hcd.kindAt_eq 0]
  split
  · exact .pure rfl
  · exact .pure rfl
  · next hgt =>
    obtain ⟨hlength, hassigns⟩ := hcd.run_eq hgt
    rw [hlength, hassigns]
    exact .ite (.pure rfl) (.pure rfl)
  · exact .pure rfl

lemma infixOperator?_alike : Alike s Eq infixOperator? infixOperator? := by
  refine .bind get_alike fun c d hcd => ?_
  dsimp only
  rw [show (d.peek 0).kind = (c.peek 0).kind from congrFun hcd.kindAt_eq 0]
  by_cases hgt : (c.peek 0).kind = .punct .gt
  · obtain ⟨hlength, hassigns⟩ := hcd.run_eq hgt
    rw [hlength, hassigns]
    exact .ite (.ite (.pure rfl) (.ite (.pure rfl) (.pure rfl))) (.pure rfl)
  · rw [if_neg hgt, if_neg hgt]
    exact .pure rfl

/-- What follows a closing parenthesis is of the same kinds in both places. -/
lemma afterClosing_of_kinds {ts us : List Token} (h : us.map Token.kind = ts.map Token.kind)
    (depth : Nat) : (afterClosing depth us).map (List.map Token.kind)
      = (afterClosing depth ts).map (List.map Token.kind) := by
  induction ts generalizing us depth with
  | nil =>
    obtain rfl := List.map_eq_nil_iff.mp h
    rfl
  | cons t ts ih =>
    obtain ⟨u, us, rfl, hkind, hkinds⟩ := List.map_eq_cons_iff.mp h
    rw [afterClosing, afterClosing, hkind]
    split
    · exact ih hkinds _
    · split
      · exact congrArg some hkinds
      · exact ih hkinds _
    · rfl
    · rfl
    · exact ih hkinds _

lemma atLambda_alike : Alike s Eq atLambda atLambda := by
  refine .bind get_alike fun c d hcd => ?_
  have hclosing := afterClosing_of_kinds hcd.kinds_eq 0
  cases hc : afterClosing 0 c.ahead with
  | none =>
    have hd : afterClosing 0 d.ahead = none := by simpa [hc] using hclosing
    rw [hd]
    exact .pure rfl
  | some ts =>
    obtain ⟨us, hd, hkinds⟩ : ∃ us, afterClosing 0 d.ahead = some us
        ∧ us.map Token.kind = ts.map Token.kind := by simpa [hc] using hclosing
    rw [hd]
    cases ts with
    | nil =>
      obtain rfl := List.map_eq_nil_iff.mp hkinds
      exact .pure rfl
    | cons t ts =>
      obtain ⟨u, us, rfl, hkind, -⟩ := List.map_eq_cons_iff.mp hkinds
      dsimp only
      rw [hkind]
      exact .pure rfl

/-! ### Expressions without rules inside -/

lemma creationType_alike : Alike s Same creationType creationType := by
  refine .look atType_alike fun _ => .ite ?_ (missing_alike .type "type")
  exact .bind createdType_alike fun _ _ h => .pure (h.inRole .type)

lemma primitiveLiteral_alike :
    Alike s Same (primitiveLiteral first) (primitiveLiteral second) := by
  refine .bind (type_alike .type) fun n m hnm => ?_
  refine .look (atPunct_alike 0 .dot) fun _ => .look (atKeyword_alike 1 .classKw) fun _ => ?_
  refine .ite (.look (bumpAll_alike 2) fun _ => node_alike (.one hnm)) ?_
  exact .look (unexpected_alike _) fun _ => .pure (hnm.inRole .unplaced)

lemma referencedName_alike : Alike s Same referencedName referencedName :=
  .look (atKeyword_alike 0 .newKw) fun _ => .ite (leaf_alike .simpleName .name) (ident_alike .name)

lemma nameAsType_same (h : Same n m) : Same (nameAsType n) (nameAsType m) := by
  rw [nameAsType, nameAsType, h.kind_eq]
  split
  · exact .mk (.one (h.inRole .name))
  · exact h

section Over

variable (h : r.Alike s q)

include h

/-! ### Lambdas and casts -/

lemma afterArrow_alike : Alike s Same (afterArrow r) (afterArrow q) :=
  .look (atPunct_alike 0 .openBrace) fun _ =>
    .ite (block_alike h .body) (expressionOr_alike h .body "lambda body")

lemma lambdaBody_alike (hns : SameAll ns ms) :
    Alike s Same (lambdaBody r first ns) (lambdaBody q second ms) :=
  .bind (afterArrow_alike h) fun _ _ hbody => node_alike (hns.append (.one hbody))

lemma lambdaParameter_alike : Alike s Same (lambdaParameter r) (lambdaParameter q) := by
  refine .look (atIdent_alike 0) fun _ => .look (atPunct_alike 1 .comma) fun _ => ?_
  refine .look (atPunct_alike 1 .closeParen) fun _ => ?_
  exact .ite (ident_alike .parameter) (parameter_alike h)

lemma lambda_alike : Alike s Same (lambda r first) (lambda q second) := by
  refine .andThen bump_alike fun _ _ => ?_
  have hparameters := sepUntil_alike .comma atParenEnd_alike (lambdaParameter_alike h)
  refine .bind hparameters fun ns ms hns => .look (expect_alike .closeParen) fun _ => ?_
  exact .look (expect_alike .arrow) fun _ => lambdaBody_alike h hns

lemma tryCast_alike : Alike s (Option.Rel Same) (tryCast r first) (tryCast q second) := by
  refine .bind get_alike fun before before' hbefore => ?_
  have hback : Alike s (Option.Rel Same) (do rewind before; return none)
      (do rewind before'; return none) :=
    .look (rewind_alike hbefore) fun _ => .pure .none
  refine .andThen bump_alike fun _ _ => .look atPrimitiveType_alike fun primitive => ?_
  refine .option tryType_alike (fun n m hnm => ?_) hback
  refine .look (atPunct_alike 0 .closeParen) fun _ => .bind (peek_alike 1) fun t t' ht => ?_
  rw [ht]
  refine .ite (.andThen bump_alike fun _ _ => ?_) hback
  refine .bind h.unary fun operand operand' hoperand => ?_
  have hparts := SameAll.cons hnm (.one (hoperand.inRole .operand))
  exact .bind (node_alike hparts) fun _ _ h => .pure (.some h)

/-! ### Primary expressions -/

lemma dimension_alike : Alike s Same (dimension r) (dimension q) := by
  refine .andThen bump_alike fun _ _ => .andThen lastEnd_alike fun _ _ => ?_
  refine .look (eat_alike .closeBracket) fun _ => .ite ?_ ?_
  · exact .andThen lastEnd_alike fun _ _ => .pure (.mk (.refl []))
  · refine .bind (expressionOr_alike h .dimension _) fun n m hnm => ?_
    exact .look (expect_alike .closeBracket) fun _ => .pure hnm

lemma arrayCreation_alike (hnm : Same n m) :
    Alike s Same (arrayCreation r first n) (arrayCreation q second m) := by
  have hdimensions := manyUntil_alike (notAtPunct_alike .openBracket) (Alike.some (dimension_alike h))
  refine .bind hdimensions fun ns ms hns => ?_
  have hinit := itemIf_alike (atPunct_alike 0 .openBrace) (arrayInitializer_alike h .initializer)
  exact .bind hinit fun _ _ hinit => node_alike ((SameAll.cons hnm hns).append hinit)

lemma creationArguments_alike : Alike s SameAll (creationArguments r) (creationArguments q) := by
  refine .look (atPunct_alike 0 .openParen) fun _ => .ite (arguments_alike h) ?_
  exact .look (unexpected_alike _) fun _ => .pure (.refl [])

lemma objectCreation_alike (hns : SameAll ns ms) :
    Alike s Same (objectCreation r first ns) (objectCreation q second ms) := by
  refine .bind (creationArguments_alike h) fun args args' hargs => ?_
  refine .bind (anonymousBody_alike h) fun body body' hbody => ?_
  exact node_alike ((hns.append hargs).append hbody)

lemma creation_alike {o o' : Option Node} (ho : Option.Rel Same o o') :
    Alike s Same (creation r first o) (creation q second o') := by
  refine .andThen bump_alike fun _ _ => .bind creationType_alike fun n m hnm => ?_
  refine .look (atPunct_alike 0 .openBracket) fun _ => .ite (arrayCreation_alike h hnm) ?_
  refine objectCreation_alike h (.append ?_ (.one hnm))
  cases ho with
  | some ho => exact .one (ho.inRole .receiver)
  | none => exact .refl []

lemma superAccess_alike : Alike s Same (superAccess r first) (superAccess q second) := by
  refine .andThen bump_alike fun _ _ => .look (expectAs_alike .dot _) fun _ => .ite ?_ ?_
  · refine .bind (ident_alike .name) fun n m hnm => .look (atPunct_alike 0 .openParen) fun _ => ?_
    refine .ite (.bind (arguments_alike h) fun ns ms hns => ?_) (node_alike (.one hnm))
    exact node_alike (.cons hnm hns)
  · exact .andThen start_alike fun _ _ => .pure (.mk (.refl []))

lemma primary_alike : Alike s Same (primary r) (primary q) := by
  refine .andThen start_alike fun first second => .bind (peek_alike 0) fun t t' ht => ?_
  rw [ht]
  split
  · exact leaf_alike _ .unplaced
  · refine .bind (ident_alike .name) fun n m hnm => .look (atPunct_alike 0 .openParen) fun _ => ?_
    refine .ite (.bind (arguments_alike h) fun ns ms hns => ?_) (.pure (hnm.inRole .unplaced))
    exact node_alike (.cons hnm hns)
  · refine .andThen bump_alike fun _ _ => ?_
    refine .bind (expressionOr_alike h .expression _) fun n m hnm => ?_
    exact .look (expect_alike .closeParen) fun _ => node_alike (.one hnm)
  · exact .andThen bump_alike fun _ _ => node_alike (.refl [])
  · exact superAccess_alike h
  · exact creation_alike h .none
  · exact .ite primitiveLiteral_alike (missing_alike .unplaced "expression")
  · exact missing_alike .unplaced "expression"

/-! ### What is joined behind an expression -/

lemma memberAccess_alike (hnm : Same n m) :
    Alike s Same (memberAccess r first n) (memberAccess q second m) := by
  refine .bind (ident_alike .name) fun name name' hname => ?_
  refine .look (atPunct_alike 0 .openParen) fun _ => .ite ?_ ?_
  · refine .bind (arguments_alike h) fun ns ms hns => ?_
    exact node_alike (.cons (hnm.inRole .receiver) (.cons hname hns))
  rw [hnm.kind_eq, isMissing, isMissing, hname.kind_eq]
  refine .ite (node_alike (.cons (hnm.inRole .qualifier) (.one hname))) ?_
  exact node_alike (.cons (hnm.inRole .receiver) (.one hname))

lemma selection_alike (hnm : Same n m) :
    Alike s Same (selection r first n) (selection q second m) := by
  refine .andThen bump_alike fun _ _ => .look (atKeyword_alike 0 .newKw) fun _ => ?_
  refine .ite (creation_alike h (.some hnm)) (.look (eatKeyword_alike .thisKw) fun _ => ?_)
  refine .ite (node_alike (.one (hnm.inRole .qualifier))) ?_
  refine .look (eatKeyword_alike .classKw) fun _ => .ite ?_ (memberAccess_alike h hnm)
  exact node_alike (.one ((nameAsType_same hnm).inRole .type))

lemma arrayAccess_alike (hnm : Same n m) :
    Alike s Same (arrayAccess r first n) (arrayAccess q second m) := by
  refine .andThen bump_alike fun _ _ => ?_
  refine .bind (expressionOr_alike h .index _) fun index index' hindex => ?_
  refine .look (expect_alike .closeBracket) fun _ => ?_
  exact node_alike (.cons (hnm.inRole .receiver) (.one hindex))

lemma postfixStep_alike (hnm : Same n m) :
    Alike s (Option.Rel Same) (postfixStep r first n) (postfixStep q second m) := by
  have hpostfix (text : String) : Alike s (Option.Rel Same)
      (do return some ((← node .postfixExpression first [n.inRole .operand]).withText text))
      (do return some ((← node .postfixExpression second [m.inRole .operand]).withText text)) :=
    .bind (node_alike (.one (hnm.inRole .operand))) fun _ _ h => .pure (.some (h.withText text))
  refine .bind (peek_alike 0) fun t t' ht => ?_
  rw [ht]
  split
  · exact .bind (selection_alike h hnm) fun _ _ h => .pure (.some h)
  · exact .bind (arrayAccess_alike h hnm) fun _ _ h => .pure (.some h)
  · exact .andThen bump_alike fun _ _ => hpostfix "++"
  · exact .andThen bump_alike fun _ _ => hpostfix "--"
  · refine .andThen bump_alike fun _ _ => .bind referencedName_alike fun name name' hname => ?_
    have hparts := SameAll.cons (hnm.inRole .receiver) (.one hname)
    exact .bind (node_alike hparts) fun _ _ h => .pure (.some h)
  · exact .pure .none

lemma joined_alike : Alike s Same (joined r) (joined q) :=
  .andThen start_alike fun _ _ => .bind (primary_alike h) fun _ _ hnm =>
    chain_alike (fun _ _ hnm => postfixStep_alike h hnm) hnm

/-! ### Operators around operands -/

lemma prefixed_alike (op : Punct) : Alike s Same (prefixed r first op) (prefixed q second op) := by
  refine .andThen bump_alike fun _ _ => ?_
  refine .bind (operandOr_alike h.unary .operand) fun n m hnm => ?_
  exact .bind (node_alike (.one hnm)) fun _ _ h => .pure (h.withText op.spelling)

lemma tryLambda_alike : Alike s (Option.Rel Same) (tryLambda r first) (tryLambda q second) := by
  refine .look atLambda_alike fun _ => .ite ?_ (.pure .none)
  exact .bind (lambda_alike h) fun _ _ hlambda => .pure (.some hlambda)

lemma opened_alike : Alike s Same (opened r first) (opened q second) := by
  refine .option (tryLambda_alike h) (fun _ _ hlambda => .pure hlambda) ?_
  exact .option (tryCast_alike h) (fun _ _ hcast => .pure hcast) (joined_alike h)

lemma unary_alike : Alike s Same (unary r) (unary q) := by
  refine .andThen start_alike fun first second => .bind (peek_alike 0) fun t t' ht => ?_
  rw [ht]
  split
  · exact opened_alike h
  · exact .ite (prefixed_alike h _) (joined_alike h)
  · refine .look (atPunct_alike 1 .arrow) fun _ => .ite ?_ (joined_alike h)
    refine .bind (ident_alike .parameter) fun n m hnm => .andThen bump_alike fun _ _ => ?_
    exact lambdaBody_alike h (.one hnm)
  · exact joined_alike h

lemma infixStep_alike (least : Nat) (hnm : Same n m) :
    Alike s (Option.Rel Same) (infixStep r first least n) (infixStep q second least m) := by
  refine .look infixOperator?_alike fun operator => ?_
  cases operator with
  | none => exact .pure .none
  | some operator =>
    obtain ⟨strength, op, count⟩ := operator
    refine .ite (.pure .none) (.look (bumpAll_alike count) fun _ => .ite ?_ ?_)
    · refine .bind (type_alike .type) fun ty ty' hty => ?_
      have hparts := SameAll.cons (hnm.inRole .left) (.one hty)
      exact .bind (node_alike hparts) fun _ _ h => .pure (.some h)
    · have hright := operandOr_alike (h.operation (strength + 1)) .right
      refine .bind hright fun rhs rhs' hrhs => ?_
      have hparts := SameAll.cons (hnm.inRole .left) (.one hrhs)
      exact .bind (node_alike hparts) fun _ _ h => .pure (.some (h.withText op))

lemma operation_alike (least : Nat) : Alike s Same (operation r least) (operation q least) :=
  .andThen start_alike fun _ _ => .bind (unary_alike h) fun _ _ hnm =>
    chain_alike (fun _ _ hnm => infixStep_alike h least hnm) hnm

lemma conditional_alike : Alike s Same (conditional r) (conditional q) := by
  refine .andThen start_alike fun first second => .bind (operation_alike h 1) fun n m hnm => ?_
  refine .look (eat_alike .question) fun _ => .ite ?_ (.pure hnm)
  refine .bind (expressionOr_alike h .thenBranch _) fun yes yes' hyes => ?_
  refine .look (expect_alike .colon) fun _ => ?_
  refine .bind (operandOr_alike h.conditional .elseBranch) fun no no' hno => ?_
  exact node_alike (.cons (hnm.inRole .condition) (.cons hyes (.one hno)))

lemma expression_alike : Alike s Same (expression r) (expression q) := by
  refine .andThen start_alike fun first second => .bind (conditional_alike h) fun n m hnm => ?_
  refine .look assignmentOperator?_alike fun operator => ?_
  cases operator with
  | none => exact .pure hnm
  | some operator =>
    obtain ⟨op, count⟩ := operator
    refine .look (bumpAll_alike count) fun _ => ?_
    refine .bind (operandOr_alike h.expression .right) fun rhs rhs' hrhs => ?_
    have hparts := SameAll.cons (hnm.inRole .left) (.one hrhs)
    exact .bind (node_alike hparts) fun _ _ h => .pure (h.withText op)

end Over

end Parser

end Shorthand
