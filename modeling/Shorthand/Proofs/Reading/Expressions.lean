import Shorthand.Proofs.Reading.Rules

/-!
Reading expressions.

An expression that starts where one can start takes a token. What is joined behind an expression starts
at the same cursor as the expression itself, so the rules for it say which token they take and where the
whole starts (`Extended`).
-/

namespace Shorthand.Parser

open Cursor

variable {r : Rules} {m : Nat} {c c₀ : Cursor} {role : Role} {n : Node} {before : List Node}

/-! ### Lambdas and casts -/

lemma afterArrow_placed (hr : r.Good m) (hc : c.ahead.length < m) :
    (afterArrow r).After c (Placed c) := by
  simp only [afterArrow, after_bind, after_atPunct, after_ite]
  split
  · exact (block_placed hr (Nat.le_of_lt hc)).imp fun _ _ h => h.1
  · exact expressionOr_placed hr hc

lemma lambdaBody_placed (hr : r.Good m) (hc : c.ahead.length < m) (h : PlacedAll c₀ before c) :
    (lambdaBody r c₀.offset before).After c (Extended c₀ c) := by
  simp only [lambdaBody, after_bind, after_node]
  exact (afterArrow_placed hr hc).imp fun _ _ hbody => ⟨(h.trans hbody).node rfl, hbody.reads⟩

lemma lambdaParameter_placed (hr : r.Good m) (hc : c.ahead.length < m) :
    (lambdaParameter r).After c (Placed c) := by
  simp only [lambdaParameter, after_bind, after_atIdent, after_atPunct, after_ite]
  split
  · exact ident_placed
  · exact parameter_placed hr hc

lemma lambda_placed (hr : r.Good m) (hc : c.ahead.length ≤ m) (hk : c.kindAt 0 ≠ .eof) :
    (lambda r c.offset).After c fun n c' => Placed c n c' ∧ Takes c c' := by
  have htakes : Takes c c.advance := takes_advance hk
  simp only [lambda, after_bind, after_bump]
  refine (sepUntil_placed (fun _ _ => after_atParenEnd) fun c' h _ => ?_).imp
    fun params c₁ hparams => ?_
  · exact lambdaParameter_placed hr (by have := h.le; omega)
  refine After.imp expect_reads fun _ c₂ hclose => ?_
  refine After.imp expect_reads fun _ c₃ harrow => ?_
  have hhead := hparams.before (hclose.trans harrow)
  have hle := hhead.le
  refine (lambdaBody_placed hr (by omega) (.behind (.one c) hhead)).imp fun n c₄ hn => ⟨hn.placed, ?_⟩
  have := hn.le
  omega

/-- A cast that was only tried leaves no trace. -/
lemma tryCast_placed (hr : r.Good m) (hc : c.ahead.length ≤ m) (hk : c.kindAt 0 ≠ .eof) :
    (tryCast r c.offset).After c fun o c' =>
      (∀ n, o = some n → Placed c n c' ∧ Takes c c') ∧ (o = none → c' = c) := by
  have htakes : Takes c c.advance := takes_advance hk
  simp only [tryCast, after_bind, after_get, after_bump, after_atPrimitiveType]
  refine After.imp tryType_placed fun o c₁ ⟨hsome, hnone⟩ => ?_
  cases o with
  | none =>
    obtain rfl := hnone rfl
    simp only [after_bind, after_rewind, after_pure]
    exact ⟨nofun, fun _ => (Reads.one c).backTo_eq⟩
  | some ty =>
    obtain ⟨hty, _⟩ := hsome ty rfl
    simp only [after_bind, after_atPunct, after_peek, after_pure, after_ite, after_bump, after_node,
      after_rewind]
    split
    · have hhead := hty.before (.one c₁)
      have hle := hhead.le
      refine (hr.unary _ (by omega)).imp fun operand c₂ hoperand => ⟨fun n h => ?_, nofun⟩
      obtain rfl := Option.some.inj h
      have hall := hhead.cons (hoperand.inRole .operand)
      exact ⟨(PlacedAll.behind (.one c) hall).node rfl, Nat.lt_of_le_of_lt hall.le htakes⟩
    · exact ⟨nofun, fun _ => ((Reads.one c).trans hty.reads).backTo_eq⟩

/-! ### Primary expressions -/

lemma dimension_placed (hr : r.Good m) (hc : c.ahead.length < m) (hk : c.kindAt 0 ≠ .eof) :
    (dimension r).After c fun n c' => Placed c n c' ∧ Takes c c' := by
  have htakes : Takes c c.advance := takes_advance hk
  simp only [dimension, after_bind, after_bump, after_lastEnd, after_eat, after_ite, after_pure,
    reduceIte, Bool.false_eq_true]
  split
  · next hclose =>
    exact ⟨.between hk (by simp [hclose]) rfl, Nat.lt_of_le_of_lt (Reads.one c.advance).le htakes⟩
  · refine (expressionOr_placed hr (by omega)).imp fun size c₁ hsize => ?_
    refine After.imp expect_reads fun _ c₂ h => ⟨.behind (.one c) (hsize.before h), ?_⟩
    exact Nat.lt_of_le_of_lt (hsize.before h).le htakes

lemma arrayCreation_placed (hr : r.Good m) (hc : c.ahead.length < m) (h : PlacedAll c₀ [n] c) :
    (arrayCreation r c₀.offset n).After c (Extended c₀ c) := by
  simp only [arrayCreation, after_bind, after_node]
  refine (manyUntil_placed (fun _ _ => after_notAtPunct) fun c' hr' hs => ?_).imp
    fun dimensions c₁ hdims => ?_
  · have hk : c'.kindAt 0 ≠ .eof := fun heof => by simp [heof] at hs
    rw [after_map]
    exact dimension_placed hr (by have := hr'.le; omega) hk
  · have hle := hdims.le
    have hinit : (itemIf (atPunct .openBrace) (arrayInitializer r .initializer)).After c₁
        (PlacedAll c₁) := by
      simp only [after_itemIf, after_atPunct, beq_iff_eq]
      split
      · next hk => exact arrayInitializer_placed hr (by omega) hk
      · exact (Reads.refl c₁).placedAll
    refine hinit.imp fun init c₂ hinit => ?_
    exact ⟨((h.cons hdims).trans hinit).node rfl, (hdims.trans hinit).reads⟩

lemma creationArguments_placed (hr : r.Good m) (hc : c.ahead.length < m) :
    (creationArguments r).After c (PlacedAll c) := by
  simp only [creationArguments, after_bind, after_atPunct, after_ite, after_unexpected, after_pure]
  split
  · exact arguments_placed hr hc
  · exact (Reads.complained c _).placedAll

lemma creationType_placed : creationType.After c (Placed c) := by
  simp only [creationType, after_bind, after_atType, after_ite, after_pure]
  split
  · exact After.imp createdType_placed fun _ _ h => h.inRole .type
  · exact missing_placed

lemma objectCreation_placed (hr : r.Good m) (hc : c.ahead.length < m)
    (h : PlacedAll c₀ before c) :
    (objectCreation r c₀.offset before).After c (Extended c₀ c) := by
  simp only [objectCreation, after_bind, after_node]
  refine (creationArguments_placed hr hc).imp fun args c₁ hargs => ?_
  refine (anonymousBody_placed hr (by have := hargs.le; omega)).imp fun body c₂ hbody => ?_
  exact ⟨((h.trans hargs).trans hbody).node rfl, (hargs.trans hbody).reads⟩

/-- The creation of an object or an array, behind what stands before the keyword or without it. -/
lemma creation_placed {outer : Option Node} (hr : r.Good m) (hc : c.ahead.length ≤ m)
    (hk : c.kindAt 0 ≠ .eof) (h : PlacedAll c₀ outer.toList c) :
    (creation r c₀.offset outer).After c fun n c' => Extended c₀ c n c' ∧ Takes c c' := by
  have htakes : Takes c c.advance := takes_advance hk
  simp only [creation, after_bind, after_bump, after_atPunct, after_ite]
  refine After.imp creationType_placed fun ty c₁ hty => ?_
  have hty' := PlacedAll.behind (.one c) hty
  have hlt : Takes c c₁ := Nat.lt_of_le_of_lt hty.le htakes
  split
  · have hstart : PlacedAll c₀ [ty] c₁ := .behind h.reads hty'
    refine (arrayCreation_placed hr (by omega) hstart).imp fun n c₂ hn => ?_
    exact ⟨.behind hty'.reads hn, Nat.lt_of_le_of_lt hn.le hlt⟩
  · have houter : PlacedAll c₀ (outer.map (·.inRole .receiver)).toList c := by
      simpa [Option.toList_map] using h.map_inRole .receiver
    refine (objectCreation_placed hr (by omega) (houter.trans hty')).imp fun n c₂ hn => ?_
    exact ⟨.behind hty'.reads hn, Nat.lt_of_le_of_lt hn.le hlt⟩

lemma superAccess_placed (hr : r.Good m) (hc : c.ahead.length ≤ m) (hk : c.kindAt 0 ≠ .eof) :
    (superAccess r c.offset).After c fun n c' => Placed c n c' ∧ Takes c c' := by
  have htakes : Takes c c.advance := takes_advance hk
  have hone := Reads.one c
  simp only [superAccess, after_bind, after_bump, after_expectAs, after_ite, after_atPunct,
    after_node, after_pure, after_start, reduceIte, Bool.false_eq_true]
  split
  · have htwo := hone.advance
    have hle := htwo.le
    refine After.imp ident_placed fun name c₁ hname => ?_
    have hname' := PlacedAll.behind htwo hname
    have hlt : Takes c c₁ :=
      Nat.lt_of_le_of_lt (Nat.le_trans hname.le (Reads.one c.advance).le) htakes
    split
    · refine (arguments_placed hr (by omega)).imp fun args c₂ hargs => ?_
      exact ⟨(hname'.cons hargs).node rfl, Nat.lt_of_le_of_lt hargs.le hlt⟩
    · exact ⟨hname'.node rfl, hlt⟩
  · exact ⟨.behind hone (Placed.missing (.complained _ _) .unplaced), htakes⟩

lemma primitiveLiteral_placed (hk : startsType (c.kindAt 0) = true) :
    (primitiveLiteral c.offset).After c fun n c' => Placed c n c' ∧ Takes c c' := by
  simp only [primitiveLiteral, after_bind, after_atPunct, after_atKeyword, after_pure, after_ite,
    after_node, after_unexpected]
  refine After.imp type_placed fun ty c₁ ⟨hty, htakes⟩ => ?_
  have htakes := htakes hk
  split
  · refine (bumpAll_reads 2).imp fun _ c₂ h => ⟨(hty.before h).node rfl, ?_⟩
    exact Nat.lt_of_le_of_lt h.le htakes
  · exact ⟨Placed.inRole (hty.before (.complained c₁ _)) .unplaced, htakes⟩

/-- The token can be the first of a primary expression. -/
def startsPrimary : TokenKind → Bool
  | .ident _ | .literal _ _ => true
  | .punct p => p = .openParen
  | .keyword k => k ∈ [.thisKw, .superKw, .newKw] || k.isPrimitiveType
  | _ => false

/-- A primary expression takes a token where one can start. -/
lemma primary_placed (hr : r.Good m) (hc : c.ahead.length ≤ m) :
    (primary r).After c fun n c' =>
      Placed c n c' ∧ (startsPrimary (c.kindAt 0) = true → Takes c c') := by
  have hpeek : (c.peek 0).kind = c.kindAt 0 := rfl
  have hone := Reads.one c
  simp only [primary, after_bind, after_start, after_peek, hpeek]
  split
  · next kind _ hk =>
    have hkind : literalKind kind ≠ .missing := by cases kind <;> decide
    exact ⟨leaf_placed (by rw [hk]; rfl) hkind, fun _ => takes_advance (by simp [hk])⟩
  · next name hk =>
    simp only [after_bind, after_atPunct, after_ite, after_node, after_pure]
    have hident : (c.kindAt 0).identName?.isSome = true := by rw [hk]; rfl
    refine (After.and ident_placed ident_takes).imp fun name c₁ ⟨hname, htakes⟩ => ?_
    have hlt := htakes hident
    split
    · refine (arguments_placed hr (by omega)).imp fun args c₂ hargs => ?_
      exact ⟨(hname.cons hargs).node rfl, fun _ => Nat.lt_of_le_of_lt hargs.le hlt⟩
    · exact ⟨hname.inRole .unplaced, fun _ => hlt⟩
  · next hk =>
    have htakes : Takes c c.advance := takes_advance (by simp [hk])
    simp only [after_bind, after_bump, after_node]
    refine (expressionOr_placed hr (by omega)).imp fun inner c₁ hinner => ?_
    refine After.imp expect_reads fun _ c₂ h => ?_
    have hall := hinner.before h
    exact ⟨(PlacedAll.behind hone hall).node rfl, fun _ => Nat.lt_of_le_of_lt hall.le htakes⟩
  · next hk =>
    simp only [after_bind, after_bump, after_node]
    exact ⟨hone.placedAll.node rfl, fun _ => takes_advance (by simp [hk])⟩
  · next hk =>
    exact (superAccess_placed hr hc (by simp [hk])).imp fun n c₁ hn => ⟨hn.1, fun _ => hn.2⟩
  · next hk =>
    refine (creation_placed hr hc (by simp [hk]) (Reads.refl c).placedAll).imp fun n c₁ hn => ?_
    exact ⟨hn.1.placed, fun _ => hn.2⟩
  · next k hthis hsuper hnew hk =>
    rw [after_ite]
    split
    · next hprim =>
      have htype : startsType (c.kindAt 0) = true := by simp [hk, startsType, isPrimitive, hprim]
      exact (primitiveLiteral_placed htype).imp fun n c₁ hn => ⟨hn.1, fun _ => hn.2⟩
    · next hprim =>
      refine After.imp missing_placed fun n c₁ hn => ⟨hn, fun h => ?_⟩
      simp_all [startsPrimary]
  · next hlit hid hparen hthis hsuper hnew hkey =>
    refine After.imp missing_placed fun n c₁ hn => ⟨hn, fun h => ?_⟩
    cases hkind : c.kindAt 0 <;> simp_all [startsPrimary]

/-! ### What is joined behind an expression -/

lemma nameAsType_placed (h : Placed c₀ n c) : Placed c₀ (nameAsType n) c := by
  rw [nameAsType]
  split
  · next hname =>
    refine ⟨h.reads, fun src hc => ?_, fun src hc k hk => ?_⟩
    · obtain ⟨hn, hin⟩ := h.laid src hc
      have hlaid := hn n (List.mem_singleton_self n)
      refine ⟨fun k hk => ?_, hin⟩
      obtain rfl := List.mem_singleton.mp hk
      have hname : Node.InOrder n.span.start [n.inRole .name] n.span.stop :=
        ⟨Nat.le_refl _, hlaid.own.le, Nat.le_refl n.span.stop⟩
      exact .of_children (by simpa using hlaid.inRole .name) hname
        (by simpa using .inl (Nat.le_refl _)) hlaid.own.le hlaid.own.start hlaid.own.stop rfl rfl
    · obtain rfl := List.mem_singleton.mp hk
      rcases h.ends src hc n (List.mem_singleton_self n) with hstop | hempty | ⟨hkind, -⟩
      · exact .inl hstop
      · exact .inr (.inl hempty)
      · rw [hkind] at hname
        cases hname
  · exact h

lemma memberAccess_placed (hr : r.Good m) (hc : c.ahead.length < m) (h : Placed c₀ n c) :
    (memberAccess r c₀.offset n).After c (Extended c₀ c) := by
  simp only [memberAccess, after_bind, after_atPunct, after_ite, after_node]
  refine After.imp ident_placed fun name c₁ hname => ?_
  split
  · refine (arguments_placed hr (by have := hname.le; omega)).imp fun args c₂ hargs => ?_
    have hcall := hname.cons hargs
    exact ⟨((h.inRole .receiver).cons hcall).node rfl, hcall.reads⟩
  · split
    · exact ⟨((h.inRole .qualifier).cons hname).node rfl, hname.reads⟩
    · exact ⟨((h.inRole .receiver).cons hname).node rfl, hname.reads⟩

lemma selection_placed (hr : r.Good m) (hc : c.ahead.length ≤ m) (hk : c.kindAt 0 ≠ .eof)
    (h : Placed c₀ n c) :
    (selection r c₀.offset n).After c fun n' c' => Placed c₀ n' c' ∧ Takes c c' := by
  have htakes : Takes c c.advance := takes_advance hk
  have h' := h.before (.one c)
  have hone := Reads.one c.advance
  simp only [selection, after_bind, after_bump, after_atKeyword, after_eatKeyword, after_ite,
    after_node, reduceIte, Bool.false_eq_true]
  split
  · next hnew =>
    have hk' : c.advance.kindAt 0 ≠ .eof := by
      intro heof
      simp [heof] at hnew
    have houter : PlacedAll c₀ (some n).toList c.advance := h'
    refine (creation_placed hr (by omega) hk' houter).imp fun n' c₁ hn => ?_
    exact ⟨hn.1.placed, Nat.lt_trans hn.2 htakes⟩
  · split
    · exact ⟨((Placed.inRole h' .qualifier).before hone).node rfl, Nat.lt_of_le_of_lt hone.le htakes⟩
    · split
      · have htype := (nameAsType_placed h').inRole .type
        exact ⟨(htype.before hone).node rfl, Nat.lt_of_le_of_lt hone.le htakes⟩
      · refine (memberAccess_placed hr (by omega) h').imp fun n' c₁ hn => ⟨hn.placed, ?_⟩
        exact Nat.lt_of_le_of_lt hn.le htakes

lemma arrayAccess_placed (hr : r.Good m) (hc : c.ahead.length ≤ m) (hk : c.kindAt 0 ≠ .eof)
    (h : Placed c₀ n c) :
    (arrayAccess r c₀.offset n).After c fun n' c' => Placed c₀ n' c' ∧ Takes c c' := by
  have htakes : Takes c c.advance := takes_advance hk
  simp only [arrayAccess, after_bind, after_bump, after_node]
  refine (expressionOr_placed hr (by omega)).imp fun index c₁ hindex => ?_
  refine After.imp expect_reads fun _ c₂ hclose => ?_
  have hrest := hindex.before hclose
  exact ⟨((h.inRole .receiver).cons (.behind (.one c) hrest)).node rfl,
    Nat.lt_of_le_of_lt hrest.le htakes⟩

lemma referencedName_placed : referencedName.After c (Placed c) := by
  simp only [referencedName, after_bind, after_atKeyword, after_ite]
  split
  · next hk =>
    rw [beq_iff_eq] at hk
    exact leaf_placed (by rw [hk]; rfl) (by decide)
  · exact ident_placed

lemma postfixStep_placed (hr : r.Good m) (hc : c.ahead.length ≤ m) (h : Placed c₀ n c) :
    (postfixStep r c₀.offset n).After c fun o c' =>
      (∀ n', o = some n' → Placed c₀ n' c' ∧ Takes c c') ∧ (o = none → Reads c c') := by
  have hpeek : (c.peek 0).kind = c.kindAt 0 := rfl
  have hone := Reads.one c
  simp only [postfixStep, after_bind, after_peek, hpeek]
  split
  · next hk =>
    simp only [after_bind, after_pure]
    refine (selection_placed hr hc (by simp [hk]) h).imp fun n' c' hn => ⟨fun k hk => ?_, nofun⟩
    obtain rfl := Option.some.inj hk
    exact hn
  · next hk =>
    simp only [after_bind, after_pure]
    refine (arrayAccess_placed hr hc (by simp [hk]) h).imp fun n' c' hn => ⟨fun k hk => ?_, nofun⟩
    obtain rfl := Option.some.inj hk
    exact hn
  · next hk =>
    refine ⟨fun n' hn => ?_, nofun⟩
    obtain rfl := Option.some.inj hn
    exact ⟨((h.inRole .operand).before hone).node (by decide) |>.withText _ rfl,
      takes_advance (by simp [hk])⟩
  · next hk =>
    refine ⟨fun n' hn => ?_, nofun⟩
    obtain rfl := Option.some.inj hn
    exact ⟨((h.inRole .operand).before hone).node (by decide) |>.withText _ rfl,
      takes_advance (by simp [hk])⟩
  · next hk =>
    have htakes : Takes c c.advance := takes_advance (by simp [hk])
    simp only [after_bind, after_bump, after_node, after_pure]
    refine After.imp referencedName_placed fun name c₁ hname => ⟨fun n' hn => ?_, nofun⟩
    obtain rfl := Option.some.inj hn
    exact ⟨((h.inRole .receiver).cons (.behind hone hname)).node rfl,
      Nat.lt_of_le_of_lt hname.le htakes⟩
  · exact ⟨nofun, fun _ => .refl c⟩

lemma joined_placed (hr : r.Good m) (hc : c.ahead.length ≤ m) :
    (joined r).After c fun n c' =>
      Placed c n c' ∧ (startsPrimary (c.kindAt 0) = true → Takes c c') := by
  simp only [joined, after_bind, after_start]
  refine (primary_placed hr hc).imp fun n c₁ ⟨hn, htakes⟩ => ?_
  refine (chain_placed hn fun n' c' hn' =>
    postfixStep_placed hr (Nat.le_trans hn'.le hc) hn').imp fun n' c₂ ⟨hn', hle⟩ => ⟨hn', fun hk => ?_⟩
  exact Nat.lt_of_le_of_lt hle (htakes hk)

/-! ### Operators around operands -/

lemma prefixed_placed {op : Punct} (hr : r.Good m) (hc : c.ahead.length ≤ m) (hk : c.kindAt 0 ≠ .eof) :
    (prefixed r c.offset op).After c fun n c' => Placed c n c' ∧ Takes c c' := by
  have htakes : Takes c c.advance := takes_advance hk
  simp only [prefixed, after_bind, after_bump, after_node, after_pure]
  refine (operandOr_placed (hr.unary _ (by omega))).imp fun operand c₁ h => ⟨?_, ?_⟩
  · exact (PlacedAll.behind (.one c) h).node (by decide) |>.withText _ rfl
  · exact Nat.lt_of_le_of_lt h.le htakes

/-- Looking for a lambda takes nothing. -/
lemma atLambda_stays : atLambda.After c fun _ c' => c' = c := by
  simp only [atLambda, after_bind, after_get]
  split <;> rfl

lemma tryLambda_placed (hr : r.Good m) (hc : c.ahead.length ≤ m) (hk : c.kindAt 0 ≠ .eof) :
    (tryLambda r c.offset).After c fun o c' =>
      (∀ n, o = some n → Placed c n c' ∧ Takes c c') ∧ (o = none → c' = c) := by
  simp only [tryLambda, after_bind, after_ite, after_pure]
  refine After.imp atLambda_stays fun b c' hc' => ?_
  subst hc'
  split
  · refine (lambda_placed hr hc hk).imp fun n c₁ hn => ⟨fun n' h => ?_, nofun⟩
    obtain rfl := Option.some.inj h
    exact hn
  · exact ⟨nofun, fun _ => rfl⟩

lemma opened_placed (hr : r.Good m) (hc : c.ahead.length ≤ m) (hk : c.kindAt 0 = .punct .openParen) :
    (opened r c.offset).After c fun n c' => Placed c n c' ∧ Takes c c' := by
  have hne : c.kindAt 0 ≠ .eof := by simp [hk]
  simp only [opened, after_bind]
  refine (tryLambda_placed hr hc hne).imp fun o c₁ ⟨hlambda, hno⟩ => ?_
  cases o with
  | some n => exact hlambda n rfl
  | none =>
    obtain rfl := hno rfl
    simp only [after_bind]
    refine (tryCast_placed hr hc hne).imp fun o c₁ ⟨hcast, hnone⟩ => ?_
    cases o with
    | some n => exact hcast n rfl
    | none =>
      obtain rfl := hnone rfl
      refine (joined_placed hr hc).imp fun n c₂ ⟨hn, htakes⟩ => ⟨hn, htakes ?_⟩
      rw [hk]
      rfl

/-- An expression without an operator between two operands takes a token where one can start. -/
theorem unary_placed (hr : r.Good m) (hc : c.ahead.length ≤ m) :
    (unary r).After c fun n c' =>
      Placed c n c' ∧ ((c.kindAt 0).canBeginExpr = true → Takes c c') := by
  have hpeek : (c.peek 0).kind = c.kindAt 0 := rfl
  simp only [unary, after_bind, after_start, after_peek, hpeek]
  split
  · next hk => exact (opened_placed hr hc hk).imp fun _ _ h => ⟨h.1, fun _ => h.2⟩
  · next p hne hk =>
    rw [after_ite]
    split
    · exact (prefixed_placed hr hc (by simp [hk])).imp fun _ _ h => ⟨h.1, fun _ => h.2⟩
    · next hprefix =>
      refine (joined_placed hr hc).imp fun _ _ ⟨h, htakes⟩ => ⟨h, fun hb => htakes ?_⟩
      rw [hk] at hb ⊢
      cases p <;> simp_all [TokenKind.canBeginExpr, isPrefixOperator]
  · next name hk =>
    have hident : (c.kindAt 0).identName?.isSome = true := by rw [hk]; rfl
    simp only [after_bind, after_atPunct, after_ite, after_bump]
    split
    · refine (After.and ident_placed ident_takes).imp fun param c₁ ⟨hparam, htakes⟩ => ?_
      have hlt := htakes hident
      have hhead := hparam.before (.one c₁)
      have := (Reads.one c₁).le
      refine (lambdaBody_placed hr (by omega) hhead).imp fun n c₂ hn => ⟨hn.placed, fun _ => ?_⟩
      have := hn.le
      omega
    · exact (joined_placed hr hc).imp fun _ _ ⟨h, htakes⟩ => ⟨h, fun _ => htakes (by rw [hk]; rfl)⟩
  · next hparen hp hid =>
    refine (joined_placed hr hc).imp fun _ _ ⟨h, htakes⟩ => ⟨h, fun hb => htakes ?_⟩
    cases hkind : c.kindAt 0 <;> simp_all [startsPrimary, TokenKind.canBeginExpr]

/-- The operator that comes next is made of tokens. -/
lemma infixOperator?_spec : infixOperator?.After c fun o c' =>
    c' = c ∧ ∀ a, o = some a → c.kindAt 0 ≠ .eof ∧ a.2.2 ≠ 0 := by
  have hsingle : ∀ a : Nat × String × Nat,
      ((strength? (c.peek 0).kind).map fun strength => (strength, leafText (c.peek 0).kind, 1))
        = some a →
      c.kindAt 0 ≠ .eof ∧ a.2.2 ≠ 0 := by
    intro a ha
    obtain ⟨strength, hs, rfl⟩ := Option.map_eq_some_iff.mp ha
    refine ⟨fun heof => ?_, Nat.one_ne_zero⟩
    rw [kindAt] at heof
    rw [heof] at hs
    cases hs
  simp only [infixOperator?, after_bind, after_get, after_ite, after_pure]
  split
  · next hk =>
    have hne : c.kindAt 0 ≠ .eof := by simp [kindAt, hk]
    split
    · exact ⟨trivial, by simp⟩
    · split
      · next hcount =>
        refine ⟨trivial, fun a ha => ⟨hne, ?_⟩⟩
        obtain rfl := Option.some.inj ha
        show min c.runLength 3 ≠ 0
        omega
      · exact ⟨trivial, hsingle⟩
  · exact ⟨trivial, hsingle⟩

lemma infixStep_placed {least : Nat} (hr : r.Good m) (hc : c.ahead.length ≤ m) (h : Placed c₀ n c) :
    (infixStep r c₀.offset least n).After c fun o c' =>
      (∀ n', o = some n' → Placed c₀ n' c' ∧ Takes c c') ∧ (o = none → Reads c c') := by
  simp only [infixStep, after_bind]
  refine After.imp infixOperator?_spec fun o c₁ ⟨hc₁, hop⟩ => ?_
  subst hc₁
  rcases o with _ | ⟨strength, op, count⟩
  · exact ⟨nofun, fun _ => .refl c₁⟩
  obtain ⟨hk, hcount⟩ := hop _ rfl
  simp only [after_ite, after_bind, after_pure, after_node]
  split
  · exact ⟨nofun, fun _ => .refl c₁⟩
  refine ((bumpAll_reads count).and (bumpAll_takes hcount hk)).imp fun _ c₂ ⟨hbump, htakes⟩ => ?_
  have h' := h.before hbump
  split
  · refine After.imp type_placed fun ty c₃ ⟨hty, _⟩ => ⟨fun n' hn => ?_, nofun⟩
    obtain rfl := Option.some.inj hn
    exact ⟨((Placed.inRole h' .left).cons hty).node rfl, Nat.lt_of_le_of_lt hty.le htakes⟩
  · refine (operandOr_placed (hr.operation _ _ (by omega))).imp fun rhs c₃ hrhs =>
      ⟨fun n' hn => ?_, nofun⟩
    obtain rfl := Option.some.inj hn
    exact ⟨((Placed.inRole h' .left).cons hrhs).node (by decide) |>.withText _ rfl,
      Nat.lt_of_le_of_lt hrhs.le htakes⟩

theorem operation_placed {least : Nat} (hr : r.Good m) (hc : c.ahead.length ≤ m) :
    (operation r least).After c fun n c' =>
      Placed c n c' ∧ ((c.kindAt 0).canBeginExpr = true → Takes c c') := by
  simp only [operation, after_bind, after_start]
  refine (unary_placed hr hc).imp fun n c₁ ⟨hn, htakes⟩ => ?_
  refine (chain_placed hn fun n' c' hn' =>
    infixStep_placed hr (Nat.le_trans hn'.le hc) hn').imp fun n' c₂ ⟨hn', hle⟩ => ⟨hn', fun hb => ?_⟩
  exact Nat.lt_of_le_of_lt hle (htakes hb)

theorem conditional_placed (hr : r.Good m) (hc : c.ahead.length ≤ m) :
    (conditional r).After c fun n c' =>
      Placed c n c' ∧ ((c.kindAt 0).canBeginExpr = true → Takes c c') := by
  simp only [conditional, after_bind, after_start, after_eat, after_ite, after_node, after_pure,
    reduceIte, Bool.false_eq_true]
  refine (operation_placed hr hc).imp fun condition c₁ ⟨hcondition, htakes⟩ => ?_
  split
  · next hk =>
    have hlt : Takes c₁ c₁.advance := takes_advance (by simp [hk])
    have hle := hcondition.le
    refine (expressionOr_placed hr (by omega)).imp fun whenTrue c₂ htrue => ?_
    refine After.imp expect_reads fun _ c₃ hcolon => ?_
    have htrue' := htrue.before hcolon
    have hle' := htrue'.le
    refine (operandOr_placed (hr.conditional _ (by omega))).imp fun whenFalse c₄ hfalse => ?_
    have hrest := PlacedAll.behind (.one c₁) (htrue'.cons hfalse)
    refine ⟨((hcondition.inRole .condition).cons hrest).node rfl, fun hb => ?_⟩
    exact Nat.lt_of_le_of_lt hrest.le (htakes hb)
  · exact ⟨hcondition, htakes⟩

lemma assignmentOperator?_spec : assignmentOperator?.After c fun o c' =>
    c' = c ∧ ∀ a, o = some a → c.kindAt 0 ≠ .eof ∧ a.2 ≠ 0 := by
  simp only [assignmentOperator?, after_bind, after_get]
  split
  · next hk =>
    refine ⟨rfl, fun a ha => ⟨by simp [kindAt, hk], ?_⟩⟩
    obtain rfl := Option.some.inj ha
    exact Nat.one_ne_zero
  · next hk =>
    refine ⟨rfl, fun a ha => ⟨by simp [kindAt, hk], ?_⟩⟩
    obtain rfl := Option.some.inj ha
    exact Nat.one_ne_zero
  · next hk =>
    rw [after_ite]
    split
    · refine ⟨rfl, fun a ha => ⟨by simp [kindAt, hk], ?_⟩⟩
      obtain rfl := Option.some.inj ha
      exact Nat.succ_ne_zero _
    · exact ⟨rfl, by simp⟩
  · exact ⟨rfl, by simp⟩

/-- An expression takes a token where one can start. -/
theorem expression_placed (hr : r.Good m) (hc : c.ahead.length ≤ m) :
    (expression r).After c fun n c' =>
      Placed c n c' ∧ ((c.kindAt 0).canBeginExpr = true → Takes c c') := by
  simp only [expression, after_bind, after_start]
  refine (conditional_placed hr hc).imp fun lhs c₁ ⟨hlhs, htakes⟩ => ?_
  refine After.imp assignmentOperator?_spec fun o c₂ ⟨hc₂, hop⟩ => ?_
  subst hc₂
  rcases o with _ | ⟨op, count⟩
  · exact ⟨hlhs, htakes⟩
  obtain ⟨hk, hcount⟩ := hop _ rfl
  simp only [after_bind, after_node, after_pure]
  refine ((bumpAll_reads count).and (bumpAll_takes hcount hk)).imp fun _ c₃ ⟨hbump, hlt⟩ => ?_
  have hle := hlhs.le
  refine (operandOr_placed (hr.expression _ (by omega))).imp fun rhs c₄ hrhs => ?_
  have hrest := PlacedAll.behind hbump hrhs
  refine ⟨((hlhs.inRole .left).cons hrest).node (by decide) |>.withText _ rfl, fun hb => ?_⟩
  exact Nat.lt_of_le_of_lt hrest.le (htakes hb)

end Shorthand.Parser
