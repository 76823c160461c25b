import Shorthand.Proofs.Building.Parse

/-!
Speculation leaves no trace.

Some rules are only tried: a type, a cast, a lambda and the head of a declaration. Where one of them gives
up, reading goes back to the place it started from and cuts the complaints to their number there. That
this brings back the very complaints made before needs that none of them was taken back in between,
however deep speculations are nested. It holds because every rule only adds to what was built
(`Builds.later`).

* `Attempt.leavesNoTrace`: where a speculation gives up, the cursor is as it was before.
* `Routine.forward`: no routine of the grammar takes a complaint back or goes back in the tokens, which
  is passed on by whatever rules are put together from (`Forward.bind`, `Forward.ite`).
* `Builds.told`: complaints are about tokens ahead and come in the order of the text.
* `speculation_leavesNoTrace` is all of this together for the tree of a text.
-/

namespace Shorthand

open Cursor

/-! ### Where complaints are made -/

namespace Cursor

/-- What is complained about on the way from one cursor to another, the newest first: each complaint is
about a token ahead or about the end of the text, and none about an earlier one than those before it. -/
structure Complained (c c' : Cursor) (new : List Diagnostic) : Prop where
  problems : c'.problems = new ++ c.problems
  ofToken : ∀ d ∈ new, ∃ t ∈ c.ahead ++ [.eofAt c.textEnd], t.span = d.span
  within : ∀ d ∈ new, c.offset ≤ d.span.start ∧ d.span.start ≤ c'.offset
  inOrder : new.Pairwise fun d e => e.span.start ≤ d.span.start

/-- Reading goes on in a text and complains in the order of the text. -/
structure Told (src : List Char) (c c' : Cursor) : Prop where
  fits : c'.Fits src
  ahead : c'.ahead <:+ c.ahead
  offset_le : c.offset ≤ c'.offset
  complained : ∃ new, Complained c c' new

namespace Told

variable {src : List Char} {c c₁ c' : Cursor}

/-- Where nothing is taken and nothing is complained about. -/
lemma quiet (h : c'.Fits src) (hahead : c'.ahead <:+ c.ahead)
    (hoffset : c.offset ≤ c'.offset) (hproblems : c'.problems = c.problems) : Told src c c' :=
  ⟨h, hahead, hoffset, [], hproblems, by simp, by simp, .nil⟩

lemma refl (hc : c.Fits src) : Told src c c := .quiet hc List.suffix_rfl (Nat.le_refl _) rfl

lemma advance (hc : c.Fits src) : Told src c c.advance := by
  refine .quiet hc.advance ?_ hc.offset_le_advance problems_advance
  rw [ahead_advance]
  exact List.tail_suffix _

/-- That reading has stalled makes no difference. -/
lemma setStalled (hc : c.Fits src) (stalled : Bool) :
    Told src c { c with stalled := stalled } :=
  .quiet ⟨hc.textEnd, hc.reached, hc.ahead, hc.spelled⟩ List.suffix_rfl (Nat.le_refl _) rfl

/-- The next token is complained about. -/
lemma complain (hc : c.Fits src) (what : String) :
    Told src c (c.complain (c.complaint what)) := by
  refine ⟨⟨hc.textEnd, hc.reached, hc.ahead, hc.spelled⟩, List.suffix_rfl, Nat.le_refl _,
    [c.complaint what], rfl, ?_, ?_, List.pairwise_singleton _ _⟩
  · refine List.forall_mem_singleton.mpr ⟨c.peek 0, ?_, rfl⟩
    cases ha : c.ahead with
    | nil => simp [peek, ha]
    | cons t ts => simp [peek, ha]
  · exact List.forall_mem_singleton.mpr ⟨Nat.le_refl _, Nat.le_refl _⟩

/-- What is complained about later lies no earlier in the text. -/
lemma trans (hc : c.Fits src) (h : Told src c c₁) (h' : Told src c₁ c') : Told src c c' := by
  obtain ⟨new, hnew⟩ := h.complained
  obtain ⟨new', hnew'⟩ := h'.complained
  refine ⟨h'.fits, h'.ahead.trans h.ahead, Nat.le_trans h.offset_le h'.offset_le, new' ++ new,
    ?_, ?_, ?_, ?_⟩
  · rw [hnew'.problems, hnew.problems, List.append_assoc]
  · have hend : c₁.textEnd = c.textEnd := h.fits.textEnd.trans hc.textEnd.symm
    refine List.forall_mem_append.mpr ⟨fun d hd => ?_, hnew.ofToken⟩
    obtain ⟨t, ht, hspan⟩ := hnew'.ofToken d hd
    rw [hend] at ht
    refine ⟨t, ?_, hspan⟩
    rcases List.mem_append.mp ht with ht | ht
    · exact List.mem_append_left _ (h.ahead.mem ht)
    · exact List.mem_append_right _ ht
  · refine List.forall_mem_append.mpr ⟨fun d hd => ?_, fun d hd => ?_⟩
    · exact ⟨Nat.le_trans h.offset_le (hnew'.within d hd).1, (hnew'.within d hd).2⟩
    · exact ⟨(hnew.within d hd).1, Nat.le_trans (hnew.within d hd).2 h'.offset_le⟩
  · refine List.pairwise_append.mpr ⟨hnew'.inOrder, hnew.inOrder, fun d hd e he => ?_⟩
    exact Nat.le_trans (hnew.within e he).2 (hnew'.within d hd).1

end Told

end Cursor

namespace Parser

variable {r : Rules} {c c' : Cursor} {ns : List Node} {start : Nat}

/-- Whatever is built, complaints are about tokens ahead and come in the order of the text. -/
theorem Builds.told {src : List Char} (h : Builds c ns c') (hc : c.Fits src) : Told src c c' := by
  induction h with
  | refl c => exact .refl hc
  | advance c => exact .advance hc
  | complain c what => exact .complain hc what
  | stall c => exact .setStalled hc true
  | undo _ _ => exact .setStalled hc _
  | append _ _ ih ih' => exact .trans hc (ih hc) (ih' (ih hc).fits)
  | sublist _ _ ih => exact ih hc
  | leaf => exact .advance hc
  | missing _ _ ih => exact ih hc
  | node _ _ ih => exact ih hc
  | arranged _ _ ih => exact ih hc
  | qualifiedName _ _ _ ih => exact ih hc
  | inRole _ _ ih => exact ih hc
  | untypedCatch _ ih => exact ih hc

/-! ### Speculations -/

/-- The rules that are only tried. -/
inductive Attempt (r : Rules) : {α : Type} → Parser (Option α) → Prop
  | type : Attempt r tryType
  | cast (start : Nat) : Attempt r (tryCast r start)
  | lambda (start : Nat) : Attempt r (tryLambda r start)
  | localHead : Attempt r (tryLocalHead r)

lemma tryType_leavesNoTrace :
    tryType.After c fun o c' => o = none → c' = { c with stalled := c'.stalled } := by
  simp only [tryType, after_bind, after_atType, after_ite, after_get, after_pure, after_rewind]
  split
  · refine After.imp type_builds fun n c₁ hn => ?_
    split
    · exact fun _ => hn.later.backTo_eq
    · intro h
      cases h
  · exact fun _ => trivial

lemma tryCast_leavesNoTrace (hr : r.Building) :
    (tryCast r start).After c fun o c' => o = none → c' = { c with stalled := c'.stalled } := by
  simp only [tryCast, after_bind, after_get, after_bump, after_atPrimitiveType]
  refine After.imp tryType_builds fun o c₁ ho => ?_
  have hlater : Later c c₁ := (Builds.behind (.advance c) ho).later
  cases o with
  | none => exact fun _ => hlater.backTo_eq
  | some ty =>
    simp only [after_bind, after_atPunct, after_peek, after_pure, after_ite, after_bump, after_node,
      after_rewind]
    split
    · refine (hr.unary _).imp fun operand c₂ _ h => ?_
      cases h
    · exact fun _ => hlater.backTo_eq

lemma tryLambda_leavesNoTrace :
    (tryLambda r start).After c fun o c' => o = none → c' = { c with stalled := c'.stalled } := by
  simp only [tryLambda, after_bind, after_ite, after_pure]
  refine After.imp atLambda_stays fun b c₁ hstays => ?_
  subst hstays
  split
  · intro h
    cases h
  · exact fun _ => rfl

lemma tryLocalHead_leavesNoTrace (hr : r.Building) :
    (tryLocalHead r).After c fun o c' => o = none → c' = { c with stalled := c'.stalled } := by
  simp only [tryLocalHead, after_bind, after_get]
  refine (modifiers_builds hr).imp fun ms c₁ hms => ?_
  refine After.imp tryType_builds fun o c₂ ho => ?_
  have hlater : Later c c₂ := (hms.append ho).later
  cases o with
  | some ty =>
    simp only [after_bind, after_atIdent, after_ite, after_pure, after_rewind]
    split
    · intro h
      cases h
    · exact fun _ => hlater.backTo_eq
  | none =>
    simp only [after_bind, after_ite, after_pure, after_rewind]
    split
    · exact fun _ => hlater.backTo_eq
    · intro h
      cases h

/-- Where a speculation gives up, the place and the complaints are those from before. -/
theorem Attempt.leavesNoTrace {α : Type} {p : Parser (Option α)} (h : Attempt r p) (hr : r.Building)
    (c : Cursor) : p.After c fun o c' => o = none → c' = { c with stalled := c'.stalled } := by
  cases h with
  | type => exact tryType_leavesNoTrace
  | cast => exact tryCast_leavesNoTrace hr
  | lambda => exact tryLambda_leavesNoTrace
  | localHead => exact tryLocalHead_leavesNoTrace hr

/-! ### Routines -/

/-- Wherever it starts, the rule takes no complaint back and does not go back in the tokens. -/
def Forward {α : Type} (p : Parser α) : Prop := ∀ c, p.After c fun _ c' => Later c c'

namespace Forward

variable {α β : Type} {p q : Parser α} {f : α → Parser β}

lemma of_builds {nodes : α → List Node} (h : ∀ c, p.After c fun x c' => Builds c (nodes x) c') :
    Forward p :=
  fun c => (h c).imp fun _ _ h => h.later

lemma pure (x : α) : Forward (pure x) := fun c => .refl c

lemma atPunct (p : Punct) : Forward (atPunct p) := fun c => .refl c

/-- The nodes that a new one is put around have been read before. -/
lemma node {kind : Kind} {start : Nat} {children : List Node} : Forward (node kind start children) :=
  fun c => .refl c

lemma bind (hp : Forward p) (hf : ∀ x, Forward (f x)) : Forward (p >>= f) :=
  fun c => (hp c).bind fun x c₁ h => (hf x c₁).imp fun _ _ h' => h.trans h'

lemma ite {b : Prop} [Decidable b] (hp : Forward p) (hq : Forward q) : Forward (if b then p else q) := by
  split
  · exact hp
  · exact hq

lemma bump : Forward bump := fun c => (Builds.advance c).later

lemma ident (role : Role) : Forward (ident role) := .of_builds fun _ => ident_builds

lemma typeParameters : Forward typeParameters := .of_builds fun _ => typeParameters_builds

lemma typesAfter (k : Keyword) (role : Role) : Forward (typesAfter k role) :=
  .of_builds fun _ => typesAfter_builds

lemma classBody (hr : r.Building) : Forward (classBody r) := .of_builds fun _ => classBody_builds hr

end Forward

section Handed

/-! Some routines are handed what was read before. It makes no difference to where they lead. -/

variable (hr : r.Building)
include hr

lemma lambdaBody_forward (parameters : List Node) : Forward (lambdaBody r start parameters) := by
  refine .bind (.bind (.atPunct .openBrace) fun _ => .ite ?_ ?_) fun _ => .node
  · exact .of_builds fun _ => block_builds hr
  · exact .of_builds fun _ => expressionOr_builds hr

lemma arrayCreation_forward (ty : Node) : Forward (arrayCreation r start ty) := by
  have hdimensions : Forward (manyUntil (notAtPunct .openBracket) (some <$> dimension r)) :=
    .of_builds fun _ => manyUntil_builds (fun _ _ => after_notAtPunct) fun c =>
      after_map.mpr (dimension_builds hr)
  have hinit : Forward (itemIf (atPunct .openBrace) (arrayInitializer r .initializer)) :=
    .of_builds fun c => itemIf_builds (after_atPunct.mpr (.refl c)) fun _ => arrayInitializer_builds hr
  exact .bind hdimensions fun _ => .bind hinit fun _ => .node

lemma objectCreation_forward (before : List Node) : Forward (objectCreation r start before) := by
  refine .bind (.of_builds fun _ => creationArguments_builds hr) fun _ => ?_
  exact .bind (.of_builds fun _ => anonymousBody_builds hr) fun _ => .node

lemma creation_forward (outer : Option Node) : Forward (creation r start outer) := by
  refine .bind .bump fun _ => .bind (.of_builds fun _ => creationType_builds) fun ty => ?_
  refine .bind (.atPunct .openBracket) fun _ => .ite (arrayCreation_forward hr ty) ?_
  exact objectCreation_forward hr _

lemma annotationTypeDeclaration_forward (modifiers : List Node) :
    Forward (annotationTypeDeclaration r start modifiers) := by
  refine .bind (.of_builds fun _ => bumpAll_builds 2) fun _ => .bind (.ident .name) fun _ => ?_
  exact .bind (.classBody hr) fun _ => .node

lemma enumDeclaration_forward (modifiers : List Node) :
    Forward (enumDeclaration r start modifiers) := by
  refine .bind (.ident .name) fun _ => .bind (.typesAfter .implementsKw .superInterface) fun _ => ?_
  exact .bind (.of_builds fun _ => enumBody_builds hr) fun _ => .node

lemma interfaceDeclaration_forward (modifiers : List Node) :
    Forward (interfaceDeclaration r start modifiers) := by
  refine .bind (.ident .name) fun _ => .bind .typeParameters fun _ => ?_
  refine .bind (.typesAfter .extendsKw .superInterface) fun _ => .bind (.classBody hr) fun _ => ?_
  exact .bind .node fun _ => .pure _

lemma classDeclaration_forward (modifiers : List Node) :
    Forward (classDeclaration r start modifiers) := by
  refine .bind (.ident .name) fun _ => .bind .typeParameters fun _ => ?_
  refine .bind (.of_builds fun _ => itemIf_builds eatKeyword_builds fun _ => type_builds) fun _ => ?_
  refine .bind (.typesAfter .implementsKw .superInterface) fun _ => .bind (.classBody hr) fun _ => ?_
  exact .bind .node fun _ => .pure _

lemma typeDeclarationAfter_forward (modifiers : List Node) :
    Forward (typeDeclarationAfter r start modifiers) := by
  have hword (k : Keyword) : Forward (eatKeyword k) := .of_builds fun _ => eatKeyword_builds
  refine .bind (.atPunct .atSign) fun _ => .ite (annotationTypeDeclaration_forward hr modifiers) ?_
  refine .bind (hword .enumKw) fun _ => .ite (enumDeclaration_forward hr modifiers) ?_
  refine .bind (hword .interfaceKw) fun _ => .ite (interfaceDeclaration_forward hr modifiers) ?_
  exact .bind .bump fun _ => classDeclaration_forward hr modifiers

lemma methodAfter_forward (before : List Node) : Forward (methodAfter r start before) := by
  have hparameters : Forward (sepUntil atParametersEnd .comma (parameter r)) :=
    .of_builds fun _ => sepUntil_builds (fun _ _ => after_atParametersEnd) fun _ => parameter_builds hr
  refine .bind .bump fun _ => .bind hparameters fun _ => ?_
  refine .bind (.of_builds fun _ => expect_builds) fun _ => ?_
  refine .bind (.of_builds fun _ => skipEmptyBrackets_builds) fun _ => ?_
  refine .bind (.typesAfter .throwsKw .throws) fun _ => ?_
  exact .bind (.of_builds fun _ => methodBody_builds hr) fun _ => .node

end Handed

/-- The routines of the grammar that take tokens or complain, over some rules. -/
inductive Routine (r : Rules) : {α : Type} → Parser α → Prop
  | bump : Routine r bump
  | eat (p : Punct) : Routine r (eat p)
  | eatKeyword (k : Keyword) : Routine r (eatKeyword k)
  | expectAs (p : Punct) (what : String) : Routine r (expectAs p what)
  | expect (p : Punct) : Routine r (expect p)
  | expectKeyword (k : Keyword) : Routine r (expectKeyword k)
  | unexpected (what : String) : Routine r (unexpected what)
  | missing (role : Role) (what : String) : Routine r (missing role what)
  | leaf (kind : Kind) (role : Role) : Routine r (leaf kind role)
  | ident (role : Role) : Routine r (ident role)
  | qualifiedName (role : Role) : Routine r (qualifiedName role)
  | attempt {α : Type} {p : Parser (Option α)} (h : Attempt r p) : Routine r p
  | type (role : Role) : Routine r (type role)
  | createdType : Routine r createdType
  | typeArguments (depth : Nat) : Routine r (typeArguments (typeTo depth))
  | typeParameters : Routine r typeParameters
  | typeList (role : Role) : Routine r (typeList role)
  | expressionOr (role : Role) (what : String) : Routine r (expressionOr r role what)
  | operandOr (role : Role) : Routine r (operandOr r.expression role)
  | expression : Routine r (expression r)
  | conditional : Routine r (conditional r)
  | operation (least : Nat) : Routine r (operation r least)
  | unary : Routine r (unary r)
  | lambdaBody (start : Nat) (parameters : List Node) : Routine r (lambdaBody r start parameters)
  | joined : Routine r (joined r)
  | primary : Routine r (primary r)
  | creation (start : Nat) (outer : Option Node) : Routine r (creation r start outer)
  | arrayInitializer (role : Role) : Routine r (arrayInitializer r role)
  | arguments : Routine r (arguments r)
  | compilationUnit : Routine r (compilationUnit r)
  | packageDeclaration : Routine r packageDeclaration
  | importDeclaration : Routine r importDeclaration
  | modifiers : Routine r (modifiers r)
  | annotation : Routine r <| annotation r
  | typeDeclarationAfter (start : Nat) (modifiers : List Node) :
    Routine r (typeDeclarationAfter r start modifiers)
  | classBody : Routine r (classBody r)
  | enumBody : Routine r (enumBody r)
  | member : Routine r (member r)
  | methodAfter (start : Nat) (before : List Node) : Routine r (methodAfter r start before)
  | parameter : Routine r (parameter r)
  | catchParameter : Routine r (catchParameter r)
  | catchType : Routine r catchType
  | variableFragments : Routine r (variableFragments r)
  | block (role : Role) : Routine r (block r role)
  | subStatement (role : Role) : Routine r (subStatement r role)
  | statement : Routine r (statement r)
  | parenthesizedCondition : Routine r (parenthesizedCondition r)
  | ifStatement (start : Nat) : Routine r (ifStatement r start)
  | forStatement (start : Nat) : Routine r (forStatement r start)
  | switchStatement (start : Nat) : Routine r (switchStatement r start)
  | tryStatement (start : Nat) : Routine r (tryStatement r start)

/-- No routine takes a complaint back or goes back in the tokens. -/
theorem Routine.forward {α : Type} {p : Parser α} (h : Routine r p) (hr : r.Building) : Forward p := by
  cases h with
  | bump => exact .bump
  | eat => exact .of_builds fun _ => eat_builds
  | eatKeyword => exact .of_builds fun _ => eatKeyword_builds
  | expectAs => exact fun _ => After.imp expectAs_builds fun _ _ h => h.1.later
  | expect => exact .of_builds fun _ => expect_builds
  | expectKeyword => exact fun _ => After.imp expectKeyword_builds fun _ _ h => h.1.later
  | unexpected what => exact fun c => (Builds.complain c what).later
  | missing => exact .of_builds fun _ => missing_builds
  | leaf => exact fun c => (Builds.advance c).later
  | ident => exact .ident _
  | qualifiedName => exact .of_builds fun _ => qualifiedName_builds
  | attempt h =>
    cases h with
    | type => exact .of_builds fun _ => tryType_builds
    | cast => exact .of_builds fun _ => tryCast_builds hr
    | lambda => exact .of_builds fun _ => tryLambda_builds hr
    | localHead => exact .of_builds fun _ => tryLocalHead_builds hr
  | type => exact .of_builds fun _ => type_builds
  | createdType => exact .of_builds fun _ => createdType_builds
  | typeArguments depth => exact .of_builds fun _ => typeArguments_builds (typeTo_builds depth)
  | typeParameters => exact .typeParameters
  | typeList => exact .of_builds fun _ => typeList_builds
  | expressionOr => exact .of_builds fun _ => expressionOr_builds hr
  | operandOr => exact .of_builds fun _ => operandOr_builds (hr.expression _)
  | expression => exact .of_builds fun _ => expression_builds hr
  | conditional => exact .of_builds fun _ => conditional_builds hr
  | operation => exact .of_builds fun _ => operation_builds hr
  | unary => exact .of_builds fun _ => unary_builds hr
  | lambdaBody => exact lambdaBody_forward hr _
  | joined => exact .of_builds fun _ => joined_builds hr
  | primary => exact .of_builds fun _ => primary_builds hr
  | creation => exact creation_forward hr _
  | arrayInitializer => exact .of_builds fun _ => arrayInitializer_builds hr
  | arguments => exact .of_builds fun _ => arguments_builds hr
  | compilationUnit => exact .of_builds fun _ => compilationUnit_builds hr
  | packageDeclaration => exact .of_builds fun _ => packageDeclaration_builds
  | importDeclaration => exact .of_builds fun _ => importDeclaration_builds
  | modifiers => exact .of_builds fun _ => modifiers_builds hr
  | annotation => exact .of_builds fun _ => annotation_builds hr
  | typeDeclarationAfter => exact typeDeclarationAfter_forward hr _
  | classBody => exact .classBody hr
  | enumBody => exact .of_builds fun _ => enumBody_builds hr
  | member => exact .of_builds fun _ => member_builds hr
  | methodAfter => exact methodAfter_forward hr _
  | parameter => exact .of_builds fun _ => parameter_builds hr
  | catchParameter =>
    refine fun _ => (catchParameter_builds hr).imp fun _ _ h => ?_
    rcases h with h | ⟨_, _, _, _, _, _, h⟩
    · exact h.later
    · exact h.later
  | catchType => exact .of_builds fun _ => catchType_builds
  | variableFragments => exact .of_builds fun _ => variableFragments_builds hr
  | block => exact .of_builds fun _ => block_builds hr
  | subStatement => exact .of_builds fun _ => subStatement_builds hr
  | statement => exact fun _ => (statement_builds hr).imp fun _ _ h => h.1.later
  | parenthesizedCondition => exact .of_builds fun _ => parenthesizedCondition_builds hr
  | ifStatement => exact .of_builds fun _ => ifStatement_builds hr
  | forStatement => exact .of_builds fun _ => forStatement_builds hr
  | switchStatement => exact .of_builds fun _ => switchStatement_builds hr
  | tryStatement => exact .of_builds fun _ => tryStatement_builds hr

/-- The rules that texts are read with. -/
def grammarRules : Set Rules :=
  {r | ∃ depth, r = rulesTo depth ∨ ∃ bound, r = (rulesTo depth).below bound}

lemma building_of_mem_grammarRules (h : r ∈ grammarRules) : r.Building := by
  obtain ⟨depth, rfl | ⟨bound, rfl⟩⟩ := h
  · exact rulesTo_building depth
  · exact (rulesTo_building depth).below bound

end Parser

/-! ### Whole texts -/

namespace ParseOutput

/-- What the parser complains about, in the order in which it does so. -/
def complaints (out : ParseOutput) : List Diagnostic := out.diagnostics.filter (·.stage == .parse)

/-- The complaints of the parser come in the order of the text, and each covers a token of it. -/
structure ComplainsInOrder (out : ParseOutput) : Prop where
  inOrder : out.complaints.Pairwise fun d e => d.span.start ≤ e.span.start
  ofToken : ∀ d ∈ out.complaints, ∃ t ∈ out.tokens, t.span = d.span

end ParseOutput

/-- The lexer complains for itself. -/
lemma stage_of_mem_lex {source : String} {d : Diagnostic} (h : d ∈ (lex source).diagnostics) :
    d.stage = .lex := by
  obtain ⟨p, -, hp⟩ := List.mem_filterMap.mp h
  obtain ⟨message, -, rfl⟩ := Option.map_eq_some_iff.mp hp
  rfl

/-- Whatever a text is read as, the tokens are those of the text. -/
lemma tokens_ofSource (rule : Parser.Rules → Parser Node) (source : String) :
    (ParseOutput.ofSource rule source).tokens = (lex source).tokens := rfl

/-- What is ahead at the start of a text are tokens of it. -/
lemma mem_tokens_of_mem_front {source : String} {t : Token}
    (ht : t ∈ (Cursor.front source).ahead ++ [.eofAt (Cursor.front source).textEnd]) :
    t ∈ (lex source).tokens := by
  rcases List.mem_append.mp ht with ht | ht
  · exact (List.mem_filter.mp ht).1
  · exact List.mem_append_right _ ht

theorem parse_complainsInOrder (source : String) : (parse source).ComplainsInOrder := by
  obtain ⟨c', hbuilt⟩ := parse_builds source
  have hfits : (Cursor.front source).Fits source.toList := fits_ofTokens source
  obtain ⟨new, hnew⟩ := (hbuilt.builds.told hfits).complained
  have hproblems : c'.problems = new := hnew.problems.trans (List.append_nil _)
  have hstage : ∀ d ∈ new, d.stage = .parse := by
    obtain ⟨new', hnew', hstage⟩ := hbuilt.builds.later.problems
    rw [← hproblems, hnew'.trans (List.append_nil _)]
    exact hstage
  have hcomplaints : (parse source).complaints = new.reverse := by
    have hlex : (lex source).diagnostics.filter (·.stage == .parse) = [] := by
      refine List.filter_eq_nil_iff.mpr fun d hd => ?_
      rw [stage_of_mem_lex hd]
      decide
    rw [ParseOutput.complaints, hbuilt.diagnostics, List.filter_append, hlex, List.nil_append,
      hproblems]
    refine List.filter_eq_self.mpr fun d hd => ?_
    rw [hstage d (List.mem_reverse.mp hd)]
    rfl
  constructor
  · rw [hcomplaints]
    exact List.pairwise_reverse.mpr hnew.inOrder
  · rw [hcomplaints]
    intro d hd
    obtain ⟨t, ht, hspan⟩ := hnew.ofToken d (List.mem_reverse.mp hd)
    rw [parse, tokens_ofSource]
    exact ⟨t, mem_tokens_of_mem_front ht, hspan⟩

/-- A speculation that gives up leaves the place in the tokens and the complaints as they were. No
routine takes a complaint back or goes back in the tokens. So the complaints about a text come in its
order, each about one of its tokens. -/
theorem speculation_leavesNoTrace (source : String) :
    (∀ r ∈ Parser.grammarRules, ∀ (α : Type) (p : Parser (Option α)), Parser.Attempt r p → ∀ c,
        p.After c fun o c' => o = none → c' = { c with stalled := c'.stalled })
      ∧ (∀ r ∈ Parser.grammarRules, ∀ (α : Type) (p : Parser α), Parser.Routine r p → ∀ c,
        p.After c fun _ c' => c.problems <:+ c'.problems ∧ c'.ahead <:+ c.ahead)
      ∧ (parse source).ComplainsInOrder := by
  refine ⟨fun r hr α p hp c => ?_, fun r hr α p hp c => ?_, parse_complainsInOrder source⟩
  · exact hp.leavesNoTrace (Parser.building_of_mem_grammarRules hr) c
  · refine (hp.forward (Parser.building_of_mem_grammarRules hr) c).imp fun _ c' h => ⟨?_, h.ahead⟩
    obtain ⟨new, hnew, -⟩ := h.problems
    exact ⟨new, hnew.symm⟩

/-- A cast is given up that has no type argument behind its sign, and two expressions break off. -/
theorem speculation_leavesNoTrace_cast :
    ((Parser.tryCast (Parser.rulesTo 4) 0).run (Cursor.front "(a<) + b")).1 = none
      ∧ ((Parser.tryCast (Parser.rulesTo 4) 0).run (Cursor.front "(a<) + b")).2.problems = []
      ∧ (parse "class A { int x = (a) + ; int y = ; }").complaints.length = 2
      ∧ (parse "class A { int x = (a) + ; int y = ; }").ComplainsInOrder := by
  have hrules : Parser.rulesTo 4 ∈ Parser.grammarRules := ⟨4, .inl rfl⟩
  have hnone : ((Parser.tryCast (Parser.rulesTo 4) 0).run (Cursor.front "(a<) + b")).1 = none :=
    Option.isNone_iff_eq_none.mp (by decide +kernel)
  have hall := speculation_leavesNoTrace "class A { int x = (a) + ; int y = ; }"
  refine ⟨hnone, ?_, by decide +kernel, hall.2.2⟩
  exact congrArg Cursor.problems
    (hall.1 _ hrules _ _ (.cast 0) (Cursor.front "(a<) + b") hnone)

end Shorthand
