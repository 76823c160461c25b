import Shorthand.Proofs.Reading.Declarations
import Shorthand.Proofs.Reading.Expressions

/-!
Reading statements.

A statement takes a token except at the end of a block, which is the end of a body: every token that can
start a statement is taken by the rule that it leads to, and every other one is skipped.
-/

namespace Shorthand.Parser

open Cursor

variable {r : Rules} {m : Nat} {c c₀ : Cursor} {role : Role} {before : List Node}

/-! ### Pieces of statements -/

lemma subStatement_placed (hr : r.Good m) (hc : c.ahead.length < m) :
    (subStatement r role).After c (Placed c) := by
  simp only [subStatement, after_bind, after_start]
  refine (hr.statement c hc).imp fun o c' ⟨ho, _⟩ => ?_
  cases o with
  | some n => exact Placed.inRole ho role
  | none => exact .missing ho.reads role

/-- Something between parentheses. -/
lemma inParens_placed {inner : Parser Node} (hinner : ∀ c', Reads c c' → inner.After c' (Placed c')) :
    (do expect .openParen; let n ← inner; expect .closeParen; return n : Parser Node).After c
      (Placed c) := by
  simp only [after_bind, after_pure]
  refine After.imp expect_reads fun _ c₁ hopen => ?_
  refine (hinner c₁ hopen).imp fun n c₂ hn => ?_
  exact After.imp expect_reads fun _ c₃ hclose => .behind hopen (hn.before hclose)

lemma parenthesizedCondition_placed (hr : r.Good m) (hc : c.ahead.length < m) :
    (parenthesizedCondition r).After c (Placed c) :=
  inParens_placed fun _ h => expressionOr_placed hr (by have := h.le; omega)

lemma parenthesized_placed (hr : r.Good m) (hc : c.ahead.length < m) :
    (parenthesized r).After c (Placed c) :=
  inParens_placed fun _ h => expressionOr_placed hr (by have := h.le; omega)

/-- The head of a declaration takes a token, and one that was only tried leaves no trace. There is one
wherever a modifier starts. -/
lemma tryLocalHead_placed (hr : r.Good m) (hc : c.ahead.length ≤ m) :
    (tryLocalHead r).After c fun o c' =>
      (∀ ns, o = some ns → PlacedAll c ns c' ∧ Takes c c')
        ∧ (o = none → c' = c ∧ startsModifier c = false) := by
  simp only [tryLocalHead, after_bind, after_get]
  refine (modifiers_placed hr hc).imp fun ms c₁ ⟨hms, hstarts⟩ => ?_
  refine After.imp tryType_placed fun o c₂ ⟨hsome, hnone⟩ => ?_
  cases o with
  | some ty =>
    obtain ⟨hty, htakes⟩ := hsome ty rfl
    simp only [after_bind, after_atIdent, after_ite, after_pure, after_rewind]
    split
    · refine ⟨fun ns h => ?_, nofun⟩
      obtain rfl := Option.some.inj h
      exact ⟨hms.placed.trans hty, Nat.lt_of_lt_of_le htakes hms.placed.le⟩
    · next hneither =>
      refine ⟨nofun, fun _ => ⟨(hms.placed.reads.trans hty.reads).backTo_eq, hstarts ?_⟩⟩
      by_contra hne
      simp [hne] at hneither
  | none =>
    obtain rfl := hnone rfl
    simp only [after_ite, after_bind, after_rewind, after_pure]
    split
    · next hnil =>
      exact ⟨nofun, fun _ => ⟨hms.placed.reads.backTo_eq, hstarts (List.isEmpty_iff.mp hnil)⟩⟩
    · next hne =>
      refine After.imp missing_placed fun ty c₃ hty => ⟨fun ns h => ?_, nofun⟩
      obtain rfl := Option.some.inj h
      have hms' : ms ≠ [] := fun hnil => hne (List.isEmpty_iff.mpr hnil)
      exact ⟨hms.placed.trans hty, Nat.lt_of_le_of_lt hty.le (hms.takes hms')⟩

/-! ### Branches and loops -/

lemma ifStatement_placed (hr : r.Good m) (hc : c.ahead.length ≤ m) (hk : c.kindAt 0 ≠ .eof) :
    (ifStatement r c.offset).After c fun n c' => Placed c n c' ∧ Takes c c' := by
  have htakes : Takes c c.advance := takes_advance hk
  simp only [ifStatement, after_bind, after_bump, after_node, after_pure]
  refine (parenthesizedCondition_placed hr (by omega)).imp fun condition c₁ hcondition => ?_
  have hle₁ := hcondition.le
  refine (subStatement_placed hr (by omega)).imp fun whenTrue c₂ htrue => ?_
  have hle₂ := htrue.le
  refine (itemIf_placed eatKeyword_reads fun c' h => subStatement_placed hr ?_).imp
    fun whenFalse c₃ hfalse => ⟨?_, ?_⟩
  · have := h.le
    omega
  · have hall := PlacedAll.behind (.one c) (hcondition.cons (htrue.cons hfalse))
    have hlast : (condition :: whenTrue :: whenFalse).getLast?
        = some (whenFalse.getLastD whenTrue) := by
      rw [List.getLast?_cons_cons, List.getLast?_cons, List.getLastD_eq_getLast?]
    split
    · next hmissing => exact hall.nodeReaching hlast (beq_iff_eq.mp hmissing)
    · exact hall.node rfl
  · have := hfalse.le
    omega

lemma whileStatement_placed (hr : r.Good m) (hc : c.ahead.length ≤ m) (hk : c.kindAt 0 ≠ .eof) :
    (whileStatement r c.offset).After c fun n c' => Placed c n c' ∧ Takes c c' := by
  have htakes : Takes c c.advance := takes_advance hk
  simp only [whileStatement, after_bind, after_bump, after_node]
  refine (parenthesizedCondition_placed hr (by omega)).imp fun condition c₁ hcondition => ?_
  refine (subStatement_placed hr (by have := hcondition.le; omega)).imp fun body c₂ hbody => ?_
  have hall := hcondition.cons hbody
  exact ⟨(PlacedAll.behind (.one c) hall).node rfl, Nat.lt_of_le_of_lt hall.le htakes⟩

lemma conditionBehind_placed (hr : r.Good m) (hc : c.ahead.length < m) :
    (conditionBehind r).After c (Placed c) := by
  simp only [conditionBehind, after_bind, after_expectKeyword, after_ite, after_start, after_pure,
    reduceIte, Bool.false_eq_true]
  split
  · have hone := Reads.one c
    exact (parenthesizedCondition_placed hr (Nat.lt_of_le_of_lt hone.le hc)).imp
      fun _ _ h => .behind hone h
  · exact .missing (.complained c _) .condition

lemma doStatement_placed (hr : r.Good m) (hc : c.ahead.length ≤ m) (hk : c.kindAt 0 ≠ .eof) :
    (doStatement r c.offset).After c fun n c' => Placed c n c' ∧ Takes c c' := by
  have htakes : Takes c c.advance := takes_advance hk
  simp only [doStatement, after_bind, after_bump, after_node]
  refine (subStatement_placed hr (by omega)).imp fun body c₁ hbody => ?_
  refine (conditionBehind_placed hr (by have := hbody.le; omega)).imp fun condition c₂ hcond => ?_
  refine After.imp expect_reads fun _ c₃ hsemi => ?_
  have hall := (hbody.cons hcond).before hsemi
  exact ⟨(PlacedAll.behind (.one c) hall).node rfl, Nat.lt_of_le_of_lt hall.le htakes⟩

lemma enhancedFor_placed {c₁ : Cursor} (hr : r.Good m) (hc : c.ahead.length < m)
    (hr₁ : Reads c₀ c₁) (h : PlacedAll c₁ before c) :
    (enhancedFor r c₀.offset c₁.offset before).After c (Extended c₀ c) := by
  simp only [enhancedFor, after_bind, after_bump, after_node]
  refine After.imp ident_placed fun name c₂ hname => ?_
  have helement := (h.trans hname).node (by decide : Kind.singleVariableDeclaration.isComposed = true)
  have hcolon := hname.before (.one c₂)
  have hle := hcolon.le
  refine (expressionOr_placed hr (by omega)).imp fun iterable c₃ hiterable => ?_
  refine After.imp expect_reads fun _ c₄ hclose => ?_
  have hiterable' := hiterable.before hclose
  refine (subStatement_placed hr (by have := hiterable'.le; omega)).imp fun body c₅ hbody => ?_
  have hall := ((helement.inRole .parameter).before (.one c₂)).trans (hiterable'.cons hbody)
  exact ⟨(PlacedAll.behind hr₁ hall).node rfl, (hcolon.trans (hiterable'.cons hbody)).reads⟩

lemma classicFor_placed (hr : r.Good m) (hc : c.ahead.length < m) (h : PlacedAll c₀ before c) :
    (classicFor r c₀.offset before).After c (Extended c₀ c) := by
  simp only [classicFor, after_bind, after_node]
  refine After.imp expect_reads fun _ c₁ hsemi => ?_
  have hle₁ := hsemi.le
  refine (itemIf_placed (after_notAtPunct.mpr (.refl c₁)) fun c' h =>
    expressionOr_placed hr (by have := h.le; omega)).imp fun condition c₂ hcondition => ?_
  refine After.imp expect_reads fun _ c₃ hsemi' => ?_
  have hcond := hcondition.before hsemi'
  have hle₂ := hcond.le
  refine (itemsIf_placed (after_notAtPunct.mpr (.refl c₃)) fun c' h => sepBy1_placed fun c'' h' =>
    expressionOr_placed hr (by have := h.le; have := h'.le; omega)).imp fun updates c₄ hupdates => ?_
  refine After.imp expect_reads fun _ c₅ hclose => ?_
  have hups := hupdates.before hclose
  have hle₃ := hups.le
  refine (subStatement_placed hr (by omega)).imp fun body c₆ hbody => ?_
  have hall := (((h.before hsemi).trans hcond).trans hups).trans hbody
  exact ⟨hall.node rfl, hsemi.trans ((hcond.trans hups).trans hbody).reads⟩

lemma forStatement_placed (hr : r.Good m) (hc : c.ahead.length ≤ m) (hk : c.kindAt 0 ≠ .eof) :
    (forStatement r c.offset).After c fun n c' => Placed c n c' ∧ Takes c c' := by
  have htakes : Takes c c.advance := takes_advance hk
  simp only [forStatement, after_bind, after_bump, after_start]
  refine After.imp expect_reads fun _ c₁ hopen => ?_
  have hr₁ := (Reads.one c).trans hopen
  have hlt : Takes c c₁ := Nat.lt_of_le_of_lt hopen.le htakes
  refine (tryLocalHead_placed hr (by omega)).imp fun o c₂ ⟨hsome, hnone⟩ => ?_
  cases o with
  | some head =>
    obtain ⟨hhead, _⟩ := hsome head rfl
    have hle := hhead.le
    simp only [after_bind, after_atIdent, after_atPunct, after_ite, after_node]
    split
    · refine (enhancedFor_placed hr (by omega) hr₁ hhead).imp fun n c₃ hn => ⟨hn.placed, ?_⟩
      have := hn.le
      omega
    · refine (variableFragments_placed hr (by omega)).imp fun fragments c₃ hfragments => ?_
      have hinit := (hhead.trans hfragments).node
        (by decide : Kind.variableDeclarationExpression.isComposed = true)
      have hle' := hinit.le
      have hinit' := PlacedAll.behind hr₁ (hinit.inRole .init)
      refine (classicFor_placed hr (by omega) hinit').imp fun n c₄ hn => ⟨hn.placed, ?_⟩
      have := hn.le
      omega
  | none =>
    obtain ⟨rfl, _⟩ := hnone rfl
    simp only [after_bind]
    refine (itemsIf_placed (after_notAtPunct.mpr (.refl c₂)) fun c' h => sepBy1_placed fun c'' h' =>
      expressionOr_placed hr (by have := h.le; have := h'.le; omega)).imp fun init c₃ hinit => ?_
    have hle := hinit.le
    refine (classicFor_placed hr (by omega) (.behind hr₁ hinit)).imp fun n c₄ hn => ⟨hn.placed, ?_⟩
    have := hn.le
    omega

/-! ### Switches -/

lemma caseLabel_placed (hr : r.Good m) (hc : c.ahead.length < m) :
    (caseLabel r).After c (Placed c) := by
  simp only [caseLabel, after_bind, after_atPunct, after_ite]
  split
  · exact missing_placed
  · exact expressionOr_placed hr hc

lemma switchEntry_placed (hr : r.Good m) (hc : c.ahead.length < m) :
    (switchEntry r).After c (Entered c) := by
  have hone := Reads.one c
  have hle := hone.le
  simp only [switchEntry, after_bind, after_start, after_eatKeyword, after_ite, after_node,
    after_pure, reduceIte, Bool.false_eq_true]
  split
  · next hk =>
    have htakes : Takes c c.advance := takes_advance (by simp [hk])
    refine (caseLabel_placed hr (by omega)).imp fun label c₁ hlabel => ?_
    refine After.imp expect_reads fun _ c₂ hcolon => ?_
    have hall := hlabel.before hcolon
    refine ⟨(PlacedAll.behind hone hall).node (by decide) |>.inRole .statement, fun _ => ?_⟩
    exact Nat.lt_of_le_of_lt hall.le htakes
  · split
    · next hk =>
      have htakes : Takes c c.advance := takes_advance (by simp [hk])
      refine After.imp expect_reads fun _ c₁ hcolon => ?_
      refine ⟨((hone.trans hcolon).placedAll.node (by decide) |>.withText _ rfl).inRole .statement,
        fun _ => ?_⟩
      exact Nat.lt_of_le_of_lt hcolon.le htakes
    · refine (hr.statement c hc).imp fun o c₁ ⟨ho, htakes⟩ => ⟨?_, htakes⟩
      simpa [Option.toList_map] using ho.map_inRole .statement

lemma switchEntries_placed (hr : r.Good m) (hc : c.ahead.length ≤ m) :
    (switchEntries r).After c (PlacedAll c) := by
  simp only [switchEntries, after_bind, after_expectAs, after_ite, after_pure, reduceIte,
    Bool.false_eq_true]
  split
  · next hk =>
    have htakes : Takes c c.advance := takes_advance (by simp [hk])
    refine (manyUntil_placed (fun _ _ => after_atBodyEnd) fun c' h hs => ?_).imp
      fun entries c₁ hentries => ?_
    · exact (switchEntry_placed hr (by have := h.le; omega)).imp fun _ _ ho => ⟨ho.1, ho.2 hs⟩
    · exact After.imp expect_reads fun _ c₂ h => (PlacedAll.behind (.one c) hentries).before h
  · exact (Reads.complained c _).placedAll

lemma switchStatement_placed (hr : r.Good m) (hc : c.ahead.length ≤ m) (hk : c.kindAt 0 ≠ .eof) :
    (switchStatement r c.offset).After c fun n c' => Placed c n c' ∧ Takes c c' := by
  have htakes : Takes c c.advance := takes_advance hk
  simp only [switchStatement, after_bind, after_bump, after_node]
  refine (parenthesized_placed hr (by omega)).imp fun selector c₁ hselector => ?_
  refine (switchEntries_placed hr (by have := hselector.le; omega)).imp fun entries c₂ hentries => ?_
  have hall := hselector.cons hentries
  exact ⟨(PlacedAll.behind (.one c) hall).node rfl, Nat.lt_of_le_of_lt hall.le htakes⟩

/-! ### Exceptions -/

lemma resource_placed (hr : r.Good m) (hc : c.ahead.length < m) :
    (resource r).After c (Placed c) := by
  simp only [resource, after_bind, after_start]
  refine (tryLocalHead_placed hr (Nat.le_of_lt hc)).imp fun o c₁ ⟨hsome, hnone⟩ => ?_
  cases o with
  | some head =>
    obtain ⟨hhead, _⟩ := hsome head rfl
    simp only [after_bind, after_node, after_pure]
    refine (variableFragments_placed hr (by have := hhead.le; omega)).imp fun fragments c₂ h => ?_
    exact (hhead.trans h).node (by decide) |>.inRole .resource
  | none =>
    obtain ⟨rfl, _⟩ := hnone rfl
    exact expressionOr_placed hr hc

lemma catchClause_placed (hr : r.Good m) (hc : c.ahead.length < m) (hk : c.kindAt 0 ≠ .eof) :
    (catchClause r).After c fun n c' => Placed c n c' ∧ Takes c c' := by
  have htakes : Takes c c.advance := takes_advance hk
  simp only [catchClause, after_bind, after_start, after_bump, after_node, after_pure]
  refine After.imp expect_reads fun _ c₁ hopen => ?_
  have hle := hopen.le
  refine (catchParameter_placed hr (by omega)).imp fun parameter c₂ hparameter => ?_
  refine After.imp expect_reads fun _ c₃ hclose => ?_
  have hhead := (PlacedAll.behind hopen hparameter).before hclose
  have hle' := hhead.le
  refine (block_placed hr (by omega)).imp fun body c₄ ⟨hbody, _⟩ => ?_
  have hall := hhead.cons hbody
  exact ⟨(PlacedAll.behind (.one c) hall).node (by decide) |>.inRole .catchClause,
    Nat.lt_of_le_of_lt hall.le htakes⟩

lemma resources_placed (hr : r.Good m) (hc : c.ahead.length < m) :
    (resources r).After c (PlacedAll c) := by
  have hone := Reads.one c
  have hle := hone.le
  simp only [resources, after_bind, after_eat, after_ite, after_pure, reduceIte, Bool.false_eq_true]
  split
  · refine (sepUntil_placed (fun _ _ => after_atParenEnd) fun c' h _ =>
      resource_placed hr (by have := h.le; omega)).imp fun ns c₁ hns => ?_
    exact After.imp expect_reads fun _ c₂ h => (PlacedAll.behind hone hns).before h
  · exact (Reads.refl c).placedAll

lemma after_notAtCatch {R : Bool → Cursor → Prop} :
    notAtCatch.After c R ↔ R (!(c.kindAt 0 == .keyword .catchKw)) c := Iff.rfl

lemma tryStatement_placed (hr : r.Good m) (hc : c.ahead.length ≤ m) (hk : c.kindAt 0 ≠ .eof) :
    (tryStatement r c.offset).After c fun n c' => Placed c n c' ∧ Takes c c' := by
  have htakes : Takes c c.advance := takes_advance hk
  simp only [tryStatement, after_bind, after_bump, after_node]
  refine (resources_placed hr (by omega)).imp fun resources c₁ hresources => ?_
  have hle₁ := hresources.le
  refine (block_placed hr (by omega)).imp fun body c₂ ⟨hbody, _⟩ => ?_
  have hle₂ := hbody.le
  refine (manyUntil_placed (fun _ _ => after_notAtCatch) fun c' h hs => ?_).imp
    fun clauses c₃ hclauses => ?_
  · rw [after_map]
    have hcatch : c'.kindAt 0 ≠ .eof := fun heof => by simp [heof] at hs
    exact catchClause_placed hr (by have := h.le; omega) hcatch
  have hle₃ := hclauses.le
  refine (itemIf_placed eatKeyword_reads fun c' h =>
    (block_placed hr (by have := h.le; omega)).imp fun _ _ h => h.1).imp fun last c₄ hlast => ?_
  have hall := (hresources.trans (hbody.cons hclauses)).trans hlast
  exact ⟨(PlacedAll.behind (.one c) hall).node rfl, Nat.lt_of_le_of_lt hall.le htakes⟩

/-! ### Simple statements -/

lemma returnStatement_placed (hr : r.Good m) (hc : c.ahead.length ≤ m) (hk : c.kindAt 0 ≠ .eof) :
    (returnStatement r c.offset).After c fun n c' => Placed c n c' ∧ Takes c c' := by
  have htakes : Takes c c.advance := takes_advance hk
  simp only [returnStatement, after_bind, after_bump, after_node]
  refine (itemIf_placed (after_atExpression.mpr (.refl _)) fun c' h => ?_).imp
    fun value c₁ hvalue => ?_
  · simp only [after_bind, after_pure]
    exact (hr.expression c' (by have := h.le; omega)).imp fun _ _ h => h.inRole .expression
  · refine After.imp expect_reads fun _ c₂ hsemi => ?_
    have hall := hvalue.before hsemi
    exact ⟨(PlacedAll.behind (.one c) hall).node rfl, Nat.lt_of_le_of_lt hall.le htakes⟩

lemma jumpStatement_placed {kind : Kind} (hk : c.kindAt 0 ≠ .eof) (hkind : kind.isComposed = true) :
    (jumpStatement kind c.offset).After c fun n c' => Placed c n c' ∧ Takes c c' := by
  have htakes : Takes c c.advance := takes_advance hk
  simp only [jumpStatement, after_bind, after_bump, after_node]
  refine (itemIf_placed (after_atIdent.mpr (.refl _)) fun c' _ => ident_placed).imp
    fun label c₁ hlabel => ?_
  refine After.imp expect_reads fun _ c₂ hsemi => ?_
  have hall := hlabel.before hsemi
  exact ⟨(PlacedAll.behind (.one c) hall).node hkind, Nat.lt_of_le_of_lt hall.le htakes⟩

lemma throwStatement_placed (hr : r.Good m) (hc : c.ahead.length ≤ m) (hk : c.kindAt 0 ≠ .eof) :
    (throwStatement r c.offset).After c fun n c' => Placed c n c' ∧ Takes c c' := by
  have htakes : Takes c c.advance := takes_advance hk
  simp only [throwStatement, after_bind, after_bump, after_node]
  refine (expressionOr_placed hr (by omega)).imp fun thrown c₁ hthrown => ?_
  refine After.imp expect_reads fun _ c₂ hsemi => ?_
  have hall := hthrown.before hsemi
  exact ⟨(PlacedAll.behind (.one c) hall).node rfl, Nat.lt_of_le_of_lt hall.le htakes⟩

lemma synchronizedStatement_placed (hr : r.Good m) (hc : c.ahead.length ≤ m)
    (hk : c.kindAt 0 ≠ .eof) :
    (synchronizedStatement r c.offset).After c fun n c' => Placed c n c' ∧ Takes c c' := by
  have htakes : Takes c c.advance := takes_advance hk
  simp only [synchronizedStatement, after_bind, after_bump, after_node]
  refine (parenthesized_placed hr (by omega)).imp fun lock c₁ hlock => ?_
  refine (block_placed hr (by have := hlock.le; omega)).imp fun body c₂ ⟨hbody, _⟩ => ?_
  have hall := hlock.cons hbody
  exact ⟨(PlacedAll.behind (.one c) hall).node rfl, Nat.lt_of_le_of_lt hall.le htakes⟩

lemma assertStatement_placed (hr : r.Good m) (hc : c.ahead.length ≤ m) (hk : c.kindAt 0 ≠ .eof) :
    (assertStatement r c.offset).After c fun n c' => Placed c n c' ∧ Takes c c' := by
  have htakes : Takes c c.advance := takes_advance hk
  simp only [assertStatement, after_bind, after_bump, after_node]
  refine (expressionOr_placed hr (by omega)).imp fun condition c₁ hcondition => ?_
  have hle := hcondition.le
  refine (itemIf_placed eat_reads fun c' h =>
    expressionOr_placed hr (by have := h.le; omega)).imp fun message c₂ hmessage => ?_
  refine After.imp expect_reads fun _ c₃ hsemi => ?_
  have hall := (hcondition.cons hmessage).before hsemi
  exact ⟨(PlacedAll.behind (.one c) hall).node rfl, Nat.lt_of_le_of_lt hall.le htakes⟩

lemma constructorCall_placed {kind : Kind} (hr : r.Good m) (hc : c.ahead.length ≤ m)
    (hk : c.kindAt 0 ≠ .eof) (hkind : kind.isComposed = true) :
    (constructorCall r kind c.offset).After c fun n c' => Placed c n c' ∧ Takes c c' := by
  have htakes : Takes c c.advance := takes_advance hk
  simp only [constructorCall, after_bind, after_bump, after_node]
  refine (arguments_placed hr (by omega)).imp fun args c₁ hargs => ?_
  refine After.imp expect_reads fun _ c₂ hsemi => ?_
  have hall := hargs.before hsemi
  exact ⟨(PlacedAll.behind (.one c) hall).node hkind, Nat.lt_of_le_of_lt hall.le htakes⟩

lemma labeledStatement_placed (hr : r.Good m) (hc : c.ahead.length ≤ m)
    (hk : (c.kindAt 0).identName?.isSome = true) :
    (labeledStatement r c.offset).After c fun n c' => Placed c n c' ∧ Takes c c' := by
  simp only [labeledStatement, after_bind, after_bump, after_node]
  refine (After.and ident_placed ident_takes).imp fun label c₁ ⟨hlabel, htakes⟩ => ?_
  have htakes := htakes hk
  have hhead := hlabel.before (.one c₁)
  have hone := (Reads.one c₁).le
  refine (subStatement_placed hr (by omega)).imp fun body c₂ hbody => ⟨(hhead.cons hbody).node rfl, ?_⟩
  have := hbody.le
  omega

lemma statedExpression_placed (hr : r.Good m) (hc : c.ahead.length ≤ m) :
    (statedExpression r).After c fun n c' =>
      Placed c n c' ∧ ((c.kindAt 0).canBeginExpr = true → Takes c c') := by
  simp only [statedExpression, after_bind, after_atExpression, after_ite, after_pure]
  split
  · exact (expression_placed hr hc).imp fun _ _ ⟨h, htakes⟩ => ⟨h.inRole .expression, htakes⟩
  · next hb => exact After.imp missing_placed fun _ _ h => ⟨h, fun hb' => absurd hb' hb⟩

/-- The token can be the first of a declaration or of an expression. -/
def startsPlain (c : Cursor) : Bool :=
  startsTypeDeclaration .modifier c.ahead || startsModifier c || (c.kindAt 0).canBeginExpr

lemma plainStatement_placed (hr : r.Good m) (hc : c.ahead.length ≤ m) :
    (plainStatement r c.offset).After c fun n c' =>
      Placed c n c' ∧ (startsPlain c = true → Takes c c') := by
  simp only [plainStatement, after_bind, after_atTypeDeclaration, after_ite, after_node]
  split
  · next htype =>
    refine (typeDeclaration_placed hr hc).imp fun n c₁ ⟨hn, _, _, htakes⟩ => ⟨?_, fun _ => ?_⟩
    · exact (hn.inRole .member).node rfl
    · exact (htakes (ne_eof_of_startsTypeDeclaration htype)).1
  · next htype =>
    refine (tryLocalHead_placed hr hc).imp fun o c₁ ⟨hsome, hnone⟩ => ?_
    cases o with
    | some head =>
      obtain ⟨hhead, htakes⟩ := hsome head rfl
      simp only [after_bind, after_node]
      refine (variableFragments_placed hr (by omega)).imp fun fragments c₂ hfragments => ?_
      refine After.imp expect_reads fun _ c₃ hsemi => ?_
      have hrest := hfragments.before hsemi
      exact ⟨(hhead.trans hrest).node rfl, fun _ => Nat.lt_of_le_of_lt hrest.le htakes⟩
    | none =>
      obtain ⟨rfl, hmodifier⟩ := hnone rfl
      simp only [after_bind, after_node]
      refine (statedExpression_placed hr hc).imp fun value c₂ ⟨hvalue, htakes⟩ => ?_
      refine After.imp expect_reads fun _ c₃ hsemi => ⟨(hvalue.before hsemi).node rfl, fun hplain => ?_⟩
      refine Nat.lt_of_le_of_lt hsemi.le (htakes ?_)
      simpa [startsPlain, htype, hmodifier] using hplain

/-! ### All statements -/

lemma startsTypeDeclaration_of_keyword {k : Keyword} (hk : c.kindAt 0 = .keyword k)
    (hdecl : k ∈ [.classKw, .interfaceKw, .enumKw]) :
    startsTypeDeclaration .modifier c.ahead = true := by
  cases ha : c.ahead with
  | nil => simp [kindAt, Cursor.peek, ha, Token.eofAt] at hk
  | cons t ts =>
    have ht : t.kind = .keyword k := by simpa [kindAt, Cursor.peek, ha] using hk
    simp only [List.mem_cons, List.not_mem_nil, or_false] at hdecl
    rcases hdecl with rfl | rfl | rfl <;> simp [startsTypeDeclaration, afterModifier, ht]

/-- The sign of an annotation type starts a declaration, and that of an annotation a modifier. -/
lemma startsPlain_of_atSign (hk : c.kindAt 0 = .punct .atSign) : startsPlain c = true := by
  by_cases hnext : c.kindAt 1 = .keyword .interfaceKw
  · have htype : startsTypeDeclaration .modifier c.ahead = true := by
      rcases ha : c.ahead with _ | ⟨t, _ | ⟨t', ts⟩⟩
      · simp [kindAt, Cursor.peek, ha, Token.eofAt] at hk
      · simp [kindAt, Cursor.peek, ha, Token.eofAt] at hnext
      · have ht : t.kind = .punct .atSign := by simpa [kindAt, Cursor.peek, ha] using hk
        have ht' : t'.kind = .keyword .interfaceKw := by simpa [kindAt, Cursor.peek, ha] using hnext
        simp [startsTypeDeclaration, afterModifier, ht, ht']
    simp [startsPlain, htype]
  · simp [startsPlain, startsModifier, hk, hnext]

/-- The keyword starts a declaration or an expression. -/
def startsPlainly (k : Keyword) : Bool :=
  k ∈ [.classKw, .interfaceKw, .enumKw] || k.isModifier || (TokenKind.keyword k).canBeginExpr

lemma startsPlain_of_keyword {k : Keyword} (hk : c.kindAt 0 = .keyword k)
    (h : startsPlainly k = true) : startsPlain c = true := by
  simp only [startsPlainly, Bool.or_eq_true, decide_eq_true_eq] at h
  rcases h with (hdecl | hmodifier) | hexpr
  · simp [startsPlain, startsTypeDeclaration_of_keyword hk hdecl]
  · simp [startsPlain, startsModifier, hk, hmodifier]
  · simp [startsPlain, hk, hexpr]

/-- A keyword that can start a statement and has no rule of its own is one with which declarations and
expressions start. -/
lemma keywordStatement_placed {k : Keyword} (hr : r.Good m) (hc : c.ahead.length ≤ m)
    (hk : c.kindAt 0 = .keyword k) :
    (keywordStatement r c.offset k).After c fun n c' =>
      Placed c n c' ∧ (canBeginStatement (.keyword k) = true → Takes c c') := by
  have hne : c.kindAt 0 ≠ .eof := by simp [hk]
  have hplain (h : canBeginStatement (.keyword k) = true → startsPlainly k = true) :
      (plainStatement r c.offset).After c fun n c' =>
        Placed c n c' ∧ (canBeginStatement (.keyword k) = true → Takes c c') :=
    (plainStatement_placed hr hc).imp fun _ _ ⟨hn, htakes⟩ =>
      ⟨hn, fun hb => htakes (startsPlain_of_keyword hk (h hb))⟩
  have htaken {n : Node} {c' : Cursor} (h : Placed c n c' ∧ Takes c c') :
      Placed c n c' ∧ (canBeginStatement (.keyword k) = true → Takes c c') := ⟨h.1, fun _ => h.2⟩
  unfold keywordStatement
  split
  case h_1 => exact (ifStatement_placed hr hc hne).imp fun _ _ => htaken
  case h_2 => exact (whileStatement_placed hr hc hne).imp fun _ _ => htaken
  case h_3 => exact (doStatement_placed hr hc hne).imp fun _ _ => htaken
  case h_4 => exact (forStatement_placed hr hc hne).imp fun _ _ => htaken
  case h_5 => exact (switchStatement_placed hr hc hne).imp fun _ _ => htaken
  case h_6 => exact (returnStatement_placed hr hc hne).imp fun _ _ => htaken
  case h_7 => exact (jumpStatement_placed hne (by decide)).imp fun _ _ => htaken
  case h_8 => exact (jumpStatement_placed hne (by decide)).imp fun _ _ => htaken
  case h_9 => exact (throwStatement_placed hr hc hne).imp fun _ _ => htaken
  case h_10 => exact (tryStatement_placed hr hc hne).imp fun _ _ => htaken
  case h_11 => exact (assertStatement_placed hr hc hne).imp fun _ _ => htaken
  case h_12 =>
    simp only [after_bind, after_atPunct, after_ite]
    split
    · exact (synchronizedStatement_placed hr hc hne).imp fun _ _ => htaken
    · exact hplain fun _ => rfl
  case h_13 =>
    simp only [after_bind, after_atPunct, after_ite]
    split
    · exact (constructorCall_placed hr hc hne (by decide)).imp fun _ _ => htaken
    · exact hplain fun _ => rfl
  case h_14 =>
    simp only [after_bind, after_atPunct, after_ite]
    split
    · exact (constructorCall_placed hr hc hne (by decide)).imp fun _ _ => htaken
    · exact hplain fun _ => rfl
  case h_15 =>
    refine hplain fun hb => ?_
    cases k <;> first | rfl | exact absurd hb (by decide) | simp_all

/-- A statement takes a token except at the end of a block. -/
theorem statement_placed (hr : r.Good m) (hc : c.ahead.length ≤ m) :
    (statement r).After c (Entered c) := by
  have hpeek : (c.peek 0).kind = c.kindAt 0 := rfl
  simp only [statement, after_bind, after_start, after_peek, hpeek, after_ite, after_unexpected,
    after_pure]
  split
  · next hbegin =>
    have hread := (Reads.complained c (c.complaint "statement"))
    split
    · next hbrace =>
      refine ⟨(hread.trans (.one _)).placedAll, fun hbody => ?_⟩
      have hne : (c.complain (c.complaint "statement")).kindAt 0 ≠ .eof := by
        intro heof
        have : c.kindAt 0 = .eof := heof
        simp [endsBody, this] at hbody
      exact takes_advance hne
    · next hbrace =>
      refine ⟨hread.placedAll, fun hbody => ?_⟩
      simp_all [endsBody]
  · next hbegin =>
    have hbegin : canBeginStatement (c.kindAt 0) = true := by simpa using hbegin
    split
    · next hk =>
      simp only [after_bind, after_pure]
      exact (block_placed hr hc).imp fun _ _ h => ⟨h.1, fun _ => h.2 hk⟩
    · next hk =>
      exact ⟨(Reads.one c).placedAll.node rfl, fun _ => takes_advance (by simp [hk])⟩
    · next k hk =>
      rw [hk] at hbegin
      simp only [after_bind, after_pure]
      exact (keywordStatement_placed hr hc hk).imp fun _ _ h => ⟨h.1, fun _ => h.2 hbegin⟩
    · next name hk =>
      simp only [after_bind, after_atPunct, after_ite]
      split
      · exact (labeledStatement_placed hr hc (by rw [hk]; rfl)).imp fun _ _ h => ⟨h.1, fun _ => h.2⟩
      · have hplain : startsPlain c = true := by simp [startsPlain, hk, TokenKind.canBeginExpr]
        exact (plainStatement_placed hr hc).imp fun _ _ h => ⟨h.1, fun _ => h.2 hplain⟩
    · next hbrace hsemi hkey hid =>
      simp only [after_bind, after_pure]
      refine (plainStatement_placed hr hc).imp fun _ _ h => ⟨h.1, fun _ => h.2 ?_⟩
      by_cases hat : c.kindAt 0 = .punct .atSign
      · exact startsPlain_of_atSign hat
      · have hexpr : (c.kindAt 0).canBeginExpr = true := by
          cases hkind : c.kindAt 0 <;> simp_all [canBeginStatement]
        simp [startsPlain, hexpr]

end Shorthand.Parser
