import Shorthand.Proofs.Reading.Types

/-!
Reading the shared pieces of the grammar.

`Rules.Good m r` says that the rules `r` place what they read wherever fewer than `m` tokens are ahead,
and that the rules for statements and members take a token except at the end of a body. The lemmas of
this module and of the following ones draw the same conclusion for each piece of the grammar that uses
such rules: a piece that has taken a token before may start where fewer than `m` tokens are ahead, and
one that takes its first token itself also where there are `m`.
-/

namespace Shorthand.Parser

open Cursor

/-- The token ends a body between braces. -/
def endsBody (k : TokenKind) : Bool := k == .punct .closeBrace || k == .eof

/-- An entry of a body is read: nothing where the body ends, and elsewhere at least a token. -/
def Entered (c : Cursor) (o : Option Node) (c' : Cursor) : Prop :=
  PlacedAll c o.toList c' ∧ (endsBody (c.kindAt 0) = false → Takes c c')

/-- The rules place what they read where fewer than so many tokens are ahead. -/
structure Rules.Good (m : Nat) (r : Rules) : Prop where
  expression : ∀ c, c.ahead.length < m → r.expression.After c (Placed c)
  conditional : ∀ c, c.ahead.length < m → r.conditional.After c (Placed c)
  operation : ∀ least c, c.ahead.length < m → (r.operation least).After c (Placed c)
  unary : ∀ c, c.ahead.length < m → r.unary.After c (Placed c)
  arrayInitializer : ∀ role c, c.ahead.length < m → c.kindAt 0 = .punct .openBrace →
    (r.arrayInitializer role).After c (Placed c)
  statement : ∀ c, c.ahead.length < m → r.statement.After c (Entered c)
  member : ∀ c, c.ahead.length < m → r.member.After c (Entered c)

variable {r : Rules} {m : Nat} {c : Cursor} {role : Role} {what : String}

lemma expressionOr_placed (hr : r.Good m) (hc : c.ahead.length < m) :
    (expressionOr r role what).After c (Placed c) := by
  simp only [expressionOr, after_bind, after_atExpression, after_ite, after_pure]
  split
  · exact (hr.expression c hc).imp fun _ _ h => h.inRole role
  · exact missing_placed

lemma operandOr_placed {rule : Parser Node} (hrule : rule.After c (Placed c)) :
    (operandOr rule role).After c (Placed c) := by
  simp only [operandOr, after_bind, after_atExpression, after_ite, after_pure]
  split
  · exact hrule.imp fun _ _ h => h.inRole role
  · exact missing_placed

lemma valueOr_placed (hr : r.Good m) (hc : c.ahead.length < m) :
    (valueOr r role what).After c (Placed c) := by
  simp only [valueOr, after_bind, after_atPunct, after_ite, beq_iff_eq]
  split
  · next hk => exact hr.arrayInitializer role c hc hk
  · exact expressionOr_placed hr hc

/-- Behind the token that opens a list the list goes on to the token that closes it. -/
lemma arguments_placed (hr : r.Good m) (hc : c.ahead.length < m) :
    (arguments r).After c (PlacedAll c) := by
  have hone := Reads.one c
  simp only [arguments, after_bind, after_bump, after_eat, after_ite, after_pure, reduceIte,
    Bool.false_eq_true]
  split
  · exact hone.advance.placedAll
  · have hargs : (sepBy1 .comma (expressionOr r .argument "argument")).After c.advance
        (PlacedAll c.advance) :=
      sepBy1_placed fun c' h => expressionOr_placed hr (by have := h.le; have := hone.le; omega)
    refine hargs.imp fun ns c' hns => ?_
    exact After.imp expect_reads fun _ c'' h => (PlacedAll.behind hone hns).before h

lemma arrayInitializer_placed (hr : r.Good m) (hc : c.ahead.length ≤ m)
    (hk : c.kindAt 0 = .punct .openBrace) : (arrayInitializer r role).After c (Placed c) := by
  have htakes : Takes c c.advance := takes_advance (by simp [hk])
  have hone := Reads.one c
  simp only [arrayInitializer, after_bind, after_start, after_bump, after_node, after_pure]
  refine (sepUntil_placed (fun _ _ => after_atBodyEnd) fun c' h _ => ?_).imp fun ns c' hns => ?_
  · exact valueOr_placed hr (by have := h.le; omega)
  · refine After.imp expect_reads fun _ c'' h => ?_
    exact ((PlacedAll.behind hone hns).before h).node (by decide) |>.inRole role

/-! ### Blocks and class bodies -/

/-- The entries of a body up to its end. -/
lemma entries_placed {entry : Parser (Option Node)}
    (hentry : ∀ c', Reads c c' → entry.After c' (Entered c')) :
    (manyUntil atBodyEnd do return (← entry).map (·.inRole role)).After c (PlacedAll c) := by
  refine manyUntil_placed (fun _ _ => after_atBodyEnd) fun c' h hs => ?_
  simp only [after_bind, after_pure]
  refine (hentry c' h).imp fun o c'' ⟨ho, htakes⟩ => ⟨?_, htakes hs⟩
  simpa [Option.toList_map] using ho.map_inRole role

lemma statementsIn_placed (hr : r.Good m) (hc : c.ahead.length < m) :
    (statementsIn r).After c (PlacedAll c) :=
  entries_placed fun c' h => hr.statement c' (by have := h.le; omega)

lemma membersIn_placed (hr : r.Good m) (hc : c.ahead.length < m) :
    (membersIn r).After c (PlacedAll c) :=
  entries_placed fun c' h => hr.member c' (by have := h.le; omega)

lemma block_placed (hr : r.Good m) (hc : c.ahead.length ≤ m) :
    (block r role).After c fun n c' =>
      Placed c n c' ∧ (c.kindAt 0 = .punct .openBrace → Takes c c') := by
  simp only [block, after_bind, after_start, after_expectAs, after_ite, after_node, after_pure,
    reduceIte, Bool.false_eq_true]
  split
  · next hk =>
    have htakes : Takes c c.advance := takes_advance (by simp [hk])
    refine (statementsIn_placed hr (by omega)).imp fun ns c' hns => ?_
    refine After.imp expect_reads fun _ c'' h => ⟨?_, fun _ => ?_⟩
    · exact ((PlacedAll.behind (.one c) hns).before h).node (by decide) |>.inRole role
    · exact Nat.lt_of_le_of_lt (hns.before h).le htakes
  · next hk => exact ⟨.missing (.complained c _) role, fun h => absurd h hk⟩

lemma classBody_placed (hr : r.Good m) (hc : c.ahead.length ≤ m) :
    (classBody r).After c (PlacedAll c) := by
  simp only [classBody, after_bind, after_expectAs, after_ite, after_pure, reduceIte,
    Bool.false_eq_true]
  split
  · next hk =>
    have htakes : Takes c c.advance := takes_advance (by simp [hk])
    refine (membersIn_placed hr (by omega)).imp fun ns c' hns => ?_
    exact After.imp expect_reads fun _ c'' h => (PlacedAll.behind (.one c) hns).before h
  · exact (Reads.complained c _).placedAll

lemma anonymousBody_placed (hr : r.Good m) (hc : c.ahead.length ≤ m) :
    (anonymousBody r).After c (PlacedAll c) := by
  simp only [anonymousBody, after_bind, after_atPunct, after_ite, after_start, after_node,
    after_pure]
  split
  · exact (classBody_placed hr hc).imp fun ns c' hns => hns.node (by decide) |>.inRole .body
  · exact (Reads.refl c).placedAll

/-! ### Modifiers -/

lemma memberValuePair_placed (hr : r.Good m) (hc : c.ahead.length < m) :
    (memberValuePair r).After c (Placed c) := by
  simp only [memberValuePair, after_bind, after_start, after_node, after_pure]
  refine After.imp ident_placed fun key c₁ hkey => ?_
  refine After.imp expect_reads fun _ c₂ heq => ?_
  have hkey' := hkey.before heq
  refine (expressionOr_placed hr (by have := hkey'.le; omega)).imp fun value c₃ hvalue => ?_
  exact (hkey'.cons hvalue).node (by decide) |>.inRole .argument

lemma after_notAtIdent {R : Bool → Cursor → Prop} :
    notAtIdent.After c R ↔ R (!(c.kindAt 0).identName?.isSome) c := Iff.rfl

lemma annotationArguments_placed (hr : r.Good m) (hc : c.ahead.length < m) :
    (annotationArguments r).After c fun a c' =>
      PlacedAll c a.2 c' ∧ (a.1 = .annotationWithArguments ∨ a.1 = .annotationWithValue) := by
  simp only [annotationArguments, after_bind, after_atIdent, after_atPunct, after_ite, after_pure]
  split
  · refine (sepUntil_placed (fun _ _ => after_notAtIdent) fun c' h _ => ?_).imp
      fun ns c' hns => ⟨hns, .inl trivial⟩
    exact memberValuePair_placed hr (by have := h.le; omega)
  · split
    · exact ⟨(Reads.refl c).placedAll, .inl trivial⟩
    · exact (valueOr_placed hr hc).imp fun _ _ h => ⟨h, .inr trivial⟩

/-- A modifier is read: it takes a token, and no place in it is one at which code is put before the next
token. -/
structure ModifierRead (c : Cursor) (n : Node) (c' : Cursor) : Prop where
  placed : Placed c n c'
  takes : Takes c c'
  opens : OpensLater c n

lemma annotation_placed (hr : r.Good m) (hc : c.ahead.length ≤ m)
    (hk : c.kindAt 0 = .punct .atSign) : annotation r |>.After c (ModifierRead c) := by
  have htakes : Takes c c.advance := takes_advance (by simp [hk])
  have hone := Reads.one c
  simp only [after_bind, annotation, after_start, after_bump, after_eat, after_ite, after_node,
    after_pure, reduceIte, Bool.false_eq_true]
  refine After.imp qualifiedName_placed fun name c₁ ⟨hname, _⟩ => ?_
  have hname' := PlacedAll.behind hone hname
  split
  · have hopen := hname.before (.one c₁)
    have hle := hopen.le
    refine (annotationArguments_placed hr (by omega)).imp fun a c₂ ⟨hargs, hkind⟩ => ?_
    refine After.imp expect_reads fun _ c₃ h => ?_
    have hrest := (hopen.cons hargs).before h
    refine ⟨?_, Nat.lt_of_le_of_lt hrest.le htakes, ?_⟩
    · refine ((PlacedAll.behind hone hrest).node ?_).inRole .modifier
      rcases hkind with h | h <;> rw [h] <;> rfl
    · refine (OpensLater.of_children ?_ (hrest.opensLater hone htakes)).inRole .modifier
      rcases hkind with h | h <;> simp [Node.IsOpening, h]
  · refine ⟨hname'.node (by decide) |>.inRole .modifier, Nat.lt_of_le_of_lt hname.le htakes, ?_⟩
    refine (OpensLater.of_children ?_ (hname.opensLater hone htakes)).inRole .modifier
    simp [Node.IsOpening]

/-- A modifier that comes next takes a token, and where none comes nothing happens. -/
lemma modifier?_placed (hr : r.Good m) (hc : c.ahead.length ≤ m) :
    (modifier? r).After c fun o c' =>
      (∀ n, o = some n → ModifierRead c n c') ∧ (o = none → c' = c) := by
  simp only [modifier?, after_bind, after_peek]
  split
  · next k hk =>
    rw [after_ite]
    split
    · simp only [after_bind, after_leaf, after_pure]
      refine ⟨fun n h => ?_, by simp⟩
      obtain rfl := Option.some.inj h
      refine ⟨.leaf (by rw [kindAt, hk]; rfl) (by decide), takes_advance (by simp [kindAt, hk]),
        .of_children ?_ (by simp)⟩
      simp [Node.IsOpening]
    · exact ⟨by simp, fun _ => rfl⟩
  · next hk =>
    simp only [after_bind, after_atKeyword, after_ite, after_pure]
    split
    · exact ⟨by simp, fun _ => trivial⟩
    · refine (annotation_placed hr hc hk).imp fun n c' hn => ⟨fun n' h => ?_, by simp⟩
      obtain rfl := Option.some.inj h
      exact hn
  · exact ⟨by simp, fun _ => rfl⟩

/-- The token starts a modifier, which the sign of an annotation type does not. -/
def startsModifier (c : Cursor) : Bool :=
  match c.kindAt 0 with
  | .keyword k => k.isModifier
  | .punct .atSign => !(c.kindAt 1 == .keyword .interfaceKw)
  | _ => false

lemma modifier?_some (h : startsModifier c = true) :
    (modifier? r).After c fun o _ => o ≠ none := by
  simp only [modifier?, after_bind, after_peek]
  rw [startsModifier] at h
  split
  · next k hk =>
    rw [kindAt, hk] at h
    rw [after_ite, if_pos h]
    exact Option.some_ne_none _
  · next hk =>
    rw [kindAt, hk] at h
    simp only [after_bind, after_atKeyword, after_ite, after_pure]
    rw [if_neg (by simpa using h)]
    exact Option.some_ne_none _
  · next hkey hat =>
    exfalso
    rw [kindAt] at h
    split at h
    · next hk => exact hkey _ hk
    · next hk => exact hat hk
    · exact absurd h Bool.false_ne_true

/-- Modifiers are read: they take tokens, and without any of them reading stays where it is. -/
structure Modified (c : Cursor) (ns : List Node) (c' : Cursor) : Prop where
  placed : PlacedAll c ns c'
  takes : ns ≠ [] → Takes c c'
  stays : ns = [] → c' = c
  opens : ∀ n ∈ ns, OpensLater c n

/-- Modifiers are read as far as they go, so there are none only where none starts. -/
lemma modifiers_placed (hr : r.Good m) (hc : c.ahead.length ≤ m) :
    (modifiers r).After c fun ns c' =>
      Modified c ns c' ∧ (ns = [] → startsModifier c = false) := by
  have hstart : Modified c [] c :=
    ⟨(Reads.refl c).placedAll, fun h => absurd rfl h, fun _ => rfl, by simp⟩
  refine After.imp (after_chain
    (J := fun ns c' => Modified c ns c' ∧ (ns = [] → startsModifier c = false)) hstart
    fun ns c' hns => ?_) fun _ _ h => h.1
  simp only [modifiers.step, after_bind, after_pure]
  have hle : c'.ahead.length ≤ m := Nat.le_trans hns.placed.le hc
  have hsome : (modifier? r).After c' fun o _ => startsModifier c' = true → o ≠ none :=
    fun h => modifier?_some h
  refine ((modifier?_placed hr hle).and hsome).imp fun o c'' ⟨⟨hone, hstay⟩, hstarts⟩ => ?_
  cases o with
  | some n =>
    have hn := hone n rfl
    refine ⟨fun y hy => ?_, nofun⟩
    obtain rfl := Option.some.inj hy
    have hlt : Takes c c'' := Nat.lt_of_lt_of_le hn.takes hns.placed.le
    refine ⟨⟨hns.placed.trans hn.placed, fun _ => hlt, fun h => by simp at h, ?_⟩, hn.takes⟩
    intro k hk
    rcases List.mem_append.mp hk with hk | hk
    · exact hns.opens k hk
    · obtain rfl := List.mem_singleton.mp hk
      by_cases hnil : ns = []
      · rw [← hns.stays hnil]
        exact hn.opens
      · exact hn.placed.opensLater hns.placed.reads (hns.takes hnil) k hk
  | none =>
    obtain rfl := hstay rfl
    refine ⟨nofun, fun _ => ⟨⟨hns, fun hnil => ?_⟩, Nat.le_refl _⟩⟩
    rw [← hns.stays hnil]
    exact Bool.eq_false_iff.mpr fun h => hstarts h rfl

/-! ### Declared variables -/

lemma catchType_placed : catchType.After c (Placed c) := by
  simp only [catchType, after_bind, after_start, after_eat, after_ite, after_node, after_pure,
    reduceIte, Bool.false_eq_true]
  refine After.imp type_placed fun first c₁ ⟨hfirst, _⟩ => ?_
  split
  · refine (sepBy1_placed fun _ _ => After.imp type_placed fun _ _ h => h.1).imp fun others c₂ h => ?_
    exact (hfirst.cons (.behind (.one c₁) h)).node (by decide) |>.inRole .type
  · exact hfirst

lemma parameterName_placed : parameterName.After c (Placed c) := by
  simp only [parameterName, after_bind, after_atIdent, after_ite]
  split
  · exact ident_placed
  · exact missing_placed

lemma parameterRest_placed {c₀ : Cursor} {before : List Node} (h : PlacedAll c₀ before c) :
    (parameterRest c₀.offset before).After c (Placed c₀) := by
  simp only [parameterRest, after_bind, after_node, after_pure]
  refine After.imp eat_reads fun varargs c₁ hdots => ?_
  refine After.imp parameterName_placed fun name c₂ hname => ?_
  have hkind : Kind.singleVariableDeclaration.isComposed = true := by decide
  have hparam := ((h.before hdots).trans hname).node hkind
  cases varargs with
  | true => exact (hparam.inRole .parameter).withText _ rfl
  | false => exact hparam.inRole .parameter

lemma parameter_placed (hr : r.Good m) (hc : c.ahead.length < m) :
    (parameter r).After c (Placed c) := by
  simp only [parameter, after_bind, after_start]
  refine (modifiers_placed hr (Nat.le_of_lt hc)).imp fun ms c₁ ⟨hms, _⟩ => ?_
  refine After.imp type_placed fun ty c₂ ⟨hty, _⟩ => ?_
  exact parameterRest_placed (hms.placed.trans hty)

lemma catchParameterType_placed : catchParameterType.After c (Placed c) := by
  simp only [catchParameterType, after_bind, after_atIdent, after_atPunct, after_isAt, after_pure,
    after_ite, after_start]
  split
  · exact .missing (.refl c) .type
  · exact catchType_placed

lemma catchParameter_placed (hr : r.Good m) (hc : c.ahead.length < m) :
    (catchParameter r).After c (Placed c) := by
  simp only [catchParameter, after_bind, after_start]
  refine (modifiers_placed hr (Nat.le_of_lt hc)).imp fun ms c₁ ⟨hms, _⟩ => ?_
  refine After.imp catchParameterType_placed fun ty c₂ hty => ?_
  exact parameterRest_placed (hms.placed.trans hty)

lemma skipEmptyBrackets_reads : skipEmptyBrackets.After c fun _ c' => Reads c c' := by
  refine After.imp (after_chain (I := fun _ c' => Reads c c') (J := fun _ c' => Reads c c')
    (.refl c) fun _ c' h => ?_) fun _ _ h => h.1
  simp only [skipEmptyBrackets.step, after_bind, after_atEmptyBrackets, after_ite, after_pure]
  split
  · next hk =>
    have hc : c'.kindAt 0 ≠ .eof := by simp_all
    refine ((bumpAll_reads 2).and (bumpAll_takes (by decide) hc)).imp fun _ _ ⟨hr, htakes⟩ => ?_
    exact ⟨fun _ _ => ⟨h.trans hr, htakes⟩, nofun⟩
  · exact ⟨nofun, fun _ => ⟨h, Nat.le_refl _⟩⟩

lemma variableFragment_placed (hr : r.Good m) (hc : c.ahead.length < m) :
    (variableFragment r).After c (Placed c) := by
  simp only [variableFragment, after_bind, after_start, after_node, after_pure]
  refine After.imp ident_placed fun name c₁ hname => ?_
  refine After.imp skipEmptyBrackets_reads fun _ c₂ hbrackets => ?_
  have hname' := hname.before hbrackets
  refine (itemIf_placed eat_reads fun c' h => ?_).imp fun value c₃ hvalue => ?_
  · exact valueOr_placed hr (by have := hname'.le; have := h.le; omega)
  · exact (hname'.cons hvalue).node (by decide) |>.inRole .fragment

lemma variableFragments_placed (hr : r.Good m) (hc : c.ahead.length < m) :
    (variableFragments r).After c (PlacedAll c) :=
  sepBy1_placed fun c' h => variableFragment_placed hr (by have := h.le; omega)

end Shorthand.Parser
