import Shorthand.Proofs.Reading.Rules

/-!
Reading declarations of types and of their members.
-/

namespace Shorthand.Parser

open Cursor

variable {r : Rules} {m : Nat} {c c₀ : Cursor} {role : Role} {before : List Node}

/-! ### Types -/

lemma after_atTypeDeclaration {R : Bool → Cursor → Prop} :
    atTypeDeclaration.After c R ↔ R (startsTypeDeclaration .modifier c.ahead) c := Iff.rfl

/-- The declaration of a type starts with a token. -/
lemma ne_eof_of_startsTypeDeclaration (h : startsTypeDeclaration .modifier c.ahead = true) :
    c.kindAt 0 ≠ .eof := by
  intro heof
  cases ha : c.ahead with
  | nil => simp [ha, startsTypeDeclaration] at h
  | cons t ts =>
    have ht : t.kind = .eof := by simpa [kindAt, Cursor.peek, ha] using heof
    simp [ha, startsTypeDeclaration, afterModifier, ht] at h

lemma enumConstant_placed (hr : r.Good m) (hc : c.ahead.length < m) :
    (enumConstant r).After c (Placed c) := by
  simp only [enumConstant, after_bind, after_start, after_node, after_pure]
  refine (modifiers_placed hr (Nat.le_of_lt hc)).imp fun ms c₁ ⟨hms, _⟩ => ?_
  refine After.imp ident_placed fun name c₂ hname => ?_
  have hhead := hms.placed.trans hname
  refine (itemsIf_placed (after_atPunct.mpr (.refl c₂)) fun c' h => ?_).imp fun args c₃ hargs => ?_
  · exact arguments_placed hr (by have := hhead.le; have := h.le; omega)
  · have hcall := hms.placed.trans (hname.cons hargs)
    refine (anonymousBody_placed hr (by have := hcall.le; omega)).imp fun body c₄ hbody => ?_
    exact (hcall.trans hbody).node (by decide) |>.inRole .enumConstant

lemma after_atConstantsEnd {R : Bool → Cursor → Prop} :
    atConstantsEnd.After c R ↔
      R (!((c.kindAt 0).identName?.isSome || c.kindAt 0 == .punct .atSign)) c := Iff.rfl

lemma enumBody_placed (hr : r.Good m) (hc : c.ahead.length ≤ m) :
    (enumBody r).After c (PlacedAll c) := by
  simp only [enumBody, after_bind, after_expectAs, after_ite, after_pure, reduceIte,
    Bool.false_eq_true]
  split
  · next hk =>
    have htakes : Takes c c.advance := takes_advance (by simp [hk])
    refine (sepUntil_placed (fun _ _ => after_atConstantsEnd) fun c' h _ => ?_).imp
      fun constants c₁ hconstants => ?_
    · exact enumConstant_placed hr (by have := h.le; omega)
    refine (itemsIf_placed eat_reads fun c' h => ?_).imp fun members c₂ hmembers => ?_
    · exact membersIn_placed hr (by have := hconstants.le; have := h.le; omega)
    refine After.imp expect_reads fun _ c₃ h => ?_
    exact (PlacedAll.behind (.one c) (hconstants.trans hmembers)).before h
  · exact (Reads.complained c _).placedAll

lemma typesAfter_placed {k : Keyword} : (typesAfter k role).After c (PlacedAll c) :=
  itemsIf_placed eatKeyword_reads fun _ _ => typeList_placed

/-- The declaration of a type is read from behind its modifiers on, which lie between the cursors `c₀`
and `c`. -/
structure Declared (c₀ c : Cursor) (before : List Node) (n : Node) (c' : Cursor) : Prop where
  placed : Placed c₀ n c'
  start : n.span.start = c₀.offset
  kind : n.kind.isTypeDeclaration = true
  rest : ∃ rest, n.children = before ++ rest ∧ PlacedAll c rest c'

namespace Declared

variable {c' : Cursor} {n : Node} {before rest : List Node}

lemma of_rest {kind : Kind} (h : PlacedAll c₀ before c) (hrest : PlacedAll c rest c')
    (hkind : kind.isTypeDeclaration = true) :
    Declared c₀ c before ⟨kind, .unplaced, c'.spanSince c₀.offset, none, before ++ rest⟩ c' := by
  refine ⟨(h.trans hrest).node ?_, rfl, hkind, rest, rfl, hrest⟩
  cases kind <;> first | rfl | cases hkind

lemma withText (h : Declared c₀ c before n c') (text : String) :
    Declared c₀ c before (n.withText text) c' := by
  refine ⟨h.placed.withText text ?_, h.start, h.kind, h.rest⟩
  have hkind := h.kind
  cases hn : n.kind <;> first | rfl | rw [hn] at hkind; cases hkind

end Declared

lemma annotationTypeDeclaration_placed (hr : r.Good m) (hc : c.ahead.length ≤ m)
    (h : PlacedAll c₀ before c) :
    (annotationTypeDeclaration r c₀.offset before).After c (Declared c₀ c.advance before) := by
  simp only [annotationTypeDeclaration, bumpAll, after_bind, after_bump, after_pure, after_node]
  have hone := Reads.one c
  have htwo := Reads.one c.advance
  refine After.imp ident_placed fun name c₁ hname => ?_
  have hle : c₁.ahead.length ≤ m := by
    have := hname.le
    have := htwo.le
    have := hone.le
    omega
  refine (classBody_placed hr hle).imp fun members c₂ hmembers => ?_
  exact .of_rest (h.before hone) (.behind htwo (hname.cons hmembers)) rfl

lemma enumDeclaration_placed (hr : r.Good m) (hc : c.ahead.length ≤ m)
    (h : PlacedAll c₀ before c) :
    (enumDeclaration r c₀.offset before).After c (Declared c₀ c before) := by
  simp only [enumDeclaration, after_bind, after_node]
  refine After.imp ident_placed fun name c₁ hname => ?_
  refine After.imp typesAfter_placed fun interfaces c₂ hinterfaces => ?_
  have hhead := hname.cons hinterfaces
  refine (enumBody_placed hr (Nat.le_trans hhead.le hc)).imp fun body c₃ hbody => ?_
  rw [List.append_assoc]
  exact .of_rest h (hhead.trans hbody) rfl

lemma interfaceDeclaration_placed (hr : r.Good m) (hc : c.ahead.length ≤ m)
    (h : PlacedAll c₀ before c) :
    (interfaceDeclaration r c₀.offset before).After c (Declared c₀ c before) := by
  simp only [interfaceDeclaration, after_bind, after_node, after_pure]
  refine After.imp ident_placed fun name c₁ hname => ?_
  refine After.imp typeParameters_placed fun params c₂ ⟨hparams, _⟩ => ?_
  refine After.imp typesAfter_placed fun interfaces c₃ hinterfaces => ?_
  have hhead := (hname.cons hparams).trans hinterfaces
  refine (classBody_placed hr (Nat.le_trans hhead.le hc)).imp fun members c₄ hmembers => ?_
  rw [List.append_assoc, List.append_assoc, ← List.append_assoc (name :: params)]
  exact (Declared.of_rest h (hhead.trans hmembers) rfl).withText _

lemma classDeclaration_placed (hr : r.Good m) (hc : c.ahead.length ≤ m)
    (h : PlacedAll c₀ before c) :
    (classDeclaration r c₀.offset before).After c (Declared c₀ c before) := by
  simp only [classDeclaration, after_bind, after_node, after_pure]
  refine After.imp ident_placed fun name c₁ hname => ?_
  refine After.imp typeParameters_placed fun params c₂ ⟨hparams, _⟩ => ?_
  refine (itemIf_placed eatKeyword_reads fun _ _ => After.imp type_placed fun _ _ h => h.1).imp
    fun superclass c₃ hsuper => ?_
  refine After.imp typesAfter_placed fun interfaces c₄ hinterfaces => ?_
  have hhead := (hname.cons hparams).trans (hsuper.trans hinterfaces)
  refine (classBody_placed hr (Nat.le_trans hhead.le hc)).imp fun members c₅ hmembers => ?_
  have hrest := (hname.cons hparams).trans (hsuper.trans (hinterfaces.trans hmembers))
  simp only [List.append_assoc]
  exact (Declared.of_rest h hrest rfl).withText _

/-- The sign or keyword of a declaration is taken, and then its parts. -/
lemma typeDeclarationAfter_placed (hr : r.Good m) (hc : c.ahead.length ≤ m)
    (h : PlacedAll c₀ before c) :
    (typeDeclarationAfter r c₀.offset before).After c (Declared c₀ c.advance before) := by
  have hone := Reads.one c
  have hle : c.advance.ahead.length ≤ m := Nat.le_trans hone.le hc
  simp only [typeDeclarationAfter, after_bind, after_atPunct, after_eatKeyword, after_ite,
    after_bump, reduceIte, Bool.false_eq_true]
  split
  · exact annotationTypeDeclaration_placed hr hc h
  · split
    · exact enumDeclaration_placed hr hle (h.before hone)
    · split
      · exact interfaceDeclaration_placed hr hle (h.before hone)
      · exact classDeclaration_placed hr hle (h.before hone)

/-- The declaration of a type takes a token where any comes, and then every place in it at which code is
put lies behind its start. -/
lemma typeDeclaration_placed (hr : r.Good m) (hc : c.ahead.length ≤ m) :
    (typeDeclaration r).After c fun n c' => Placed c n c' ∧ n.kind.isTypeDeclaration = true
      ∧ n.span.start = c.offset ∧ (c.kindAt 0 ≠ .eof → Takes c c' ∧ OpensLater c n) := by
  simp only [typeDeclaration, after_bind, after_start]
  refine (modifiers_placed hr hc).imp fun ms c₁ ⟨hms, _⟩ => ?_
  refine (typeDeclarationAfter_placed hr (Nat.le_trans hms.placed.le hc) hms.placed).imp
    fun n c₂ hn => ⟨hn.placed, hn.kind, hn.start, fun hk => ?_⟩
  obtain ⟨rest, hchildren, hrest⟩ := hn.rest
  have hreads : Reads c c₁.advance := hms.placed.reads.advance
  have htakes : Takes c c₁.advance := by
    by_cases hnil : ms = []
    · obtain rfl := hms.stays hnil
      exact takes_advance hk
    · exact Nat.lt_of_le_of_lt (Reads.one c₁).le (hms.takes hnil)
  refine ⟨Nat.lt_of_le_of_lt hrest.le htakes, .of_children ?_ fun k hmem => ?_⟩
  · have hkind := hn.kind
    rintro (h | h) <;> rw [h] at hkind <;> cases hkind
  · rw [hchildren] at hmem
    rcases List.mem_append.mp hmem with hmem | hmem
    · exact hms.opens k hmem
    · exact hrest.opensLater hreads htakes k hmem

/-! ### Members -/

lemma after_atParametersEnd {R : Bool → Cursor → Prop} :
    atParametersEnd.After c R ↔
      R (c.kindAt 0 == .punct .closeParen || c.kindAt 0 == .eof || c.kindAt 0 == .punct .openBrace
        || c.kindAt 0 == .punct .semi) c := Iff.rfl

lemma methodBody_placed (hr : r.Good m) (hc : c.ahead.length ≤ m) :
    (methodBody r).After c (PlacedAll c) := by
  simp only [methodBody, after_bind, after_atPunct, after_ite, after_pure]
  split
  · exact (block_placed hr hc).imp fun _ _ h => h.1
  · exact After.imp expectAs_reads fun _ _ h => h.placedAll

lemma methodAfter_placed (hr : r.Good m) (hc : c.ahead.length < m) (h : PlacedAll c₀ before c) :
    (methodAfter r c₀.offset before).After c (Extended c₀ c) := by
  simp only [methodAfter, after_bind, after_bump, after_node]
  have hone := Reads.one c
  refine (sepUntil_placed (fun _ _ => after_atParametersEnd) fun c' h _ => ?_).imp
    fun params c₁ hparams => ?_
  · exact parameter_placed hr (by have := h.le; have := hone.le; omega)
  refine After.imp expect_reads fun _ c₂ hclose => ?_
  refine After.imp skipEmptyBrackets_reads fun _ c₃ hbrackets => ?_
  refine After.imp typesAfter_placed fun exceptions c₄ hexceptions => ?_
  have hhead := (PlacedAll.behind hone hparams).before (hclose.trans hbrackets)
  have hle : c₄.ahead.length ≤ m := by
    have := hhead.le
    have := hexceptions.le
    omega
  refine (methodBody_placed hr hle).imp fun body c₅ hbody => ?_
  have hall := ((h.trans hhead).trans hexceptions).trans hbody
  exact ⟨hall.node rfl, ((hhead.trans hexceptions).trans hbody).reads⟩

/-- The block that initialises a class takes a token where one comes. -/
lemma initializer_placed (hr : r.Good m) (hc : c.ahead.length ≤ m) :
    (initializer r).After c fun n c' => Placed c n c'
      ∧ (c.kindAt 0 = .punct .openBrace ∨ c.kindAt 0 = .keyword .staticKw → Takes c c') := by
  simp only [initializer, after_bind, after_start, after_itemIf, after_atKeyword, after_leaf,
    after_node, beq_iff_eq]
  split
  · next hk =>
    have htakes : Takes c c.advance := takes_advance (by simp [hk])
    refine (block_placed hr (by omega)).imp fun body c₁ ⟨hbody, _⟩ => ⟨?_, fun _ => ?_⟩
    · exact (PlacedAll.cons (.leaf (by rw [hk]; rfl) (by decide)) hbody).node rfl
    · exact Nat.lt_of_le_of_lt hbody.le htakes
  · next hk =>
    refine (block_placed hr hc).imp fun body c₁ ⟨hbody, htakes⟩ => ⟨hbody.node rfl, fun h => ?_⟩
    exact htakes (h.resolve_right hk)

lemma typedMember_placed (hr : r.Good m) (hc : c.ahead.length ≤ m)
    (hk : startsType (c.kindAt 0) = true) (h : PlacedAll c₀ before c) :
    (typedMember r c₀.offset before).After c fun n c' => Placed c₀ n c' ∧ Takes c c' := by
  simp only [typedMember, after_bind, atCallableName, after_atIdent, after_atPunct, after_pure,
    after_ite, after_node]
  refine After.imp type_placed fun ty c₁ ⟨hty, htakes⟩ => ?_
  have htakes := htakes hk
  split
  · refine After.imp ident_placed fun name c₂ hname => ?_
    have hle := hname.le
    have hhead := h.trans ((hty.inRole .returnType).cons hname)
    refine (methodAfter_placed hr (by omega) hhead).imp fun n c₃ hn => ⟨hn.placed, ?_⟩
    have := hn.le
    omega
  · refine (variableFragments_placed hr (by omega)).imp fun fragments c₂ hfragments => ?_
    refine After.imp expect_reads fun _ c₃ hsemi => ?_
    have hall := hfragments.before hsemi
    exact ⟨(h.trans (hty.cons hall)).node rfl, Nat.lt_of_le_of_lt hall.le htakes⟩

lemma plainMember_placed (hr : r.Good m) (hc : c.ahead.length ≤ m) :
    (plainMember r).After c fun o c' =>
      PlacedAll c o.toList c' ∧ (c.kindAt 0 ≠ .eof → Takes c c') := by
  simp only [plainMember, after_bind, after_start, atCallableName, after_atIdent, after_atPunct,
    after_atType, after_pure, after_ite, after_unexpected, after_bump, after_node]
  refine (modifiers_placed hr hc).imp fun ms c₁ ⟨hms, _⟩ => ?_
  refine After.imp typeParameters_placed fun params c₂ ⟨hparams, htakes⟩ => ?_
  have hhead := hms.placed.trans hparams
  have hle : c₂.ahead.length ≤ m := Nat.le_trans hhead.le hc
  -- Reading has moved on behind the modifiers and type parameters, or there are none of either.
  have hmoved : Takes c c₂ ∨ ms ++ params = [] ∧ c₂ = c := by
    by_cases hnil : ms = []
    · obtain rfl := hms.stays hnil
      exact htakes.imp_right fun ⟨hp, hstay⟩ => ⟨by rw [hnil, hp, List.append_nil], hstay⟩
    · exact .inl (Nat.lt_of_le_of_lt hparams.le (hms.takes hnil))
  split
  · next hname =>
    have hident : (c₂.kindAt 0).identName?.isSome = true := by simp_all
    refine (After.and ident_placed ident_takes).imp fun name c₃ ⟨hname, htakes⟩ => ?_
    have hlt : c₃.ahead.length < m := Nat.lt_of_lt_of_le (htakes hident) hle
    refine (methodAfter_placed hr hlt (hhead.trans hname)).imp fun n c₄ hn => ⟨hn.placed, fun _ => ?_⟩
    have := hn.le
    have := htakes hident
    have := hhead.le
    omega
  · split
    · next htype =>
      refine (typedMember_placed hr hle htype hhead).imp fun n c₃ ⟨hn, htakes⟩ => ⟨hn, fun _ => ?_⟩
      exact Nat.lt_of_lt_of_le htakes hhead.le
    · split
      · refine ⟨?_, fun hk => ?_⟩
        · exact ((hhead.reads.complain _).advance).placedAll
        · rcases hmoved with htakes | ⟨_, rfl⟩
          · exact Nat.lt_of_le_of_lt (Reads.one (c₂.complain _)).le htakes
          · exact takes_advance (c := c₂.complain _) hk
      · next hsome =>
        refine After.imp missing_placed fun ty c₃ hty => ⟨(hhead.trans hty).node rfl, fun _ => ?_⟩
        rcases hmoved with htakes | ⟨hnil, _⟩
        · exact Nat.lt_of_le_of_lt hty.le htakes
        · exact absurd (by rw [hnil]; rfl) hsome

/-- A member takes a token except at the end of a body. -/
theorem member_placed (hr : r.Good m) (hc : c.ahead.length ≤ m) :
    (member r).After c (Entered c) := by
  simp only [member, after_bind, after_eat, after_ite, atInitializer, after_atPunct, after_atKeyword,
    after_pure, after_atTypeDeclaration, reduceIte, Bool.false_eq_true]
  split
  · next hsemi => exact ⟨(Reads.one c).placedAll, fun _ => takes_advance (by simp [hsemi])⟩
  · split
    · next hinit =>
      refine (initializer_placed hr hc).imp fun n c' ⟨hn, htakes⟩ => ⟨hn, fun _ => htakes ?_⟩
      simp only [Bool.or_eq_true, Bool.and_eq_true, beq_iff_eq] at hinit
      exact hinit.imp_right And.left
    · split
      · next htype =>
        refine (typeDeclaration_placed hr hc).imp fun n c' ⟨hn, _, _, htakes⟩ => ⟨hn, fun _ => ?_⟩
        exact (htakes (ne_eof_of_startsTypeDeclaration htype)).1
      · refine (plainMember_placed hr hc).imp fun o c' ⟨ho, htakes⟩ => ⟨ho, fun hbody => htakes ?_⟩
        exact fun heof => by simp [endsBody, heof] at hbody

end Shorthand.Parser
