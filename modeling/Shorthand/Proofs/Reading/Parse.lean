import Shorthand.Proofs.Reading.Statements
import Shorthand.Proofs.Token.Tiling

/-!
Reading whole texts.

Rules made of good ones are good for one more token (`rulesOver_good`), so the rules for any depth are
good for as many tokens (`rulesTo_good`).

* `parse_laid` says that the tree of a text lies in the text.
* `not_stalled` says that reading never stalls, whatever the text is: each round of a loop that is
  followed by another one takes a token, and a rule is read inside of itself only behind a token.
-/

namespace Shorthand

open Cursor

namespace Parser

variable {r : Rules} {m bound : Nat} {c : Cursor}

namespace Rules.Good

/-- Rules that are asked to read only where few tokens are ahead are as good there. -/
lemma below (h : r.Good m) (hb : bound ≤ m) : (r.below bound).Good bound where
  expression c hc := (h.expression c (by omega)).below hc
  conditional c hc := (h.conditional c (by omega)).below hc
  operation least c hc := (h.operation least c (by omega)).below hc
  unary c hc := (h.unary c (by omega)).below hc
  arrayInitializer role c hc hk := (h.arrayInitializer role c (by omega) hk).below hc
  statement c hc := (h.statement c (by omega)).below hc
  member c hc := (h.member c (by omega)).below hc

lemma empty : Rules.empty.Good 0 where
  expression _ hc := absurd hc (Nat.not_lt_zero _)
  conditional _ hc := absurd hc (Nat.not_lt_zero _)
  operation _ _ hc := absurd hc (Nat.not_lt_zero _)
  unary _ hc := absurd hc (Nat.not_lt_zero _)
  arrayInitializer _ _ hc := absurd hc (Nat.not_lt_zero _)
  statement _ hc := absurd hc (Nat.not_lt_zero _)
  member _ hc := absurd hc (Nat.not_lt_zero _)

end Rules.Good

/-- A rule made of rules that are good only where fewer tokens are ahead than now. -/
lemma after_below {α : Type} {f : Rules → Parser α} {Q : α → Cursor → Prop} :
    (do f (r.below (← remaining)) : Parser α).After c Q ↔ (f (r.below c.ahead.length)).After c Q :=
  Iff.rfl

/-- Each rule takes a token before it uses the rules that it is made of. -/
theorem rulesOver_good (hr : r.Good m) : (rulesOver r).Good (m + 1) := by
  have hbelow (c : Cursor) (hc : c.ahead.length < m + 1) :
      (r.below c.ahead.length).Good c.ahead.length := hr.below (Nat.le_of_lt_succ hc)
  constructor
  case expression =>
    exact fun c hc => after_below.mpr
      ((expression_placed (hbelow c hc) (Nat.le_refl _)).imp fun _ _ h => h.1)
  case conditional =>
    exact fun c hc => after_below.mpr
      ((conditional_placed (hbelow c hc) (Nat.le_refl _)).imp fun _ _ h => h.1)
  case operation =>
    exact fun least c hc => (after_below (f := fun r => operation r least)).mpr
      ((operation_placed (hbelow c hc) (Nat.le_refl _)).imp fun _ _ h => h.1)
  case unary =>
    exact fun c hc => after_below.mpr
      ((unary_placed (hbelow c hc) (Nat.le_refl _)).imp fun _ _ h => h.1)
  case arrayInitializer =>
    exact fun role c hc hk => (after_below (f := fun r => arrayInitializer r role)).mpr
      (arrayInitializer_placed (hbelow c hc) (Nat.le_refl _) hk)
  case statement =>
    exact fun c hc => after_below.mpr (statement_placed (hbelow c hc) (Nat.le_refl _))
  case member =>
    exact fun c hc => after_below.mpr (member_placed (hbelow c hc) (Nat.le_refl _))

theorem rulesTo_good (depth : Nat) : (rulesTo depth).Good depth := by
  induction depth with
  | zero => exact .empty
  | succ depth ih => exact rulesOver_good ih

/-! ### Compilation units -/

/-- The node is the declaration of the package or an import, as the kind and the role say. -/
structure IsHeaderEntry (kind : Kind) (role : Role) (n : Node) : Prop where
  kind : n.kind = kind
  role : n.role = role
  header : IsHeader n

/-- The node is a type at the top of a text, and every place in it at which code is put lies behind its
start. -/
structure IsTopType (n : Node) : Prop where
  kind : n.kind.isTypeDeclaration = true
  role : n.role = .member
  opens : n.OpensBehind n.span.start

lemma packageDeclaration_placed :
    packageDeclaration.After c fun n c' =>
      Placed c n c' ∧ IsHeaderEntry .packageDeclaration .package n := by
  simp only [packageDeclaration, after_bind, after_start, after_bump, after_node, after_pure]
  refine After.imp qualifiedName_placed fun name c₁ ⟨hname, hheader⟩ => ?_
  refine After.imp expect_reads fun _ c₂ hsemi => ⟨?_, rfl, rfl, .mk rfl ?_⟩
  · exact ((PlacedAll.behind (.one c) hname).before hsemi).node (by decide) |>.inRole .package
  · simpa [Node.inRole] using hheader

lemma eatDotStar_reads : eatDotStar.After c fun _ c' => Reads c c' := by
  simp only [eatDotStar, after_bind, after_atPunct, after_ite, after_pure]
  split
  · exact bumpAll_reads 2
  · exact .refl c

lemma staticModifier_placed :
    (itemIf (atKeyword .staticKw) (leaf .modifier .modifier)).After c fun ns c' =>
      PlacedAll c ns c' ∧ ∀ n ∈ ns, IsHeader n := by
  simp only [after_itemIf, after_atKeyword, after_leaf]
  split
  · next hk =>
    rw [beq_iff_eq] at hk
    refine ⟨Placed.leaf (by rw [hk]; rfl) (by decide), fun n hn => ?_⟩
    obtain rfl := List.mem_singleton.mp hn
    exact .mk rfl (by simp)
  · exact ⟨(Reads.refl c).placedAll, by simp⟩

lemma importDeclaration_placed (hk : c.kindAt 0 ≠ .eof) :
    importDeclaration.After c fun n c' =>
      Placed c n c' ∧ Takes c c' ∧ IsHeaderEntry .importDeclaration .importDecl n := by
  have htakes : Takes c c.advance := takes_advance hk
  simp only [importDeclaration, after_bind, after_start, after_bump, after_node, after_pure]
  refine After.imp staticModifier_placed fun modifiers c₁ ⟨hmodifiers, hheaders⟩ => ?_
  refine After.imp qualifiedName_placed fun name c₂ ⟨hname, hheader⟩ => ?_
  refine After.imp eatDotStar_reads fun onDemand c₃ hstar => ?_
  refine After.imp expect_reads fun _ c₄ hsemi => ?_
  have hrest := (hmodifiers.trans hname).before (hstar.trans hsemi)
  have hnode := (PlacedAll.behind (.one c) hrest).node
    (by decide : Kind.importDeclaration.isComposed = true) |>.inRole .importDecl
  have hall : ∀ n ∈ modifiers ++ [name], IsHeader n := by
    intro n hn
    rcases List.mem_append.mp hn with hn | hn
    · exact hheaders n hn
    · exact List.mem_singleton.mp hn ▸ hheader
  have hlt := Nat.lt_of_le_of_lt hrest.le htakes
  cases onDemand with
  | true => exact ⟨hnode.withText _ rfl, hlt, rfl, rfl, .mk rfl hall⟩
  | false => exact ⟨hnode, hlt, rfl, rfl, .mk rfl hall⟩

lemma topLevelType_placed {src : List Char} (hr : r.Good m) (hc : c.ahead.length ≤ m)
    (hk : c.kindAt 0 ≠ .eof) (hfits : c.Fits src) :
    (topLevelType r).After c fun o c' =>
      PlacedAll c o.toList c' ∧ Takes c c' ∧ ∀ n ∈ o.toList, IsTopType n := by
  simp only [topLevelType, after_bind, after_eat, after_ite, after_atTypeDeclaration,
    after_remaining, after_unexpected, after_bump, after_pure, reduceIte, Bool.false_eq_true]
  split
  · exact ⟨(Reads.one c).placedAll, takes_advance hk, by simp⟩
  · split
    · refine (typeDeclaration_placed (hr.below hc) (Nat.le_refl _)).imp
        fun n c' ⟨hn, hkind, hstart, htakes⟩ => ⟨hn.inRole .member, (htakes hk).1, fun k hmem => ?_⟩
      obtain rfl := List.mem_singleton.mp hmem
      refine ⟨hkind, rfl, ?_⟩
      have hopens := ((htakes hk).2 src hfits).inRole .member
      rwa [← hstart] at hopens
    · exact ⟨((Reads.complained c _).advance).placedAll, takes_advance (c := c.complain _) hk, by simp⟩

lemma after_notAtImport {R : Bool → Cursor → Prop} :
    notAtImport.After c R ↔ R (!(c.kindAt 0 == .keyword .importKw)) c := Iff.rfl

/-- A compilation unit has the declaration of a package, imports and types, one behind the other. -/
structure UnitRead (c : Cursor) (n : Node) (package imports types : List Node) (c' : Cursor) :
    Prop where
  eq : n = ⟨.compilationUnit, .unplaced, ⟨0, c'.textEnd⟩, none, package ++ imports ++ types⟩
  placed : PlacedAll c (package ++ imports ++ types) c'
  package : ∀ p ∈ package, IsHeaderEntry .packageDeclaration .package p
  imports : ∀ i ∈ imports, IsHeaderEntry .importDeclaration .importDecl i
  types : ∀ t ∈ types, IsTopType t

lemma package_placed : (itemIf (atKeyword .packageKw) packageDeclaration).After c fun ns c' =>
    PlacedAll c ns c' ∧ ∀ n ∈ ns, IsHeaderEntry .packageDeclaration .package n := by
  simp only [after_itemIf, after_atKeyword]
  split
  · exact After.imp packageDeclaration_placed fun n c' hn => ⟨hn.1, by simpa using hn.2⟩
  · exact ⟨(Reads.refl c).placedAll, by simp⟩

lemma imports_placed : (manyUntil notAtImport (some <$> importDeclaration)).After c fun ns c' =>
    PlacedAll c ns c' ∧ ∀ n ∈ ns, IsHeaderEntry .importDeclaration .importDecl n := by
  refine manyUntil_all (fun _ _ => after_notAtImport) fun c' _ hs => ?_
  rw [after_map]
  refine After.imp (importDeclaration_placed fun heof => by simp [heof] at hs) fun n c'' hn => ?_
  exact ⟨hn.1, hn.2.1, by simpa using hn.2.2⟩

lemma types_placed {src : List Char} (hr : r.Good m) (hc : c.ahead.length ≤ m) (hfits : c.Fits src) :
    (manyUntil atEnd (topLevelType r)).After c fun ns c' =>
      PlacedAll c ns c' ∧ ∀ n ∈ ns, IsTopType n := by
  refine manyUntil_all (fun _ _ => after_atEnd) fun c' h hs => ?_
  exact topLevelType_placed hr (by have := h.le; omega) (by simpa using hs) (hfits.later h)

theorem compilationUnit_read {src : List Char} (hr : r.Good m) (hc : c.ahead.length ≤ m)
    (hfits : c.Fits src) :
    (compilationUnit r).After c fun n c' =>
      ∃ package imports types, UnitRead c n package imports types c' := by
  simp only [compilationUnit, after_bind, after_get, after_pure]
  refine After.imp package_placed fun package c₁ ⟨hpackage, hpackage'⟩ => ?_
  refine After.imp imports_placed fun imports c₂ ⟨himports, himports'⟩ => ?_
  have hhead := hpackage.trans himports
  refine After.imp (types_placed hr (Nat.le_trans hhead.le hc) (hfits.later hhead.reads))
    fun types c₃ ⟨htypes, htypes'⟩ => ?_
  exact ⟨package, imports, types, rfl, hhead.trans htypes, hpackage', himports', htypes'⟩

lemma wholeExpression_placed (hr : r.Good m) (hc : c.ahead.length < m) :
    (wholeExpression r).After c (Placed c) := by
  simp only [wholeExpression, after_bind, after_atEnd, after_ite, after_unexpected, after_pure]
  refine (expressionOr_placed hr hc).imp fun n c' hn => ?_
  split
  · exact hn.before (.complained c' _)
  · exact hn

end Parser

/-! ### Whole texts -/

/-- The cursor with which the reading of a text starts. -/
def Cursor.front (source : String) : Cursor :=
  Cursor.ofTokens (lex source).tokens (Text.bytes source.toList)

/-- What holds behind the rule by which a text is read holds of its tree. -/
lemma ParseOutput.of_after {rule : Parser.Rules → Parser Node} {source : String}
    {Q : Node → Cursor → Prop}
    (h : (rule (Parser.rulesTo ((Cursor.front source).ahead.length + 1))).After
      (Cursor.front source) Q) :
    ∃ c', Q (ParseOutput.ofSource rule source).tree c'
      ∧ (ParseOutput.ofSource rule source).stalled = c'.stalled :=
  ⟨_, h, rfl⟩

/-- The tree of a text is that of a compilation unit. -/
theorem parse_read (source : String) : ∃ package imports types c',
    Parser.UnitRead (Cursor.front source) (parse source).tree package imports types c'
      ∧ (parse source).stalled = c'.stalled := by
  obtain ⟨c', ⟨package, imports, types, hread⟩, hstalled⟩ := ParseOutput.of_after
    (Parser.compilationUnit_read (Parser.rulesTo_good _) (Nat.le_succ _) (fits_ofTokens source))
  exact ⟨package, imports, types, c', hread, hstalled⟩

/-- The tree of a text lies in the text. -/
theorem parse_laid (source : String) : (parse source).tree.Laid source.toList := by
  obtain ⟨package, imports, types, c', hread, -⟩ := parse_read source
  have hfits : (Cursor.front source).Fits source.toList := fits_ofTokens source
  obtain ⟨hlaid, hin⟩ := hread.placed.laid _ hfits
  have hfits' := hfits.later hread.placed.reads
  have hends := hread.placed.ends _ hfits
  have hback := Text.le_bytes_of_isBoundary hfits'.backOffset_boundary
  rw [hread.eq, hfits'.textEnd]
  exact .of_children hlaid (hin.of_le (Nat.zero_le _)) (fun n hn => (hends n hn).of_le hback)
    (Nat.zero_le _) (Text.isBoundary_zero _) (Text.isBoundary_bytes _) rfl rfl

/-- Reading a text, as a compilation unit or as an expression, never stalls. -/
theorem not_stalled (source : String) :
    (parse source).stalled = false ∧ (parseExpression source).stalled = false := by
  constructor
  · obtain ⟨_, _, _, c', hread, hstalled⟩ := parse_read source
    rw [hstalled, hread.placed.reads.stalled_eq]
    rfl
  · obtain ⟨c', hread, hstalled⟩ := ParseOutput.of_after
      (Parser.wholeExpression_placed (c := Cursor.front source) (Parser.rulesTo_good _)
        (Nat.lt_succ_self _))
    exact hstalled.trans hread.reads.stalled_eq

end Shorthand
