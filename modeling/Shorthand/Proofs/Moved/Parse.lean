import Shorthand.Proofs.Moved.Statements
import Shorthand.Grammar.Parse

/-!
Reading whole texts in two places.

Rules for different depths are alike where fewer tokens are ahead than either depth
(`rulesTo_alike`), and no more than that is asked of them. So are the rules for the types of a text
(`types_alike`), for a compilation unit and for an expression that is all of a text.
-/

namespace Shorthand

namespace Parser

open Node

variable {s : Places} {r q : Rules} {bound : Nat}

/-- Rules are alike, one by one, where fewer than so many tokens are ahead. -/
structure Rules.AlikeBelow (s : Places) (bound : Nat) (r q : Rules) : Prop where
  expression : Parser.AlikeBelow s bound Same r.expression q.expression
  conditional : Parser.AlikeBelow s bound Same r.conditional q.conditional
  operation : ∀ least, Parser.AlikeBelow s bound Same (r.operation least) (q.operation least)
  unary : Parser.AlikeBelow s bound Same r.unary q.unary
  arrayInitializer : ∀ role,
    Parser.AlikeBelow s bound Same (r.arrayInitializer role) (q.arrayInitializer role)
  statement : Parser.AlikeBelow s bound (Option.Rel Same) r.statement q.statement
  member : Parser.AlikeBelow s bound (Option.Rel Same) r.member q.member

/-- Rules that are asked to read only where they are alike are alike. -/
lemma Rules.AlikeBelow.below (h : r.AlikeBelow s bound q) :
    (r.below bound).Alike s (q.below bound) where
  expression := below_alike h.expression (.refl _)
  conditional := below_alike h.conditional (.refl _)
  operation least := below_alike (h.operation least) (.refl _)
  unary := below_alike h.unary (.refl _)
  arrayInitializer role := below_alike (h.arrayInitializer role) (.refl _)
  statement := below_alike h.statement .none
  member := below_alike h.member .none

lemma Rules.AlikeBelow.of_le {bound' : Nat} (h : r.AlikeBelow s bound q) (hle : bound' ≤ bound) :
    r.AlikeBelow s bound' q where
  expression c d hcd hc := h.expression c d hcd (Nat.lt_of_lt_of_le hc hle)
  conditional c d hcd hc := h.conditional c d hcd (Nat.lt_of_lt_of_le hc hle)
  operation least c d hcd hc := h.operation least c d hcd (Nat.lt_of_lt_of_le hc hle)
  unary c d hcd hc := h.unary c d hcd (Nat.lt_of_lt_of_le hc hle)
  arrayInitializer role c d hcd hc := h.arrayInitializer role c d hcd (Nat.lt_of_lt_of_le hc hle)
  statement c d hcd hc := h.statement c d hcd (Nat.lt_of_lt_of_le hc hle)
  member c d hcd hc := h.member c d hcd (Nat.lt_of_lt_of_le hc hle)

/-- A rule that is made of rules as good as the tokens ahead ask for is alike where these are. -/
lemma over_alike {α β : Type} {R : α → β → Prop} {f : Rules → Parser α} {g : Rules → Parser β}
    (h : r.AlikeBelow s bound q) (hf : ∀ r q, Rules.Alike s r q → Alike s R (f r) (g q)) :
    AlikeBelow s (bound + 1) R (do f (r.below (← remaining))) (do g (q.below (← remaining))) := by
  intro c d hcd hc
  have hrules := (h.of_le (Nat.le_of_lt_succ hc)).below
  show (f (r.below c.ahead.length)).After c fun x c' =>
    (g (q.below d.ahead.length)).After d fun y d' => R x y ∧ c'.Moved s d'
  rw [hcd.length_eq]
  exact hf _ _ hrules c d hcd

/-- Rules made of alike ones are alike for one more token. -/
lemma rulesOver_alike (h : r.AlikeBelow s bound q) :
    (rulesOver r).AlikeBelow s (bound + 1) (rulesOver q) where
  expression := over_alike h fun _ _ h => expression_alike h
  conditional := over_alike h fun _ _ h => conditional_alike h
  operation least := over_alike h fun _ _ h => operation_alike h least
  unary := over_alike h fun _ _ h => unary_alike h
  arrayInitializer role := over_alike h fun _ _ h => arrayInitializer_alike h role
  statement := over_alike h fun _ _ h => statement_alike h
  member := over_alike h fun _ _ h => member_alike h

theorem rulesTo_alike {m n : Nat} (hm : bound ≤ m) (hn : bound ≤ n) :
    (rulesTo m).AlikeBelow s bound (rulesTo n) := by
  induction bound generalizing m n with
  | zero =>
    constructor
    case operation => exact fun _ _ _ _ hc => absurd hc (Nat.not_lt_zero _)
    case arrayInitializer => exact fun _ _ _ _ hc => absurd hc (Nat.not_lt_zero _)
    all_goals exact fun _ _ _ hc => absurd hc (Nat.not_lt_zero _)
  | succ bound ih =>
    obtain ⟨m, rfl⟩ := Nat.exists_eq_add_of_le' (Nat.le_trans (Nat.le_add_left 1 bound) hm)
    obtain ⟨n, rfl⟩ := Nat.exists_eq_add_of_le' (Nat.le_trans (Nat.le_add_left 1 bound) hn)
    exact rulesOver_alike (ih (Nat.le_of_succ_le_succ hm) (Nat.le_of_succ_le_succ hn))

/-- Rules that are alike for more tokens than are ahead are alike. -/
lemma alike_of_limit_lt {α β : Type} {R : α → β → Prop} {p : Parser α} {p' : Parser β}
    (h : AlikeBelow s bound R p p') (hlimit : s.limit < bound) : Alike s R p p' :=
  fun c d hcd => h c d hcd (Nat.lt_of_le_of_lt hcd.limit hlimit)

lemma topLevelMember_alike (h : r.Alike s q) :
    Alike s (Option.Rel Same) (do return some ((← typeDeclaration r).inRole .member))
      (do return some ((← typeDeclaration q).inRole .member)) :=
  .bind (typeDeclaration_alike h) fun _ _ h => .pure (.some (h.inRole .member))

/-- The types of a text are read alike by rules for any two depths that are deep enough for it. -/
theorem types_alike {m n : Nat} (hm : s.limit ≤ m) (hn : s.limit ≤ n) :
    Alike s SameAll (manyUntil atEnd (topLevelType (rulesTo m)))
      (manyUntil atEnd (topLevelType (rulesTo n))) := by
  refine manyUntil_alike atEnd_alike ?_
  refine .look (eat_alike .semi) fun _ => .ite (.pure .none) ?_
  refine .look atTypeDeclaration_alike fun _ => .ite ?_ ?_
  · have hbelow := over_alike (s := s) (rulesTo_alike hm hn) fun _ _ h => topLevelMember_alike h
    exact alike_of_limit_lt hbelow (Nat.lt_succ_self _)
  · exact .look (unexpected_alike _) fun _ => .andThen bump_alike fun _ _ => .pure .none

/-! ### Headers -/

lemma packageDeclaration_alike : Alike s Same packageDeclaration packageDeclaration := by
  refine .andThen start_alike fun first second => .andThen bump_alike fun _ _ => ?_
  refine .bind (qualifiedName_alike .name) fun name name' hname => ?_
  exact .look (expect_alike .semi) fun _ => nodeIn_alike (.one hname)

lemma eatDotStar_alike : Alike s Eq eatDotStar eatDotStar := by
  refine .look (atPunct_alike 0 .dot) fun _ => .look (atPunct_alike 1 .star) fun _ => ?_
  exact .ite (.look (bumpAll_alike 2) fun _ => .pure rfl) (.pure rfl)

lemma importDeclaration_alike : Alike s Same importDeclaration importDeclaration := by
  refine .andThen start_alike fun first second => .andThen bump_alike fun _ _ => ?_
  have hmodifiers := itemIf_alike (s := s) (atKeyword_alike 0 .staticKw)
    (leaf_alike .modifier .modifier)
  refine .bind hmodifiers fun ns ms hns => .bind (qualifiedName_alike .name) fun name name' hname => ?_
  refine .look eatDotStar_alike fun onDemand => .look (expect_alike .semi) fun _ => ?_
  refine .bind (node_alike (hns.append (.one hname))) fun n m hnm => ?_
  have himport := hnm.inRole .importDecl
  cases onDemand with
  | true => exact .pure (himport.withText "*")
  | false => exact .pure himport

lemma notAtImport_alike : Alike s Eq notAtImport notAtImport :=
  .look (atKeyword_alike 0 .importKw) fun _ => .pure rfl

/-! ### Whole texts -/

theorem compilationUnit_alike {m n : Nat} (hm : s.limit ≤ m) (hn : s.limit ≤ n) :
    Alike s Same (compilationUnit (rulesTo m)) (compilationUnit (rulesTo n)) := by
  refine .bind (itemIf_alike (atKeyword_alike 0 .packageKw) packageDeclaration_alike) ?_
  intro package package' hpackage
  have himports := manyUntil_alike (s := s) notAtImport_alike (.some importDeclaration_alike)
  refine .bind himports fun imports imports' himports => ?_
  refine .bind (types_alike hm hn) fun types types' htypes => .bind get_alike fun _ _ _ => ?_
  exact .pure (.mk ((hpackage.append himports).append htypes))

theorem wholeExpression_alike {m n : Nat} (hm : s.limit < m) (hn : s.limit < n) :
    Alike s Same (wholeExpression (rulesTo m)) (wholeExpression (rulesTo n)) := by
  have hexpression := alike_of_limit_lt
    (rulesTo_alike (s := s) (Nat.succ_le_of_lt hm) (Nat.succ_le_of_lt hn)).expression
    (Nat.lt_succ_self _)
  have hread : Alike s Same (expressionOr (rulesTo m) .unplaced "expression")
      (expressionOr (rulesTo n) .unplaced "expression") :=
    .look atExpression_alike fun _ =>
      .ite (.bind hexpression fun _ _ h => .pure (h.inRole .unplaced)) (missing_alike .unplaced _)
  refine .bind hread fun n m hnm => .look atEnd_alike fun _ => ?_
  exact .ite (.look (unexpected_alike _) fun _ => .pure hnm) (.pure hnm)

end Parser

end Shorthand
