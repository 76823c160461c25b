import Shorthand.Proofs.Operator.Tokens

/-!
Operators are read by their strength.

Where a chain of names and operators comes next, a rule for operators that bind at least so strongly
reads the longest tree at whose top such an operator stands, and leaves the rest of the chain, which
starts with a weaker one (`operation_chain`). What carries the loop of the rule is that the operator
that comes next binds no more strongly than the one at the top of what has been read: the whole may
become its left operand.

* `infixOperator?_link`: the signs that come next are read as one operator. A run of `>` signs is a shift
  because a name follows it.
* `unary_name`: a name in front of an operator is an operand.
* `OperatorTree.Begins.operation` puts a tree together from what is read on both sides of an operator.
* `parseExpression_chain`: a text is read as the one tree that its chain means.
-/

namespace Shorthand

open Cursor Node

/-! ### Trees of the first part of a chain -/

namespace OperatorTree

/-- The tree is that of the first operators of a chain and leaves some of them. -/
structure Begins (t : OperatorTree) (least : Nat) (chain : OperatorChain) (rest : List OperatorLink) :
    Prop where
  inOrder : chain = ⟨t.inOrder.first, t.inOrder.links ++ rest⟩
  binds : t.Binds
  atLeast : t.AtLeast least

variable {t t' : OperatorTree} {op : InfixOperator} {name : String} {chain : OperatorChain}
  {links rest : List OperatorLink} {least : Nat}

lemma Begins.operand (least : Nat) (chain : OperatorChain) :
    (operand chain.first).Begins least chain chain.links :=
  ⟨rfl, trivial, trivial⟩

/-- An operator is put between what was read before and behind it. -/
lemma Begins.operation (h : t.Begins least chain ((op, name) :: links)) (ht : t.AtLeast op.strength)
    (hop : least ≤ op.strength) (h' : t'.Begins (op.strength + 1) ⟨name, links⟩ rest) :
    (operation t op t').Begins least chain rest where
  inOrder := by
    obtain ⟨hfirst, hlinks⟩ := OperatorChain.mk.inj h'.inOrder
    rw [h.inOrder, hfirst, hlinks, OperatorTree.inOrder, OperatorChain.join, List.append_assoc,
      List.cons_append]
  binds := ⟨h.binds, h'.binds, ht, h'.atLeast⟩
  atLeast := hop

end OperatorTree

/-! ### The operator that comes next -/

/-- Signs without a gap between them are counted up to the first other token. -/
lemma gapless_run {start : Nat} {signs ts : List Token} {t : Token}
    (hsigns : ∀ s ∈ signs, s.kind = .punct .gt) (hjoined : Joined start signs)
    (ht : t.kind ≠ .punct .gt) : gapless start (signs ++ t :: ts) = signs.length := by
  induction signs generalizing start with
  | nil => simp [gapless, ht]
  | cons s signs ih =>
    obtain ⟨hs, hsigns⟩ := List.forall_mem_cons.mp hsigns
    obtain ⟨rfl, hjoined⟩ := hjoined
    rw [List.cons_append, gapless, ih hsigns hjoined, hs]
    simp

namespace Parser

variable {r : Rules} {c : Cursor} {n : Node} {chain : OperatorChain} {links rest : List OperatorLink}
  {least bound start : Nat} {op : InfixOperator} {name : String} {signs ts : List Token} {t : Token}

/-- A run of signs in front of a name is counted, and is not part of an assignment. -/
lemma run_spec (hc : c.ahead = signs ++ t :: ts) (hne : signs ≠ [])
    (hsigns : ∀ s ∈ signs, s.kind = .punct .gt) (hjoined : Joined start signs)
    (ht : t.kind = .ident name) : c.runLength = signs.length ∧ c.runAssigns = false := by
  obtain ⟨s, more, rfl⟩ := List.exists_cons_of_ne_nil hne
  have hstart : (c.peek 0).span.start = start := by
    rw [Cursor.peek, hc]
    exact hjoined.1
  have hlength : c.runLength = (s :: more).length := by
    rw [runLength, hc, hstart]
    exact gapless_run hsigns hjoined (by simp [ht])
  have hafter : c.peek c.runLength = t := by
    rw [hlength, Cursor.peek, hc, List.getElem?_append_right (Nat.le_refl _), Nat.sub_self]
    rfl
  refine ⟨hlength, ?_⟩
  rw [runAssigns, hafter, ht]
  rfl

section

variable {Q : Option (Nat × String × Nat) → Cursor → Prop}

/-- A sign other than `>` is an operator alone. -/
lemma infixOperator?_single {p : Punct} {strength : Nat} (hc : c.kindAt 0 = .punct p) (hp : p ≠ .gt)
    (hstrength : strength? (.punct p) = some strength)
    (hQ : Q (some (strength, p.spelling, 1)) c) : infixOperator?.After c Q := by
  simp only [infixOperator?, after_bind, after_get]
  rw [show (c.peek 0).kind = c.kindAt 0 from rfl, hc, if_neg (by simpa using hp), hstrength]
  exact hQ

/-- A run of `>` signs is an operator by its length. -/
lemma infixOperator?_run (hc : c.ahead = signs ++ t :: ts) (hne : signs ≠ [])
    (hsigns : ∀ s ∈ signs, s.kind = .punct .gt) (hjoined : Joined start signs)
    (ht : t.kind = .ident name)
    (hQ : Q (if 1 < min signs.length 3 then
        some (shiftStrength, Parser.signs (min signs.length 3), min signs.length 3)
      else some (7, Punct.gt.spelling, 1)) c) : infixOperator?.After c Q := by
  obtain ⟨hlength, hassigns⟩ := run_spec hc hne hsigns hjoined ht
  have hkind : (c.peek 0).kind = .punct .gt := by
    obtain ⟨s, more, rfl⟩ := List.exists_cons_of_ne_nil hne
    rw [Cursor.peek, hc]
    exact hsigns s List.mem_cons_self
  simp only [infixOperator?, after_bind, after_get]
  rw [hkind, if_pos rfl, hassigns, hlength, if_neg Bool.false_ne_true, after_ite]
  split
  · next hlt => rwa [if_pos hlt] at hQ
  · next hlt => rwa [if_neg hlt] at hQ

/-- The signs that come next are read as one operator. -/
lemma infixOperator?_link (hc : c.ahead = signs ++ t :: ts)
    (hsigns : signs.map (·.kind) = op.signs.map .punct) (hjoined : Joined start signs)
    (ht : t.kind = .ident name) (hQ : Q (some (op.strength, op.spelling, signs.length)) c) :
    infixOperator?.After c Q := by
  have hlength : signs.length = op.signs.length := by simpa using congrArg List.length hsigns
  have hrun (hop : ∀ p ∈ op.signs, p = .gt) : ∀ s ∈ signs, s.kind = .punct .gt := by
    intro s hs
    have hmem : s.kind ∈ op.signs.map .punct := hsigns ▸ List.mem_map_of_mem hs
    obtain ⟨p, hp, hkind⟩ := List.mem_map.mp hmem
    rw [← hkind, hop p hp]
  have hne : signs ≠ [] := List.ne_nil_of_length_pos (hlength ▸ op.length_signs_pos)
  have hsingle {p : Punct} (hop : op.signs = [p]) : c.kindAt 0 = .punct p := by
    rw [hop] at hsigns
    obtain ⟨s, rfl, hs⟩ := List.map_eq_singleton_iff.mp hsigns
    rw [kindAt, Cursor.peek, hc]
    exact hs
  rw [hlength] at hQ
  cases op with
  | gt | shr | ushr =>
    refine infixOperator?_run hc hne (hrun (by decide)) hjoined ht ?_
    rw [hlength]
    exact hQ
  | _ => exact infixOperator?_single (hsingle rfl) (by decide) rfl hQ

end

lemma after_bumpAll {Q : Unit → Cursor → Prop} (hc : c.ahead = signs ++ ts)
    (hQ : ∀ c', c'.ahead = ts → c'.problems = c.problems → Q () c') :
    (bumpAll signs.length).After c Q := by
  induction signs generalizing c with
  | nil => exact hQ c hc rfl
  | cons s signs ih =>
    rw [List.length_cons, bumpAll, after_bind, after_bump]
    refine ih ?_ fun c' hc' hproblems => hQ c' hc' ?_
    · rw [ahead_advance, hc]
      rfl
    · rw [hproblems, problems_advance]

/-! ### Operands -/

/-- The token goes on with the name before it. -/
def continuesName : TokenKind → Bool
  | .punct p =>
    p ∈ [.arrow, .openParen, .dot, .openBracket, .plusPlus, .minusMinus, .colonColon]
  | _ => false

/-- Nothing is joined to an expression where the next token does not go on with a name. -/
lemma chain_of_not_continuesName {Q : Node → Cursor → Prop} (hc : continuesName (c.kindAt 0) = false)
    (hQ : Q n c) : (Parser.chain (postfixStep r start) n).After c Q := by
  have hne {p : Punct} (h : c.kindAt 0 = .punct p) (hp : continuesName (.punct p) = true) : False := by
    rw [h, hp] at hc
    cases hc
  refine after_chain_stop ?_
  simp only [postfixStep, after_bind, after_peek]
  rw [show (c.peek 0).kind = c.kindAt 0 from rfl]
  split
  · next h => exact (hne h rfl).elim
  · next h => exact (hne h rfl).elim
  · next h => exact (hne h rfl).elim
  · next h => exact (hne h rfl).elim
  · next h => exact (hne h rfl).elim
  · exact ⟨rfl, hQ⟩

/-- A name is an operand where the next token does not go on with it. -/
lemma unary_name {Q : Node → Cursor → Prop} (hc : c.kindAt 0 = .ident name)
    (hnext : continuesName (c.kindAt 1) = false)
    (hQ : ∀ m, Same (ofWord name) m → Q m c.advance) : (unary r).After c Q := by
  have hident : (c.kindAt 0).identName?.isSome = true := by
    rw [hc]
    rfl
  have hadvance : c.advance.kindAt 0 = c.kindAt 1 := kindAt_advance (by simp [hc]) 0
  have hne (p : Punct) (hp : continuesName (.punct p) = true) : (c.kindAt 1 == .punct p) = false := by
    refine beq_false_of_ne fun h => ?_
    rw [h, hp] at hnext
    cases hnext
  simp only [unary, joined, primary, after_bind, after_start, after_peek]
  rw [show (c.peek 0).kind = c.kindAt 0 from rfl, hc]
  simp only [after_bind, after_atPunct, after_start, after_peek, hne .arrow rfl, after_ite]
  rw [if_neg Bool.false_ne_true, show (c.peek 0).kind = c.kindAt 0 from rfl, hc]
  simp only [after_bind, after_ident, hident, after_leaf, after_atPunct, hadvance, hne .openParen rfl,
    after_ite, after_pure, if_true]
  rw [if_neg Bool.false_ne_true, hc]
  exact chain_of_not_continuesName (hadvance ▸ hnext) (hQ _ (.mk (.refl [])))

/-! ### Operations -/

lemma canBeginExpr_of_showsChain (h : c.ShowsChain chain) : (c.kindAt 0).canBeginExpr = true := by
  rw [h.first]
  rfl

/-- The token is the end of the text, or the first sign of an operator. -/
lemma kindAt_zero_of_showsLinks (h : c.ShowsLinks links) :
    c.kindAt 0 = (links.head?.bind (·.1.signs.head?)).elim .eof .punct := by
  cases links with
  | nil =>
    rw [kindAt, Cursor.peek, h.ahead.eq_nil]
    rfl
  | cons link links =>
    obtain ⟨op, name⟩ := link
    obtain ⟨start, signs, t, ts, hts, hsigns, -⟩ := h.ahead.exists_eq
    have hkinds : c.kinds = op.signs.map .punct ++ t.kind :: ts.map (·.kind) := by
      rw [kinds, hts, List.map_append, hsigns, List.map_cons]
    rw [kindAt_of_kinds, hkinds]
    cases op <;> rfl

lemma not_continuesName_of_showsLinks (h : c.ShowsLinks links) :
    continuesName (c.kindAt 0) = false := by
  rw [kindAt_zero_of_showsLinks h]
  cases links with
  | nil => rfl
  | cons link links =>
    obtain ⟨op, name⟩ := link
    cases op <;> rfl

/-- A tree of the first operators of a chain was read. What is left of the chain comes next, and its
first operator, if there is one, is as told. -/
def Climbs (least : Nat) (chain : OperatorChain) (next : OperatorTree → InfixOperator → Prop) (n : Node)
    (c : Cursor) : Prop :=
  ∃ t rest, t.Begins least chain rest ∧ t.toNode.Same n ∧ c.ShowsLinks rest
    ∧ ∀ link ∈ rest.head?, next t link.1

/-- The operator may have the tree as its left operand. -/
def FitsLeft (t : OperatorTree) (op : InfixOperator) : Prop := t.AtLeast op.strength

/-- The operator is too weak for the rule. -/
def IsWeak (least : Nat) (_ : OperatorTree) (op : InfixOperator) : Prop := op.strength < least

/-- The rules read operators by their strength where fewer than so many tokens are ahead. -/
def Rules.ReadsChains (r : Rules) (bound : Nat) : Prop :=
  ∀ c least chain, c.ShowsChain chain → c.ahead.length < bound →
    (r.operation least).After c fun n c' =>
      Climbs least chain (IsWeak least) n c' ∧ c'.ahead.length ≤ c.ahead.length

/-- The loop takes an operator that is strong enough, with the operand behind it. -/
lemma infixStep_chain (hr : r.ReadsChains bound) (hlt : c.ahead.length ≤ bound)
    (h : Climbs least chain FitsLeft n c) : (infixStep r start least n).After c fun o c' =>
      (∀ m, o = some m → Climbs least chain FitsLeft m c' ∧ Takes c c')
        ∧ (o = none → Climbs least chain (IsWeak least) n c' ∧ c'.ahead.length ≤ c.ahead.length) := by
  obtain ⟨left, rest, hleft, hn, hc, hfits⟩ := h
  simp only [infixStep, after_bind]
  cases rest with
  | nil =>
    have hend : (c.kindAt 0).endsOperand = true := by
      rw [kindAt_zero_of_showsLinks hc]
      rfl
    refine infixOperator?_of_endsOperand hend ⟨fun m hm => ?_, fun _ => ⟨?_, Nat.le_refl _⟩⟩
    · cases hm
    · refine ⟨left, [], hleft, hn, hc, fun link hlink => ?_⟩
      cases hlink
  | cons link rest =>
    obtain ⟨op, name⟩ := link
    obtain ⟨start', signs, t, ts, hts, hsigns, hjoined, hname, hlinks⟩ := hc.ahead.exists_eq
    have hleftOp : left.AtLeast op.strength := hfits _ rfl
    refine infixOperator?_link hts hsigns hjoined hname ?_
    rw [after_ite]
    split
    · next hweak =>
      refine ⟨fun m hm => ?_, fun _ => ⟨⟨left, _, hleft, hn, hc, ?_⟩, Nat.le_refl _⟩⟩
      · cases hm
      · rintro link ⟨⟩
        exact hweak
    · next hstrong =>
      rw [after_bind]
      refine after_bumpAll hts fun c₁ hc₁ hproblems => ?_
      have hchain : c₁.ShowsChain ⟨name, rest⟩ :=
        .of_ahead hc₁ hname hlinks (hproblems.trans hc.problems)
      have htook : c₁.ahead.length < c.ahead.length := by
        have hsome := op.length_signs_pos
        have hlength : signs.length = op.signs.length := by simpa using congrArg List.length hsigns
        rw [hc₁, hts, List.length_append]
        omega
      rw [after_ite, if_neg (by cases op <;> decide)]
      simp only [operandOr, after_bind, after_atExpression, canBeginExpr_of_showsChain hchain, after_ite,
        reduceIte]
      refine (hr c₁ _ _ hchain (Nat.lt_of_lt_of_le htook hlt)).imp ?_
      rintro rhs c₂ ⟨⟨right, rest', hright, hrhs, hc₂, hweak⟩, hle⟩
      have hwhole := hleft.operation hleftOp (Nat.le_of_not_lt hstrong) hright
      refine ⟨fun m hm => ⟨⟨_, rest', hwhole, ?_, hc₂, ?_⟩, Nat.lt_of_le_of_lt hle htook⟩, fun h => ?_⟩
      · obtain rfl := Option.some.inj hm
        exact .mk (.cons (hn.inRole .left) (.one (hrhs.inRole .right)))
      · exact fun link hlink => Nat.le_of_lt_succ (hweak link hlink)
      · cases h

/-- A rule for operators reads those that are strong enough. -/
theorem operation_chain (hr : r.ReadsChains bound) (hc : c.ShowsChain chain)
    (hle : c.ahead.length ≤ bound) : (operation r least).After c fun n c' =>
      Climbs least chain (IsWeak least) n c' ∧ c'.ahead.length ≤ c.ahead.length := by
  have hne : c.kindAt 0 ≠ .eof := by simp [hc.first]
  have hnext : continuesName (c.kindAt 1) = false := by
    rw [← kindAt_advance hne]
    exact not_continuesName_of_showsLinks hc.links
  have htook : c.advance.ahead.length ≤ c.ahead.length := (Reads.one c).le
  simp only [operation, after_bind, after_start]
  refine unary_name hc.first hnext fun m hm => ?_
  have hstart : Climbs least chain FitsLeft m c.advance :=
    ⟨.operand chain.first, chain.links, .operand least chain, hm, hc.links, fun _ _ => trivial⟩
  refine After.imp (after_chain (I := fun n c' => Climbs least chain FitsLeft n c' ∧ c'.ahead.length ≤ bound)
    (J := Climbs least chain (IsWeak least)) ⟨hstart, Nat.le_trans htook hle⟩ ?_) ?_
  · rintro n c' ⟨h, hle'⟩
    refine (infixStep_chain hr hle' h).imp fun o c'' hstep => ⟨fun m hm => ?_, hstep.2⟩
    obtain ⟨hclimbs, htakes⟩ := hstep.1 m hm
    exact ⟨⟨hclimbs, Nat.le_trans (Nat.le_of_lt htakes) hle'⟩, htakes⟩
  · rintro n c' ⟨h, hle'⟩
    exact ⟨h, Nat.le_trans hle' htook⟩

lemma rulesTo_readsChains (depth : Nat) : (rulesTo depth).ReadsChains depth := by
  induction depth with
  | zero => exact fun _ _ _ _ hlt => absurd hlt (Nat.not_lt_zero _)
  | succ depth ih =>
    intro c least chain hc hlt
    simp only [rulesTo, rulesOver, after_bind, after_remaining]
    refine operation_chain (fun c' least' chain' hc' hlt' => ?_) hc (Nat.le_refl _)
    exact After.below hlt' (ih c' least' chain' hc' (Nat.lt_of_lt_of_le hlt' (Nat.le_of_lt_succ hlt)))

/-! ### Whole chains -/

/-- An expression is read to the end of its chain. -/
lemma expression_chain (hc : c.ShowsChain chain) : ∃ t : OperatorTree,
    t.inOrder = chain ∧ t.Binds ∧ Gets (rulesTo (c.ahead.length + 1)).expression c t.toNode [] := by
  have hr : ((rulesTo c.ahead.length).below c.ahead.length).ReadsChains c.ahead.length :=
    fun c' least chain' hc' hlt => After.below hlt (rulesTo_readsChains _ c' least chain' hc' hlt)
  have hread : (operation _ 1).After c _ := operation_chain hr hc (Nat.le_refl _)
  obtain ⟨⟨t, rest, ht, hn, hrest, hweak⟩, -⟩ := hread
  obtain rfl : rest = [] := by
    cases rest with
    | nil => rfl
    | cons link rest => exact absurd (hweak link rfl) (Nat.not_lt_of_le link.1.one_le_strength)
  refine ⟨t, ?_, ht.binds, ?_⟩
  · rw [ht.inOrder, List.append_nil]
  · simp only [rulesTo, rulesOver, Gets, after_bind, after_remaining]
    refine expression_of_operation rfl ⟨hn, ?_, hrest.problems⟩
    rw [kinds, hrest.ahead.eq_nil]
    rfl

end Parser

/-- A chain of names and operators is read without complaint, as the one tree that it means. -/
theorem parseExpression_chain {chain : OperatorChain} (h : ∀ name ∈ chain.names, IsIdentifier name) :
    (parseExpression chain.text).diagnostics = []
      ∧ ∃ t : OperatorTree, t.toNode.Same (parseExpression chain.text).tree
        ∧ ∀ t' : OperatorTree, t'.inOrder = chain ∧ t'.Binds ↔ t' = t := by
  obtain ⟨hlex, hfront⟩ := front_chain h
  obtain ⟨t, hin, hbinds, hread⟩ := Parser.expression_chain hfront
  have hwhole := Parser.wholeExpression_of_gets (by cases t <;> rfl)
    (Parser.canBeginExpr_of_showsChain hfront) hread
  obtain ⟨hdiagnostics, hsame⟩ := ParseOutput.faultless_of_after hlex hwhole
  refine ⟨hdiagnostics, t, hsame, fun t' => ⟨fun h' => ?_, ?_⟩⟩
  · exact OperatorTree.eq_of_inOrder h'.2 hbinds (h'.1.trans hin.symm)
  · rintro rfl
    exact ⟨hin, hbinds⟩

/-- Shifts between a comparison and a sum. -/
theorem parseExpression_chain_shifts :
    let chain : OperatorChain := ⟨"a", [(.lt, "b"), (.ushr, "c"), (.plus, "d"), (.shr, "e")]⟩
    let shifts : OperatorTree := .operation
      (.operation (.operand "b") .ushr (.operation (.operand "c") .plus (.operand "d"))) .shr
      (.operand "e")
    (∀ name ∈ chain.names, IsIdentifier name) ∧ chain.text = "a < b >>> c + d >> e"
      ∧ (parseExpression chain.text).diagnostics = []
      ∧ (OperatorTree.operation (.operand "a") .lt shifts).toNode.Same
          (parseExpression chain.text).tree := by
  intro chain shifts
  have hnames : ∀ name ∈ chain.names, IsIdentifier name := by
    intro name hname
    have hmem : name ∈ ["a", "b", "c", "d", "e"] := hname
    simp only [List.mem_cons, List.not_mem_nil, or_false] at hmem
    rcases hmem with rfl | rfl | rfl | rfl | rfl
    all_goals exact ⟨⟨_, _, rfl, rfl, rfl⟩, List.all_eq_true.mp (by decide), by decide⟩
  have hbinds : (OperatorTree.operation (.operand "a") .lt shifts).Binds := by
    simp [shifts, OperatorTree.Binds, OperatorTree.AtLeast, InfixOperator.strength]
  obtain ⟨hdiagnostics, t, hsame, hiff⟩ := parseExpression_chain hnames
  rw [← (hiff _).mp ⟨rfl, hbinds⟩] at hsame
  exact ⟨hnames, by decide, hdiagnostics, hsame⟩

end Shorthand
