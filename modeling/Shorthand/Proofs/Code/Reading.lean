import Shorthand.Proofs.Code.Text
import Shorthand.Proofs.Header.Written

/-!
Reading the expressions of which fragments are made.

Where the tokens of a name, a literal, a call or a creation come next and an argument or the text ends
behind them (`EndsOperand`), the grammar takes just these tokens, does not complain, and makes the node
of which they are the tokens.

* `expression_of_joined`: behind what is joined to a primary expression no operator follows.
* `chain_further`: further words behind a name make it longer, in expressions as well as in types.
* `arguments_read`: arguments of one token each are read between their parentheses.
* `expression_atom`, `expression_name`, `expression_call`, `expression_callOn` and
  `expression_creation` are the results.
-/

namespace Shorthand

namespace Cursor

/-- Tokens of some kinds are ahead, and nothing was complained about. -/
structure Shows (c : Cursor) (ks : List TokenKind) : Prop where
  kinds : c.kinds = ks
  problems : c.problems = []

namespace Shows

variable {c : Cursor} {k : TokenKind} {ks : List TokenKind}

lemma advance (h : c.Shows (k :: ks)) : c.advance.Shows ks :=
  ⟨kinds_advance h.kinds, by rw [problems_advance, h.problems]⟩

lemma kindAt (h : c.Shows ks) (n : Nat) : c.kindAt n = ks[n]?.getD .eof := by
  rw [kindAt_of_kinds, h.kinds]

lemma length (h : c.Shows ks) : c.ahead.length = ks.length := by
  simpa [Cursor.kinds] using congrArg List.length h.kinds

lemma takes {c' : Cursor} {ks' : List TokenKind} (h : c.Shows ks) (h' : c'.Shows ks')
    (hlt : ks'.length < ks.length) : Takes c c' := by
  rw [Takes, h.length, h'.length]
  exact hlt

end Shows

end Cursor

/-- The token ends an argument or the text. -/
def TokenKind.endsOperand : TokenKind → Bool
  | .punct p => p ∈ [.comma, .closeParen]
  | .eof => true
  | _ => false

lemma TokenKind.eq_of_endsOperand {k : TokenKind} (h : k.endsOperand = true) :
    k = .punct .comma ∨ k = .punct .closeParen ∨ k = .eof := by
  cases k with
  | punct p => simpa [endsOperand] using h
  | eof => exact .inr (.inr rfl)
  | _ => cases h

lemma TokenKind.ne_of_endsOperand {k k' : TokenKind} (h : k.endsOperand = true)
    (h' : k'.endsOperand = false) : k ≠ k' := by
  rintro rfl
  exact Bool.false_ne_true (h'.symm.trans h)

/-- An argument or the text ends before some tokens. -/
def EndsOperand (ks : List TokenKind) : Prop := (ks.head?.getD .eof).endsOperand = true

lemma EndsOperand.head?_ne {k : TokenKind} {ks : List TokenKind} (h : EndsOperand ks)
    (hk : k.endsOperand = false) : ks.head? ≠ some k := by
  intro hhead
  rw [EndsOperand, hhead, Option.getD_some, hk] at h
  cases h

lemma Cursor.Shows.endsOperand {c : Cursor} {ks : List TokenKind} (hc : c.Shows ks)
    (hks : EndsOperand ks) : (c.kindAt 0).endsOperand = true := by
  rw [hc.kindAt, ← List.head?_eq_getElem?]
  exact hks

/-- A token that is an expression alone, and the expression that it is. -/
inductive IsAtom : TokenKind → Node → Prop
  | name (word : String) : IsAtom (.ident word) (.ofWord word)
  | literal {kind : LiteralKind} {text : String}
      (h : Parser.literalKind kind = Node.literalKind text) :
      IsAtom (.literal kind text) (.ofLiteral text)
  | this : IsAtom (.keyword .thisKw) (.detached .thisExpression)

/-- The tokens of arguments of one token each. -/
def argumentKinds (aks : List TokenKind) : List TokenKind :=
  .punct .openParen :: ([.punct .comma].intercalate (aks.map ([·])) ++ [.punct .closeParen])

namespace Parser

open Cursor Node

variable {r : Rules} {c : Cursor} {n : Node} {ks : List TokenKind}

/-- A rule takes all tokens up to some others, does not complain, and reads a node. -/
def Gets (p : Parser Node) (c : Cursor) (n : Node) (ks : List TokenKind) : Prop :=
  p.After c fun m c' => Same n m ∧ c'.Shows ks

/-! ### Operators around an expression -/

/-- Where an operand ends no operator between two operands comes next. -/
lemma infixOperator?_of_endsOperand {Q : Option (Nat × String × Nat) → Cursor → Prop}
    (hc : (c.kindAt 0).endsOperand = true) (hQ : Q none c) : infixOperator?.After c Q := by
  have hsign : (c.peek 0).kind ≠ .punct .gt := TokenKind.ne_of_endsOperand hc rfl
  have hstrength : strength? (c.peek 0).kind = none := by
    rcases TokenKind.eq_of_endsOperand hc with hk | hk | hk
    all_goals
      rw [kindAt] at hk
      rw [hk]
      rfl
  simp only [infixOperator?, after_bind, after_get]
  rw [if_neg hsign, hstrength]
  exact hQ

/-- Where an operand ends no assignment follows. -/
lemma assignmentOperator?_of_endsOperand {Q : Option (String × Nat) → Cursor → Prop}
    (hc : (c.kindAt 0).endsOperand = true) (hQ : Q none c) : assignmentOperator?.After c Q := by
  simp only [assignmentOperator?, after_bind, after_get]
  rw [show (c.peek 0).kind = c.kindAt 0 from rfl]
  rcases TokenKind.eq_of_endsOperand hc with hk | hk | hk
  all_goals
    rw [hk]
    exact hQ

/-- What is read by the rule for operators is a whole expression where an operand ends behind it. -/
lemma expression_of_operation (hks : EndsOperand ks) (h : Gets (operation r 1) c n ks) :
    Gets (expression r) c n ks := by
  have hends {m : Node} {c' : Cursor} (h' : Same n m ∧ c'.Shows ks) :
      (c'.kindAt 0).endsOperand = true := h'.2.endsOperand hks
  have hconditional : Gets (conditional r) c n ks := by
    simp only [conditional, Gets, after_bind, after_start]
    refine h.imp fun m c' h' => ?_
    have hquestion : c'.kindAt 0 ≠ .punct .question := TokenKind.ne_of_endsOperand (hends h') rfl
    rw [after_eat, if_neg hquestion]
    exact h'
  simp only [expression, Gets, after_bind, after_start]
  exact hconditional.imp fun m c' h' => assignmentOperator?_of_endsOperand (hends h') h'

/-- What is joined to a primary expression is a whole expression where an operand ends behind it. -/
lemma expression_of_joined {k : TokenKind} {rest : List TokenKind} (hc : c.Shows (k :: rest))
    (hk : ∀ p, k ≠ .punct p) (harrow : rest.head? ≠ some (.punct .arrow)) (hks : EndsOperand ks)
    (h : Gets (joined r) c n ks) : Gets (expression r) c n ks := by
  have hfirst : c.kindAt 0 = k := hc.kindAt 0
  have hsecond : c.kindAt 1 ≠ .punct .arrow := by
    intro hk'
    rw [hc.kindAt, List.getElem?_cons_succ, ← List.head?_eq_getElem?] at hk'
    cases hhead : rest.head? with
    | none => simp [hhead] at hk'
    | some k => simp_all
  have hunary : Gets (unary r) c n ks := by
    simp only [unary, Gets, after_bind, after_start, after_peek]
    rw [show (c.peek 0).kind = c.kindAt 0 from rfl, hfirst]
    cases k with
    | punct p => exact absurd rfl (hk p)
    | ident word =>
      simp only [after_bind, after_atPunct, after_ite]
      rwa [if_neg (by simpa using hsecond)]
    | _ => exact h
  refine expression_of_operation hks ?_
  simp only [operation, Gets, after_bind, after_start]
  refine hunary.imp fun m c' h' => after_chain_stop ?_
  simp only [infixStep, after_bind]
  exact infixOperator?_of_endsOperand (h'.2.endsOperand hks) ⟨rfl, h'⟩

/-! ### Primary expressions -/

lemma ident_read {word : String} {role : Role} (hc : c.Shows (.ident word :: ks)) :
    Gets (ident role) c ((ofWord word).inRole role) ks := by
  have hk : c.kindAt 0 = .ident word := hc.kindAt 0
  have hident : (c.kindAt 0).identName?.isSome = true := by
    rw [hk]
    rfl
  rw [Gets, after_ident, if_pos hident, after_leaf, hk]
  exact ⟨.mk (.refl []), hc.advance⟩

lemma not_atPunct_openParen (hc : c.Shows ks) (hks : ks.head? ≠ some (.punct .openParen)) :
    (c.kindAt 0 == .punct .openParen) = false := by
  rw [hc.kindAt, ← List.head?_eq_getElem?]
  cases hhead : ks.head? with
  | none => rfl
  | some k => simpa [hhead] using hks

/-- Nothing is joined to an expression where an operand ends. -/
lemma chain_of_endsOperand {start : Nat} {Q : Node → Cursor → Prop}
    (hc : (c.kindAt 0).endsOperand = true) (hQ : Q n c) :
    (chain (postfixStep r start) n).After c Q := by
  refine after_chain_stop ?_
  simp only [postfixStep, after_bind, after_peek]
  rw [show (c.peek 0).kind = c.kindAt 0 from rfl]
  rcases TokenKind.eq_of_endsOperand hc with hk | hk | hk
  all_goals
    rw [hk]
    exact ⟨rfl, hQ⟩

/-- An expression that is a token alone is read where no arguments follow. -/
lemma primary_atom {k : TokenKind} (hk : IsAtom k n) (hc : c.Shows (k :: ks))
    (hks : ks.head? ≠ some (.punct .openParen)) : Gets (primary r) c n ks := by
  have hfirst : c.kindAt 0 = k := hc.kindAt 0
  simp only [primary, Gets, after_bind, after_start, after_peek]
  rw [show (c.peek 0).kind = c.kindAt 0 from rfl, hfirst]
  cases hk with
  | name word =>
    rw [after_bind]
    refine After.imp (ident_read hc) ?_
    rintro m c' ⟨hm, hc'⟩
    simp only [after_bind, after_atPunct, not_atPunct_openParen hc' hks, after_ite, after_pure]
    exact ⟨hm.inRole .unplaced, hc'⟩
  | literal hkind =>
    rw [after_leaf, hfirst, hkind]
    exact ⟨.mk (.refl []), hc.advance⟩
  | this => exact ⟨.mk (.refl []), hc.advance⟩

/-! ### Names -/

/-- A step by which each further word makes a name longer takes the words that come next. What follows
them is left open, because the last word may be that of a method that is called. -/
lemma chain_further {step : Node → Parser (Option Node)} {W : Node → Node}
    {P : List TokenKind → Prop} {Q : Node → Cursor → Prop}
    (hstep : ∀ n₀ n c word rest, n₀.kind.isName = true → Same (W n₀) n →
      c.Shows (.punct .dot :: .ident word :: rest) → P rest →
      (step n).After c fun o c' => ∃ m, o = some m ∧ Same (W (n₀.longer word)) m ∧ c'.Shows rest)
    (hdot : ∀ rest, P (.punct .dot :: rest)) (hks : P ks) {words : List String} {n₀ : Node}
    (hname : n₀.kind.isName = true) (hn : Same (W n₀) n)
    (hc : c.Shows (furtherKinds words ++ ks))
    (hQ : ∀ m c', Same (W (words.foldl longer n₀)) m → c'.Shows ks → (chain step m).After c' Q) :
    (chain step n).After c Q := by
  induction words generalizing n₀ n c with
  | nil => exact hQ n c hn hc
  | cons word words ih =>
    have hnext : P (furtherKinds words ++ ks) := by
      cases words with
      | nil => exact hks
      | cons word words => exact hdot _
    refine after_chain_step ((hstep n₀ n c word _ hname hn hc hnext).imp ?_)
    rintro _ c' ⟨m, rfl, hm, hc'⟩
    refine ⟨m, rfl, hc.takes hc' ?_, ih rfl hm hc' hQ⟩
    show (furtherKinds words ++ ks).length < (furtherKinds words ++ ks).length + 2
    omega

/-- What stands behind a dot in front of a word is a member of what stands before it. -/
lemma after_postfixStep_word {start : Nat} {word : String} {Q : Option Node → Cursor → Prop}
    (hc : c.Shows (.punct .dot :: .ident word :: ks))
    (h : (memberAccess r start n).After c.advance fun m c' => Q (some m) c') :
    (postfixStep r start n).After c Q := by
  have hdot : c.kindAt 0 = .punct .dot := hc.kindAt 0
  have hword : c.advance.kindAt 0 = .ident word := hc.advance.kindAt 0
  simp only [postfixStep, after_bind, after_peek]
  rw [show (c.peek 0).kind = c.kindAt 0 from rfl, hdot]
  simp only [selection, after_bind, after_bump, after_atKeyword, after_eatKeyword, hword, after_ite,
    after_pure]
  exact h

/-- A word behind a dot makes a name longer where no arguments follow. -/
lemma postfixStep_word {start : Nat} {n₀ : Node} {word : String} (hname : n₀.kind.isName = true)
    (hn : Same n₀ n) (hc : c.Shows (.punct .dot :: .ident word :: ks))
    (hks : ks.head? ≠ some (.punct .openParen)) :
    (postfixStep r start n).After c fun o c' =>
      ∃ m, o = some m ∧ Same (n₀.longer word) m ∧ c'.Shows ks := by
  refine after_postfixStep_word hc ?_
  simp only [memberAccess, after_bind]
  refine After.imp (ident_read hc.advance) ?_
  rintro m c' ⟨hm, hc'⟩
  have hisName : (n.kind.isName && !m.isMissing) = true := by
    rw [← hn.kind_eq, hname, isMissing, ← hm.kind_eq]
    rfl
  simp only [after_atPunct, not_atPunct_openParen hc' hks, after_ite, hisName, after_node]
  exact ⟨_, rfl, .mk (.cons (hn.inRole .qualifier) (.one hm)), hc'⟩

/-- A word behind a dot makes the name of a type longer. -/
lemma classTypeStep_word {type : Role → Parser Node} {start : Nat} {n₀ : Node} {word : String}
    (hn : Same ((detached .simpleType).withChildren [n₀.inRole .name]) n)
    (hc : c.Shows (.punct .dot :: .ident word :: ks)) :
    (classTypeStep type start n).After c fun o c' => ∃ m, o = some m
      ∧ Same ((detached .simpleType).withChildren [(n₀.longer word).inRole .name]) m
      ∧ c'.Shows ks := by
  have hdot : c.kindAt 0 = .punct .dot := hc.kindAt 0
  have hword : c.kindAt 1 = .ident word := hc.kindAt 1
  have hkind : n.kind = .simpleType := hn.kind_eq.symm
  have hqualifier : SameAll [n₀.inRole .qualifier]
      ((n.children.take 1).map (·.inRole .qualifier)) :=
    (hn.children.take 1).map fun _ _ h => h.inRole .qualifier
  simp only [classTypeStep, after_bind, after_atPunct, after_atIdent, hdot, hword, after_ite, hkind,
    after_bump]
  rw [if_neg (by decide), if_pos (by rfl)]
  refine After.imp (ident_read hc.advance) ?_
  rintro m c' ⟨hm, hc'⟩
  exact ⟨_, rfl, .mk (.one (.mk (hqualifier.append (.one hm)))), hc'⟩

/-! ### Arguments -/

/-- The rules read an expression of one token where fewer than so many tokens are ahead. -/
def Rules.ReadAtoms (r : Rules) (bound : Nat) : Prop :=
  ∀ c k n ks, IsAtom k n → EndsOperand ks → c.Shows (k :: ks) → c.ahead.length < bound →
    Gets r.expression c n ks

/-- An expression of one token is read. -/
lemma expression_atom {k : TokenKind} (hk : IsAtom k n) (hks : EndsOperand ks)
    (hc : c.Shows (k :: ks)) : Gets (expression r) c n ks := by
  refine expression_of_joined hc ?_ (hks.head?_ne rfl) hks ?_
  · rintro p rfl
    cases hk
  · simp only [joined, Gets, after_bind, after_start]
    refine After.imp (primary_atom hk hc (hks.head?_ne rfl)) fun m c' h => ?_
    exact chain_of_endsOperand (h.2.endsOperand hks) h

lemma rulesTo_readAtoms (depth bound : Nat) : ((rulesTo (depth + 1)).below bound).ReadAtoms bound := by
  intro c k n ks hk hks hc hlt
  refine After.below hlt ?_
  simp only [rulesTo, rulesOver, after_bind, after_remaining]
  exact expression_atom hk hks hc

/-- An argument of one token is read. -/
lemma expressionOr_atom {bound : Nat} {k : TokenKind} {role : Role} {what : String}
    (hr : r.ReadAtoms bound) (hk : IsAtom k n) (hks : EndsOperand ks) (hc : c.Shows (k :: ks))
    (hlt : c.ahead.length < bound) : Gets (expressionOr r role what) c (n.inRole role) ks := by
  have hfirst : (c.kindAt 0).canBeginExpr = true := by
    rw [hc.kindAt]
    cases hk <;> rfl
  simp only [expressionOr, Gets, after_bind, after_atExpression, hfirst, after_ite, reduceIte]
  exact After.imp (hr c k n ks hk hks hc hlt) fun m c' h => ⟨h.1.inRole role, h.2⟩

/-- Arguments are read one after the other, up to the closing parenthesis. -/
lemma round_atoms {bound : Nat} {aks : List TokenKind} {ns xs ys : List Node} (hr : r.ReadAtoms bound)
    (h : List.Forall₂ IsAtom aks ns) (hne : aks ≠ []) (hxs : SameAll ys xs)
    (hc : c.Shows ([.punct .comma].intercalate (aks.map ([·])) ++ .punct .closeParen :: ks))
    (hlt : c.ahead.length < bound) :
    (iterate (sepBy1.round .comma (expressionOr r .argument "argument")) xs).After c fun ms c' =>
      SameAll (ys ++ ns.map (·.inRole .argument)) ms ∧ c'.Shows (.punct .closeParen :: ks) := by
  induction h generalizing xs ys c with
  | nil => exact absurd rfl hne
  | @cons k n aks ns hk htail ih =>
    refine After.iterate ?_
    simp only [sepBy1.round, after_bind]
    cases htail with
    | nil =>
      have hc₁ : c.Shows (k :: .punct .closeParen :: ks) := hc
      have hends : EndsOperand (.punct .closeParen :: ks) := rfl
      refine After.imp (expressionOr_atom hr hk hends hc₁ hlt) ?_
      rintro m c' ⟨hm, hc'⟩
      have hclose : c'.kindAt 0 = .punct .closeParen := hc'.kindAt 0
      rw [after_eat, hclose, if_neg (by decide)]
      exact ⟨hxs.append (.one hm), hc'⟩
    | @cons k' n' aks ns hk' htail =>
      have hc₁ : c.Shows (k :: .punct .comma ::
          ([.punct .comma].intercalate ((k' :: aks).map ([·])) ++ .punct .closeParen :: ks)) := by
        rw [List.map_cons, List.map_cons, List.intercalate_cons_cons] at hc
        exact hc
      have hends (rest : List TokenKind) : EndsOperand (.punct .comma :: rest) := rfl
      refine After.imp (expressionOr_atom hr hk (hends _) hc₁ hlt) ?_
      rintro m c' ⟨hm, hc'⟩
      have hcomma : c'.kindAt 0 = .punct .comma := hc'.kindAt 0
      have htakes : Takes c c'.advance := by
        rw [Takes, hc₁.length, hc'.advance.length, List.length_cons, List.length_cons]
        omega
      rw [after_eat, hcomma, if_pos rfl]
      refine ⟨htakes, ?_⟩
      have hrest := ih (List.cons_ne_nil _ _) (hxs.append (.one hm)) hc'.advance
        (Nat.lt_trans htakes hlt)
      rw [List.append_assoc] at hrest
      exact hrest

lemma intercalate_eq_cons (k : TokenKind) (aks : List TokenKind) :
    ∃ rest, [.punct .comma].intercalate ((k :: aks).map ([·])) = k :: rest := by
  cases aks with
  | nil => exact ⟨[], rfl⟩
  | cons k' aks =>
    rw [List.map_cons, List.map_cons, List.intercalate_cons_cons]
    exact ⟨_, rfl⟩

/-- Arguments of one token each are read between their parentheses. -/
lemma arguments_read {bound : Nat} {aks : List TokenKind} {ns : List Node} (hr : r.ReadAtoms bound)
    (h : List.Forall₂ IsAtom aks ns) (hc : c.Shows (argumentKinds aks ++ ks))
    (hle : (argumentKinds aks ++ ks).length ≤ bound) :
    (arguments r).After c fun ms c' => SameAll (ns.map (·.inRole .argument)) ms ∧ c'.Shows ks := by
  have hopen : c.Shows (.punct .openParen
      :: ([.punct .comma].intercalate (aks.map ([·])) ++ .punct .closeParen :: ks)) := by
    rw [argumentKinds, List.cons_append, List.append_assoc] at hc
    exact hc
  simp only [arguments, after_bind, after_bump]
  cases h with
  | nil =>
    have hclose : c.advance.kindAt 0 = .punct .closeParen := hopen.advance.kindAt 0
    rw [after_eat, hclose, if_pos rfl]
    exact ⟨.refl [], hopen.advance.advance⟩
  | @cons k n aks ns hk htail =>
    have hfirst : c.advance.kindAt 0 ≠ .punct .closeParen := by
      obtain ⟨rest, hrest⟩ := intercalate_eq_cons k aks
      rw [hopen.advance.kindAt, hrest]
      intro hk'
      obtain rfl : k = .punct .closeParen := hk'
      cases hk
    have hlt : c.advance.ahead.length < bound := by
      rw [hopen.advance.length]
      rwa [← hc.length, hopen.length, List.length_cons] at hle
    rw [after_eat, if_neg hfirst, after_ite, if_neg Bool.false_ne_true, after_bind]
    have hread := round_atoms hr (.cons hk htail) (List.cons_ne_nil _ _) (.refl []) hopen.advance hlt
    refine After.imp hread ?_
    rintro ms c' ⟨hms, hc'⟩
    have hclose : c'.kindAt 0 = .punct .closeParen := hc'.kindAt 0
    simp only [after_bind, after_expect, hclose, reduceIte, after_pure]
    exact ⟨hms, hc'.advance⟩

/-! ### Names, calls and creations -/

section

variable {bound : Nat} {first word : String} {words : List String} {aks : List TokenKind}
  {ns : List Node}

/-- Behind the words of a name it is seen what is joined to the name. -/
lemma joined_name {Q : Node → Cursor → Prop}
    (hc : c.Shows (.ident first :: (furtherKinds words ++ ks)))
    (hks : ks.head? ≠ some (.punct .openParen))
    (hQ : ∀ start m c', Same (ofWords first words) m → c'.Shows ks →
      (chain (postfixStep r start) m).After c' Q) : (joined r).After c Q := by
  simp only [joined, after_bind, after_start]
  have hopen : (furtherKinds words ++ ks).head? ≠ some (.punct .openParen) := by
    cases words with
    | nil => exact hks
    | cons word words => simp [furtherKinds]
  refine After.imp (primary_atom (.name first) hc hopen) ?_
  rintro m c' ⟨hm, hc'⟩
  refine chain_further (W := id) (P := fun ks => ks.head? ≠ some (.punct .openParen)) ?_
    (by simp) hks rfl hm hc' (hQ _)
  exact fun n₀ n c word rest hname hn hc hrest => postfixStep_word hname hn hc hrest

lemma expression_name (hc : c.Shows (.ident first :: (furtherKinds words ++ ks)))
    (hks : EndsOperand ks) : Gets (expression r) c (ofWords first words) ks := by
  have harrow : (furtherKinds words ++ ks).head? ≠ some (.punct .arrow) := by
    cases words with
    | nil => exact hks.head?_ne rfl
    | cons word words => simp [furtherKinds]
  refine expression_of_joined hc (by simp) harrow hks (joined_name hc (hks.head?_ne rfl) ?_)
  exact fun start m c' hm hc' => chain_of_endsOperand (hc'.endsOperand hks) ⟨hm, hc'⟩

/-- A call of a method without a receiver is read. -/
lemma expression_call (hr : r.ReadAtoms bound) (h : List.Forall₂ IsAtom aks ns)
    (hc : c.Shows (.ident word :: (argumentKinds aks ++ ks)))
    (hle : (argumentKinds aks ++ ks).length ≤ bound) (hks : EndsOperand ks) :
    Gets (expression r) c (ofCall none word ns) ks := by
  refine expression_of_joined hc (by simp) (by simp [argumentKinds]) hks ?_
  have hword : c.kindAt 0 = .ident word := hc.kindAt 0
  simp only [joined, Gets, primary, after_bind, after_start, after_peek]
  rw [show (c.peek 0).kind = c.kindAt 0 from rfl, hword]
  simp only [after_bind]
  refine After.imp (ident_read hc) ?_
  rintro name c₁ ⟨hname, hc₁⟩
  have hopen : c₁.kindAt 0 = .punct .openParen := hc₁.kindAt 0
  rw [after_atPunct, hopen, beq_self_eq_true, if_pos rfl, after_bind]
  refine After.imp (arguments_read hr h hc₁ hle) ?_
  rintro ms c₂ ⟨hms, hc₂⟩
  rw [after_node]
  exact chain_of_endsOperand (hc₂.endsOperand hks) ⟨.mk (.cons hname hms), hc₂⟩

/-- A call of a method that is reached through a name is read. -/
lemma expression_callOn (hr : r.ReadAtoms bound) (h : List.Forall₂ IsAtom aks ns)
    (hc : c.Shows (.ident first :: (furtherKinds words
      ++ .punct .dot :: .ident word :: (argumentKinds aks ++ ks))))
    (hle : (argumentKinds aks ++ ks).length ≤ bound) (hks : EndsOperand ks) :
    Gets (expression r) c (ofCall (some (ofWords first words)) word ns) ks := by
  have harrow (rest : List TokenKind) :
      (furtherKinds words ++ .punct .dot :: rest).head? ≠ some (.punct .arrow) := by
    cases words <;> simp [furtherKinds]
  refine expression_of_joined hc (by simp) (harrow _) hks (joined_name hc (by simp) ?_)
  intro start m c' hm hc'
  refine after_chain_step (after_postfixStep_word hc' ?_)
  simp only [memberAccess, after_bind]
  refine After.imp (ident_read hc'.advance) ?_
  rintro name c₁ ⟨hname, hc₁⟩
  have hopen : c₁.kindAt 0 = .punct .openParen := hc₁.kindAt 0
  rw [after_atPunct, hopen, beq_self_eq_true, if_pos rfl, after_bind]
  refine After.imp (arguments_read hr h hc₁ hle) ?_
  rintro ms c₂ ⟨hms, hc₂⟩
  have htakes : Takes c' c₂ := by
    refine hc'.takes hc₂ ?_
    rw [List.length_cons, List.length_cons, List.length_append]
    omega
  refine ⟨_, rfl, htakes, ?_⟩
  refine chain_of_endsOperand (hc₂.endsOperand hks) ⟨.mk (.cons ?_ (.cons hname hms)), hc₂⟩
  exact hm.inRole .receiver

/-- The name of the type of what is created is read up to the arguments. -/
lemma createdType_read (hc : c.Shows (.ident first :: (furtherKinds words ++ ks)))
    (hks : ks.head? = some (.punct .openParen)) :
    Gets createdType c
      ((detached .simpleType).withChildren [(ofWords first words).inRole .name]) ks := by
  have hfirst : c.kindAt 0 = .ident first := hc.kindAt 0
  simp only [createdType, elementType, Gets, after_bind, after_remaining, after_atPrimitiveType, hfirst,
    after_ite, after_start]
  rw [if_neg (show ¬ isPrimitive (.ident first) = true from Bool.false_ne_true)]
  refine After.imp (ident_read hc) ?_
  rintro m c₁ ⟨hm, hc₁⟩
  rw [after_node]
  refine chain_further (P := fun _ => True)
    (W := fun n => (detached .simpleType).withChildren [n.inRole .name])
    (fun n₀ n c word rest _ hn hc _ => classTypeStep_word hn hc) (fun _ => trivial) trivial rfl
    (.mk (.one hm)) hc₁ fun m c' hm hc' => ?_
  have hopen : c'.kindAt 0 = .punct .openParen := by
    rw [hc'.kindAt, ← List.head?_eq_getElem?, hks]
    rfl
  refine after_chain_stop ?_
  simp only [classTypeStep, after_bind, after_atPunct, after_atIdent, hopen, after_ite, after_pure]
  exact ⟨trivial, hm, hc'⟩

/-- The creation of an object is read. -/
lemma expression_creation (hr : r.ReadAtoms bound) (h : List.Forall₂ IsAtom aks ns)
    (hc : c.Shows (.keyword .newKw :: .ident first :: (furtherKinds words
      ++ (argumentKinds aks ++ ks))))
    (hle : (argumentKinds aks ++ ks).length ≤ bound) (hks : EndsOperand ks) :
    Gets (expression r) c (ofCreation (ofWords first words) ns) ks := by
  refine expression_of_joined hc (by simp) (by simp) hks ?_
  have hnew : c.kindAt 0 = .keyword .newKw := hc.kindAt 0
  have hfirst : c.advance.kindAt 0 = .ident first := hc.advance.kindAt 0
  simp only [joined, Gets, primary, after_bind, after_start, after_peek]
  rw [show (c.peek 0).kind = c.kindAt 0 from rfl, hnew]
  simp only [creation, creationType, after_bind, after_bump, after_atType, hfirst, after_ite]
  rw [if_pos (show startsType (.ident first) = true from rfl)]
  refine After.imp (createdType_read hc.advance rfl) ?_
  rintro ty c₁ ⟨hty, hc₁⟩
  have hopen : c₁.kindAt 0 = .punct .openParen := hc₁.kindAt 0
  rw [after_pure, after_atPunct, hopen, if_neg (by decide)]
  simp only [objectCreation, creationArguments, after_bind, after_atPunct, hopen, beq_self_eq_true,
    after_ite, reduceIte]
  refine After.imp (arguments_read hr h hc₁ hle) ?_
  rintro ms c₂ ⟨hms, hc₂⟩
  have hbody : (c₂.kindAt 0 == .punct .openBrace) = false :=
    beq_false_of_ne (TokenKind.ne_of_endsOperand (hc₂.endsOperand hks) rfl)
  simp only [anonymousBody, after_bind, after_atPunct, hbody, after_ite, after_pure, after_node]
  rw [if_neg Bool.false_ne_true]
  refine chain_of_endsOperand (hc₂.endsOperand hks) ⟨.mk ?_, hc₂⟩
  rw [List.append_nil]
  exact .cons (hty.inRole .type) hms

end

end Parser

end Shorthand
