import Shorthand.Candidate.Overload
import Shorthand.Proofs.Code.Reading

/-!
The tokens of the expressions that fragments are.

`Node.Spells n k ks` says of an expression that its text is read as the token `k` and then those of the
kinds `ks`, and that the grammar makes the expression of these. The text is then read as this
expression, without complaint (`Node.Spells.parseExpression`).

* `Node.IsOneToken` is an expression of one token, as arguments are.
* `spells_ofWords`, `exists_spells_ofCall`, `exists_spells_ofCall_some` and `exists_spells_ofCreation`
  put an expression together from words and arguments.
-/

namespace Shorthand

/-- The text ends, or an argument ends before it. -/
def EndsText (rest : List Char) : Prop := ∀ c, rest.head? = some c → c = ',' ∨ c = ')'

variable {rest : List Char}

lemma EndsText.stops (h : EndsText rest) : Lexeme.Stops isIdentContinue rest := by
  intro c hc
  rcases h c hc with rfl | rfl <;> rfl

/-! ### Expressions of one token -/

/-- The text of the expression is read as one token that is the expression alone. -/
def Node.IsOneToken (n : Node) : Prop := ∃ k, IsAtom k n ∧ ReadAs EndsText n.render.toList [k]

lemma isOneToken_ofWord {word : String} (h : IsIdentifier word) : (Node.ofWord word).IsOneToken :=
  ⟨_, .name word, h.readAs.imp fun _ => EndsText.stops⟩

lemma isOneToken_literal (kind : LiteralKind) {text : String}
    (hkind : Parser.literalKind kind = Node.literalKind text)
    (h : ReadAs EndsText text.toList [.literal kind text]) : (Node.ofLiteral text).IsOneToken := by
  refine ⟨_, .literal hkind, ?_⟩
  rw [Node.render_ofLiteral]
  exact h

/-- The words for literals are read as such. -/
lemma isOneToken_literalWord (l : LiteralWord) : (Node.ofLiteral l.text).IsOneToken := by
  have hword : ReadAs (Lexeme.Stops isIdentContinue) l.text.toList [Lexeme.wordKind l.text] := by
    cases l
    all_goals exact readAs_word ⟨_, _, rfl, rfl, rfl⟩ (List.all_eq_true.mp (by decide))
  have hread := hword.imp fun _ => EndsText.stops
  cases l with
  | yes => exact isOneToken_literal .boolean rfl hread
  | no => exact isOneToken_literal .boolean rfl hread
  | null => exact isOneToken_literal .null rfl hread

lemma isOneToken_this : (Node.detached .thisExpression).IsOneToken := by
  have hword : ReadAs (Lexeme.Stops isIdentContinue) "this".toList [.keyword .thisKw] :=
    readAs_word ⟨_, _, rfl, rfl, rfl⟩ (List.all_eq_true.mp (by decide))
  exact ⟨_, .this, hword.imp fun _ => EndsText.stops⟩

/-- The literals that stand in for numbers. -/
def defaultNumbers : List (LiteralKind × String) :=
  [(.int, "0"), (.long, "0L"), (.float, "0.0f"), (.double, "0.0d")]

lemma isOneToken_number (kind : LiteralKind) {text : String} (h : (kind, text) ∈ defaultNumbers) :
    (Node.ofLiteral text).IsOneToken := by
  simp only [defaultNumbers, List.mem_cons, Prod.mk.injEq, List.not_mem_nil, or_false] at h
  have hkind : Parser.literalKind kind = Node.literalKind text := by
    rcases h with ⟨rfl, rfl⟩ | ⟨rfl, rfl⟩ | ⟨rfl, rfl⟩ | ⟨rfl, rfl⟩ <;> rfl
  refine isOneToken_literal kind hkind ?_
  rcases h with ⟨rfl, rfl⟩ | ⟨rfl, rfl⟩ | ⟨rfl, rfl⟩ | ⟨rfl, rfl⟩
  all_goals
    refine .piece rfl rfl fun rest hrest => ?_
    cases rest with
    | nil => rfl
    | cons c rest => rcases hrest c rfl with rfl | rfl <;> rfl

/-- The literal for a value of any type is read as such. -/
lemma isOneToken_defaultLiteral (t : Ty) : (Node.ofLiteral (defaultLiteral t)).IsOneToken := by
  cases t with
  | primitive p =>
    cases p with
    | boolean => exact isOneToken_literalWord .no
    | byte | short | char | int => exact isOneToken_number .int (by decide)
    | long => exact isOneToken_number .long (by decide)
    | float => exact isOneToken_number .float (by decide)
    | double => exact isOneToken_number .double (by decide)
  | _ => exact isOneToken_literalWord .null

/-! ### Arguments -/

/-- Arguments of one token each are read between their parentheses. -/
lemma exists_argumentKinds {P : List Char → Prop} {ns : List Node} (h : ∀ n ∈ ns, n.IsOneToken) :
    ∃ aks, List.Forall₂ IsAtom aks ns
      ∧ ReadAs P (argumentText (ns.map Node.render)).toList (argumentKinds aks) := by
  obtain ⟨aks, hatoms, htexts⟩ : ∃ aks, List.Forall₂ IsAtom aks ns
      ∧ List.Forall₂ (ReadAs EndsText) (ns.map fun n => n.render.toList) (aks.map ([·])) := by
    induction ns with
    | nil => exact ⟨[], .nil, .nil⟩
    | cons n ns ih =>
      obtain ⟨k, hk, htext⟩ := h n List.mem_cons_self
      obtain ⟨aks, hatoms, htexts⟩ := ih fun m hm => h m (List.mem_cons_of_mem _ hm)
      exact ⟨k :: aks, .cons hk hatoms, .cons htext htexts⟩
  refine ⟨aks, hatoms, ?_⟩
  have hsign : ReadAs (fun _ => True) [','] [.punct .comma] := .separator (by decide)
  have hcomma : ReadAs (fun _ => True) [',', ' '] [.punct .comma] :=
    hsign.append (.space .nil) fun _ _ => trivial
  have hends (rest : List Char) : EndsText ([',', ' '] ++ rest) := by
    rintro c ⟨⟩
    exact .inl rfl
  have hclose : ReadAs P [')'] [.punct .closeParen] := .separator (by decide)
  have hopen : ReadAs (fun _ => True) ['('] [.punct .openParen] := .separator (by decide)
  have hinner := (ReadAs.intercalate hcomma hends htexts).append hclose fun rest _ => by
    rintro c ⟨⟩
    exact .inr rfl
  have htext : (argumentText (ns.map Node.render)).toList
      = ['('] ++ ([',', ' '].intercalate (ns.map fun n => n.render.toList) ++ [')']) := by
    simp [argumentText, Function.comp_def]
  rw [htext]
  exact hopen.append hinner fun _ _ => trivial

/-! ### Whole expressions -/

/-- The text of an expression is read as a token and some others, and the grammar makes the expression
of them. -/
structure Node.Spells (n : Node) (k : TokenKind) (ks : List TokenKind) : Prop where
  role : n.role = .unplaced
  begins : k.canBeginExpr = true
  text : ReadAs EndsText n.render.toList (k :: ks)
  reads : ∀ r bound c, Parser.Rules.ReadAtoms r bound → ks.length ≤ bound → c.Shows (k :: ks) →
    Parser.Gets (Parser.expression r) c n []

lemma endsText_nil : EndsText [] := nofun

/-- A text that is read without complaint, as tokens and as a tree. -/
lemma ParseOutput.faultless_of_after {rule : Parser.Rules → Parser Node} {source : String}
    {Q : Node → Prop} (hlex : (lex source).diagnostics = [])
    (h : (rule (Parser.rulesTo ((Cursor.front source).ahead.length + 1))).After
      (Cursor.front source) fun n c' => Q n ∧ c'.problems = []) :
    (ParseOutput.ofSource rule source).diagnostics = []
      ∧ Q (ParseOutput.ofSource rule source).tree := by
  obtain ⟨hn, hproblems⟩ := h
  refine ⟨?_, hn⟩
  change (lex source).diagnostics
    ++ ((rule (Parser.rulesTo ((Cursor.front source).ahead.length + 1))).run
      (Cursor.front source)).2.problems.reverse = []
  rw [hlex, hproblems]
  rfl

/-- A text that is taken apart into faultless pieces. -/
lemma Taken.front {source : String} {ps : List (Nat × Lexeme)} (h : Taken [] 0 source.toList ps)
    (hfine : ∀ p ∈ ps, p.2.problem = none) :
    (lex source).diagnostics = [] ∧ (Cursor.front source).ahead = solid ps := by
  have hpieces : lexemesFrom 0 0 source.toList = ps := by
    have hall := h.lexemesFrom_eq
    rw [List.append_nil] at hall
    rw [hall]
    exact List.append_nil ps
  refine ⟨?_, ?_⟩
  · rw [lex, List.filterMap_eq_nil_iff, hpieces]
    exact fun p hp => congrArg (Option.map _) (hfine p hp)
  · rw [Cursor.front, ahead_ofTokens, hpieces]

/-- A text is read as faultless tokens. -/
lemma ReadAs.front {P : List Char → Prop} {source : String} {ks : List TokenKind}
    (h : ReadAs P source.toList ks) (hP : P []) :
    (lex source).diagnostics = [] ∧ (Cursor.front source).Shows ks := by
  obtain ⟨ps, hps, hkinds, hfine⟩ := h [] hP 0
  obtain ⟨hlex, hahead⟩ := hps.front fun p hp => (hfine p hp).1
  refine ⟨hlex, ?_, rfl⟩
  rw [Cursor.kinds, hahead, solid_kinds fun p hp => (hfine p hp).2, hkinds]

/-- An expression behind which the text ends is read as a whole text. -/
lemma Parser.wholeExpression_of_gets {r : Rules} {n : Node} {c : Cursor} (hrole : n.role = .unplaced)
    (hbegins : (c.kindAt 0).canBeginExpr = true) (h : Gets r.expression c n []) :
    (wholeExpression r).After c fun m c' => n.Same m ∧ c'.problems = [] := by
  simp only [wholeExpression, expressionOr, after_bind, after_atExpression, hbegins, after_ite,
    reduceIte]
  refine After.imp h ?_
  rintro m c' ⟨hm, hc'⟩
  have hend : (c'.kindAt 0 == .eof) = true := by
    rw [hc'.kindAt]
    rfl
  have hplaced : n = n.inRole .unplaced := by
    rw [← hrole]
    cases n
    rfl
  simp only [after_pure, after_atEnd, hend]
  rw [hplaced]
  exact ⟨hm.inRole .unplaced, hc'.problems⟩

/-- An expression whose arguments are of one token each is read as a whole text. -/
lemma Parser.wholeExpression_of_expression {n : Node} {k : TokenKind} {ks : List TokenKind}
    {c : Cursor} (hrole : n.role = .unplaced) (hk : k.canBeginExpr = true) (hc : c.Shows (k :: ks))
    (h : ∀ r, r.ReadAtoms c.ahead.length → Gets (expression r) c n []) :
    (wholeExpression (rulesTo (c.ahead.length + 1))).After c fun m c' =>
      n.Same m ∧ c'.problems = [] := by
  have hbegins : (c.kindAt 0).canBeginExpr = true := by
    rw [hc.kindAt]
    exact hk
  have hatoms : ((rulesTo c.ahead.length).below c.ahead.length).ReadAtoms c.ahead.length := by
    rw [hc.length]
    exact rulesTo_readAtoms ks.length _
  refine wholeExpression_of_gets hrole hbegins ?_
  simp only [rulesTo, rulesOver, Gets, after_bind, after_remaining]
  exact h _ hatoms

/-- The text of an expression that is spelled by tokens is read as the expression. -/
theorem Node.Spells.parseExpression {n : Node} {k : TokenKind} {ks : List TokenKind}
    (h : n.Spells k ks) :
    (parseExpression n.render).diagnostics = [] ∧ n.Same (parseExpression n.render).tree := by
  obtain ⟨hlex, hfront⟩ := h.text.front endsText_nil
  have hread : (Parser.wholeExpression
      (Parser.rulesTo ((Cursor.front n.render).ahead.length + 1))).After (Cursor.front n.render)
        fun m c' => n.Same m ∧ c'.problems = [] := by
    refine Parser.wholeExpression_of_expression h.role h.begins hfront fun r hr => ?_
    refine h.reads r _ _ hr ?_ hfront
    rw [hfront.length]
    exact Nat.le_succ _
  exact ParseOutput.faultless_of_after hlex hread

/-! ### Names and calls -/

/-- An expression of one token is spelled by it. -/
lemma Node.IsOneToken.exists_spells {n : Node} (h : n.IsOneToken) : ∃ k ks, n.Spells k ks := by
  obtain ⟨k, hk, htext⟩ := h
  refine ⟨k, [], ?_, ?_, htext, fun r bound c _ _ hc => Parser.expression_atom hk rfl hc⟩
  · cases hk <;> rfl
  · cases hk <;> rfl

lemma role_foldl_longer {n : Node} (hn : n.role = .unplaced) (words : List String) :
    (words.foldl Node.longer n).role = .unplaced := by
  induction words generalizing n with
  | nil => exact hn
  | cons word words ih => exact ih rfl

/-- What is called does not go on in front of the arguments. -/
lemma stops_argumentText (args : List String) (rest : List Char) :
    Lexeme.Stops isIdentContinue ((argumentText args).toList ++ rest) := by
  intro c hc
  have hopen : (argumentText args).toList = '(' :: ((", ".intercalate args).toList ++ [')']) := by
    simp [argumentText]
  rw [hopen] at hc
  obtain rfl := Option.some.inj hc
  rfl

section

variable {first word : String} {words : List String} {ns : List Node}

lemma readAs_ofWords (hwords : ∀ word ∈ first :: words, IsIdentifier word) :
    ReadAs (Lexeme.Stops isIdentContinue) (Node.ofWords first words).render.toList
      (.ident first :: furtherKinds words) := by
  rw [Node.toList_render_ofWords]
  exact readAs_name hwords

lemma spells_ofWords (hwords : ∀ word ∈ first :: words, IsIdentifier word) :
    (Node.ofWords first words).Spells (.ident first) (furtherKinds words) where
  role := role_foldl_longer rfl words
  begins := rfl
  text := (readAs_ofWords hwords).imp fun _ => EndsText.stops
  reads r bound c _ _ hc := by
    rw [← List.append_nil (furtherKinds words)] at hc
    exact Parser.expression_name hc rfl

lemma exists_spells_ofCall (hword : IsIdentifier word) (h : ∀ n ∈ ns, n.IsOneToken) :
    ∃ k ks, (Node.ofCall none word ns).Spells k ks := by
  obtain ⟨aks, hatoms, htext⟩ := exists_argumentKinds (P := EndsText) h
  refine ⟨.ident word, argumentKinds aks, rfl, rfl, ?_, fun r bound c hr hle hc => ?_⟩
  · rw [Node.render_ofCall, String.toList_append]
    exact hword.readAs.append htext fun rest _ => stops_argumentText _ _
  · rw [← List.append_nil (argumentKinds aks)] at hc hle
    exact Parser.expression_call hr hatoms hc hle rfl

lemma exists_spells_ofCall_some (hwords : ∀ word ∈ first :: words, IsIdentifier word)
    (hword : IsIdentifier word) (h : ∀ n ∈ ns, n.IsOneToken) :
    ∃ k ks, (Node.ofCall (some (Node.ofWords first words)) word ns).Spells k ks := by
  obtain ⟨aks, hatoms, htext⟩ := exists_argumentKinds (P := EndsText) h
  refine ⟨.ident first, furtherKinds words ++ .punct .dot :: .ident word :: argumentKinds aks, rfl,
    rfl, ?_, fun r bound c hr hle hc => ?_⟩
  · have hmember := readAs_further (List.forall_mem_singleton.mpr hword)
    have hcallee := (readAs_ofWords hwords).append hmember fun rest => stops_further [word]
    have hall := hcallee.append htext fun rest _ => stops_argumentText _ _
    have hchars : (Node.ofWords first words).render.toList ++ furtherText [word]
        ++ (argumentText (ns.map Node.render)).toList
        = ((Node.ofWords first words).render ++ "." ++ word
          ++ argumentText (ns.map Node.render)).toList := by
      simp [furtherText]
    rw [Node.render_ofCall_some, ← hchars]
    simpa [furtherKinds] using hall
  · rw [← List.append_nil (argumentKinds aks)] at hc
    refine Parser.expression_callOn hr hatoms (by simpa using hc) ?_ rfl
    rw [List.length_append, List.length_cons, List.length_cons] at hle
    rw [List.append_nil]
    omega

lemma exists_spells_ofCreation (hwords : ∀ word ∈ first :: words, IsIdentifier word)
    (h : ∀ n ∈ ns, n.IsOneToken) :
    ∃ k ks, (Node.ofCreation (Node.ofWords first words) ns).Spells k ks := by
  obtain ⟨aks, hatoms, htext⟩ := exists_argumentKinds (P := EndsText) h
  refine ⟨.keyword .newKw, .ident first :: (furtherKinds words ++ argumentKinds aks), rfl, rfl, ?_,
    fun r bound c hr hle hc => ?_⟩
  · have hnew : ReadAs (Lexeme.Stops isIdentContinue) "new".toList [.keyword .newKw] :=
      readAs_word ⟨_, _, rfl, rfl, rfl⟩ (List.all_eq_true.mp (by decide))
    have hcreated := (readAs_ofWords hwords).space.append htext fun rest _ => stops_argumentText _ _
    have hchars : "new".toList ++ (' ' :: (Node.ofWords first words).render.toList
        ++ (argumentText (ns.map Node.render)).toList)
        = ("new " ++ (Node.ofWords first words).render
          ++ argumentText (ns.map Node.render)).toList := by
      simp
    rw [Node.render_ofCreation, ← hchars]
    refine hnew.append hcreated fun rest _ => ?_
    rintro c ⟨⟩
    rfl
  · rw [← List.append_nil (argumentKinds aks)] at hc
    refine Parser.expression_creation hr hatoms hc ?_ rfl
    rw [List.length_cons, List.length_append] at hle
    rw [List.append_nil]
    omega

end

end Shorthand
