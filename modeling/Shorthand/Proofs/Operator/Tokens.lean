import Shorthand.Proofs.Code.Tokens
import Shorthand.Proofs.Operator.Tree

/-!
The tokens of operators and names.

The shift operators to the right have no token of their own: they are read as `>` signs, and that no gap
is between these is all that tells them from other operators. `LinkTokens` keeps this of the tokens of a
chain.

* `Taken.joined`: where there is no white space, each token starts where the one before it ends.
* `readAs_operator`: an operator is read as its signs in front of a space.
* `front_chain` is the cursor at the front of a chain.
-/

namespace Shorthand

open Text (bytes isBlank)

/-! ### Signs -/

/-- The signs as which an operator is read. -/
def InfixOperator.signs : InfixOperator → List Punct
  | orOr => [.orOr] | andAnd => [.andAnd] | pipe => [.pipe] | caret => [.caret] | amp => [.amp]
  | eqEq => [.eqEq] | ne => [.ne] | lt => [.lt] | gt => [.gt] | le => [.le] | ge => [.ge]
  | shl => [.shl] | shr => [.gt, .gt] | ushr => [.gt, .gt, .gt] | plus => [.plus] | minus => [.minus]
  | star => [.star] | slash => [.slash] | percent => [.percent]

lemma InfixOperator.length_signs_pos (op : InfixOperator) : 0 < op.signs.length := by
  cases op <;> decide

/-- The tokens stand without a gap between them, from an offset on. -/
def Joined : (start : Nat) → List Token → Prop
  | _, [] => True
  | start, t :: ts => t.span.start = start ∧ Joined t.span.stop ts

/-- The tokens of operators and of the names behind them. -/
inductive LinkTokens : List OperatorLink → List Token → Prop
  | nil : LinkTokens [] []
  | cons {op : InfixOperator} {name : String} {links : List OperatorLink} {signs ts : List Token}
      {t : Token} {start : Nat} (hsigns : signs.map (·.kind) = op.signs.map .punct)
      (hjoined : Joined start signs) (hname : t.kind = .ident name) (h : LinkTokens links ts) :
      LinkTokens ((op, name) :: links) (signs ++ t :: ts)

lemma LinkTokens.eq_nil {ts : List Token} (h : LinkTokens [] ts) : ts = [] := by
  cases h
  rfl

lemma LinkTokens.exists_eq {op : InfixOperator} {name : String} {links : List OperatorLink}
    {ts : List Token} (h : LinkTokens ((op, name) :: links) ts) : ∃ start signs t rest,
      ts = signs ++ t :: rest ∧ signs.map (·.kind) = op.signs.map .punct ∧ Joined start signs
        ∧ t.kind = .ident name ∧ LinkTokens links rest := by
  cases h with
  | cons hsigns hjoined hname h => exact ⟨_, _, _, _, rfl, hsigns, hjoined, hname, h⟩

variable {rest read : List Char} {pos : Nat} {ps : List (Nat × Lexeme)} {links : List OperatorLink}
  {chain : OperatorChain}

/-- Where there is no white space, each token starts where the one before it ends. -/
lemma Taken.joined (h : Taken rest pos read ps) (hread : ∀ c ∈ read, Text.isBlank c = false) :
    Joined pos (ps.map fun p => p.2.token p.1) := by
  induction h with
  | done => trivial
  | blank hc h ih =>
    have hblank := hread _ List.mem_cons_self
    rw [hc] at hblank
    cases hblank
  | @piece pos c text read ps hc htext h ih =>
    have hrest := ih fun d hd => hread d (List.mem_append_right _ hd)
    rw [← htext] at hrest
    exact ⟨rfl, hrest⟩

/-- An operator is read as its signs in front of a space. -/
lemma readAs_operator (op : InfixOperator) :
    ReadAs (fun rest => ∃ cs, rest = ' ' :: cs) op.spelling.toList (op.signs.map .punct) := by
  have hone {c : Char} {text : List Char} {p : Punct} (hc : isBlank c = false)
      (hscan : ∀ cs, Lexeme.scan c (text ++ ' ' :: cs) = ⟨.punct p, c :: text, none⟩) :
      ReadAs (fun rest => ∃ cs, rest = ' ' :: cs) (c :: text) [.punct p] := by
    refine .piece hc rfl ?_
    rintro _ ⟨cs, rfl⟩
    exact hscan cs
  have hsign : ReadAs (fun rest => ∃ cs, rest = '>' :: cs) ['>'] [.punct .gt] := by
    refine .piece rfl rfl ?_
    rintro _ ⟨cs, rfl⟩
    rfl
  have hgt : ReadAs (fun rest => ∃ cs, rest = ' ' :: cs) ['>'] [.punct .gt] := hone rfl fun _ => rfl
  have hshr := hsign.append hgt fun _ _ => ⟨_, rfl⟩
  cases op with
  | shr => exact hshr
  | ushr => exact hsign.append hshr fun _ _ => ⟨_, rfl⟩
  | _ => exact hone rfl fun _ => rfl

lemma not_isBlank_of_mem_spelling (op : InfixOperator) : ∀ c ∈ op.spelling.toList, isBlank c = false := by
  have hall : (op.spelling.toList.all fun c => !isBlank c) = true := by cases op <;> rfl
  simpa using hall

/-! ### Chains -/

/-- The text of operators and of the names behind them. -/
def linkText (links : List OperatorLink) : List Char :=
  links.flatMap fun (op, name) => ' ' :: op.spelling.toList ++ ' ' :: name.toList

lemma intercalate_links (first : String) (links : List OperatorLink) :
    [' '].intercalate ((first :: links.flatMap fun (op, name) => [op.spelling, name]).map String.toList)
      = first.toList ++ linkText links := by
  induction links generalizing first with
  | nil => simp [linkText]
  | cons link links ih =>
    obtain ⟨op, name⟩ := link
    have hrest := ih name
    rw [List.map_cons] at hrest
    simp only [List.flatMap_cons, List.cons_append, List.nil_append, List.map_cons, linkText,
      List.intercalate_cons_cons, hrest]
    simp

lemma OperatorChain.toList_text (chain : OperatorChain) :
    chain.text.toList = chain.first.toList ++ linkText chain.links := by
  rw [← intercalate_links, text, words]
  simp

lemma stops_linkText (links : List OperatorLink) (hrest : Lexeme.Stops isIdentContinue rest) :
    Lexeme.Stops isIdentContinue (linkText links ++ rest) := by
  cases links with
  | nil => exact hrest
  | cons link links =>
    rintro c ⟨⟩
    rfl

/-- A name is taken off a text as one piece where it does not go on. -/
lemma IsIdentifier.taken {name : String} (h : IsIdentifier name)
    (hrest : Lexeme.Stops isIdentContinue rest) (pos : Nat) :
    ∃ p t, Taken rest pos name.toList [p] ∧ p.2.problem = none ∧ solid [p] = [t]
      ∧ t.kind = .ident name := by
  obtain ⟨ps, hps, hkinds, hfine⟩ := h.readAs rest hrest pos
  obtain ⟨p, rfl, hkind⟩ := List.map_eq_singleton_iff.mp hkinds
  have hsolid := solid_eq_map fun q hq => (hfine q hq).2
  exact ⟨p, p.2.token p.1, hps, (hfine p List.mem_cons_self).1, hsolid, hkind⟩

/-- Operators and the names behind them are read as their tokens. -/
lemma exists_linkTokens (h : ∀ link ∈ links, IsIdentifier link.2)
    (hrest : Lexeme.Stops isIdentContinue rest) (pos : Nat) :
    ∃ ps, Taken rest pos (linkText links) ps ∧ LinkTokens links (solid ps)
      ∧ ∀ p ∈ ps, p.2.problem = none := by
  induction links generalizing pos with
  | nil => exact ⟨[], .done, .nil, nofun⟩
  | cons link links ih =>
    obtain ⟨op, name⟩ := link
    obtain ⟨hname, hlinks⟩ := List.forall_mem_cons.mp h
    obtain ⟨qs, hqs, hkinds, hfine⟩ :=
      readAs_operator op (' ' :: (name.toList ++ linkText links) ++ rest) ⟨_, rfl⟩ (pos + ' '.utf8Size)
    obtain ⟨p, t, hp, hproblem, hsolid, ht⟩ := hname.taken (stops_linkText links hrest)
      (pos + ' '.utf8Size + bytes op.spelling.toList + ' '.utf8Size)
    obtain ⟨ps, hps, htokens, hfine'⟩ := ih hlinks _
    have hjoined := hqs.joined (not_isBlank_of_mem_spelling op)
    have hqsolid := solid_eq_map fun q hq => (hfine q hq).2
    have htaken := Taken.blank rfl (hqs.append (.blank rfl (hp.append hps)))
    refine ⟨qs ++ ([p] ++ ps), by simpa [linkText] using htaken, ?_, ?_⟩
    · rw [solid_append, solid_append, hsolid, hqsolid]
      refine .cons ?_ hjoined ht htokens
      rw [← hkinds, pieceKinds, List.map_map]
      rfl
    · refine List.forall_mem_append.mpr ⟨fun q hq => (hfine q hq).1, ?_⟩
      exact List.forall_mem_append.mpr ⟨List.forall_mem_singleton.mpr hproblem, hfine'⟩

/-- The tokens of operators and names are ahead, and nothing was complained about. -/
structure Cursor.ShowsLinks (c : Cursor) (links : List OperatorLink) : Prop where
  ahead : LinkTokens links c.ahead
  problems : c.problems = []

/-- The tokens of a chain are ahead, and nothing was complained about. -/
structure Cursor.ShowsChain (c : Cursor) (chain : OperatorChain) : Prop where
  first : c.kindAt 0 = .ident chain.first
  links : c.advance.ShowsLinks chain.links

lemma Cursor.ShowsChain.of_ahead {c : Cursor} {t : Token} {ts : List Token} (hc : c.ahead = t :: ts)
    (ht : t.kind = .ident chain.first) (hts : LinkTokens chain.links ts) (hproblems : c.problems = []) :
    c.ShowsChain chain where
  first := by rw [kindAt, peek, hc]; exact ht
  links := ⟨by rw [ahead_advance, hc]; exact hts, by rw [problems_advance, hproblems]⟩

/-- The text of a chain is read as its tokens. -/
lemma front_chain (h : ∀ name ∈ chain.names, IsIdentifier name) :
    (lex chain.text).diagnostics = [] ∧ (Cursor.front chain.text).ShowsChain chain := by
  obtain ⟨hfirst, hnames⟩ := List.forall_mem_cons.mp h
  have hlinks : ∀ link ∈ chain.links, IsIdentifier link.2 := fun link hlink =>
    hnames _ (List.mem_map_of_mem hlink)
  have hstops : Lexeme.Stops isIdentContinue [] := nofun
  obtain ⟨p, t, hp, hproblem, hsolid, ht⟩ := hfirst.taken (stops_linkText chain.links hstops) 0
  obtain ⟨ps, hps, htokens, hfine⟩ := exists_linkTokens hlinks hstops (0 + bytes chain.first.toList)
  have htaken := hp.append hps
  rw [← OperatorChain.toList_text] at htaken
  obtain ⟨hlex, hahead⟩ := htaken.front
    (List.forall_mem_append.mpr ⟨List.forall_mem_singleton.mpr hproblem, hfine⟩)
  have hahead' : (Cursor.front chain.text).ahead = t :: solid ps := by
    rw [hahead, solid_append, hsolid]
    rfl
  exact ⟨hlex, .of_ahead hahead' ht htokens rfl⟩

end Shorthand
