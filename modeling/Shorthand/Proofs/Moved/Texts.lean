import Shorthand.Proofs.Moved.Parse
import Shorthand.Proofs.Reading.Parse
import Shorthand.Tree.Render

/-!
Texts with the same tokens.

Whatever stands between its tokens, a text is read by their kinds and by the gaps between `>` signs. So a
text that is written for a tree stands for the tree if it has the tokens of the text that was read, and
where it does not stand for the tree some token has been lost, split or joined.

* `parse_congr` and `parseExpression_congr`: texts with the same tokens have the same tree, and the parser
  says the same of them.
* `parse_render`: what is written for the tree of a text, with the tokens of the text.
-/

namespace Shorthand

/-- What reading asks of the tokens of a text. White space and comments are no part of it. -/
def marksOf (source : String) : List (TokenKind × Bool) := Token.marks (Cursor.front source).ahead

namespace ParseOutput

/-- The words of all that is wrong with a text. -/
def words (out : ParseOutput) : List String := out.diagnostics.map (·.message)

/-- Two texts have the same tree, apart from where it stands, and the parser says the same of them. -/
def Agrees (source text : String) (out out' : ParseOutput) : Prop :=
  Node.Same out.tree out'.tree ∧ ∃ words,
    out.words = (lex source).diagnostics.map (·.message) ++ words
      ∧ out'.words = (lex text).diagnostics.map (·.message) ++ words

variable {rule : Parser.Rules → Parser Node} {source text : String}

lemma agrees_of_alike (h : marksOf text = marksOf source)
    (halike : ∀ s m n, s.limit < m → s.limit < n →
      Parser.Alike s Node.Same (rule (Parser.rulesTo m)) (rule (Parser.rulesTo n))) :
    Agrees source text (ofSource rule source) (ofSource rule text) := by
  have hmoved : (Cursor.front source).Moved ⟨[], [], (Cursor.front source).ahead.length⟩
      (Cursor.front text) := ⟨h, ⟨[], rfl, rfl⟩, Nat.le_refl _⟩
  have hdeep : (Cursor.front source).ahead.length < (Cursor.front text).ahead.length + 1 := by
    rw [hmoved.length_eq]
    exact Nat.lt_succ_self _
  obtain ⟨hsame, hmoved'⟩ := halike _ _ _ (Nat.lt_succ_self _) hdeep _ _ hmoved
  obtain ⟨made, hsource, htext⟩ := hmoved'.complaints
  rw [List.append_nil] at hsource htext
  refine ⟨hsame, made.reverse, ?_, ?_⟩
  · rw [← hsource, words, Cursor.complaints, ← List.map_reverse, ← List.map_append]
    rfl
  · rw [← htext, words, Cursor.complaints, ← List.map_reverse, ← List.map_append]
    rfl

end ParseOutput

variable {source text : String}

/-- What a text is read as depends on its tokens only. -/
theorem parse_congr (h : marksOf text = marksOf source) :
    ParseOutput.Agrees source text (parse source) (parse text) :=
  ParseOutput.agrees_of_alike h fun _ _ _ hm hn =>
    Parser.compilationUnit_alike (Nat.le_of_lt hm) (Nat.le_of_lt hn)

/-- What an expression is read as depends on its tokens only. -/
theorem parseExpression_congr (h : marksOf text = marksOf source) :
    ParseOutput.Agrees source text (parseExpression source) (parseExpression text) :=
  ParseOutput.agrees_of_alike h fun _ _ _ hm hn => Parser.wholeExpression_alike hm hn

/-- If nothing is wrong with a text and what is written for its tree has the tokens of the text, then it
stands for the tree and nothing is wrong with it. -/
theorem parse_render (hsource : (parse source).diagnostics = [])
    (hlex : (lex (parse source).tree.render).diagnostics = [])
    (h : marksOf (parse source).tree.render = marksOf source) :
    (parse (parse source).tree.render).diagnostics = []
      ∧ Node.Same (parse source).tree (parse (parse source).tree.render).tree := by
  obtain ⟨hsame, words, hwords, hwords'⟩ := parse_congr h
  rw [ParseOutput.words, hsource, List.map_nil] at hwords
  obtain ⟨-, rfl⟩ := List.append_eq_nil_iff.mp hwords.symm
  rw [ParseOutput.words, hlex, List.map_nil, List.append_nil] at hwords'
  exact ⟨List.map_eq_nil_iff.mp hwords', hsame⟩

/-- White space, comments and the places of tokens do not matter, unless they part `>` signs. -/
example : marksOf "a>>b" = marksOf "a /* shifted */ >> b" ∧ marksOf "a>>b" ≠ marksOf "a > > b" := by
  decide +kernel

/-- Two signs are written without a space between them, and then they are one token. -/
example : marksOf (parseExpression "- -x").tree.render ≠ marksOf "- -x" := by decide +kernel

end Shorthand
