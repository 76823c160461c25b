import Shorthand.Proofs.Moved.Steps
import Shorthand.Proofs.Token.Lookahead

/-!
Tokens of a text into which a line is put.

A line that is put behind the tokens of some imports is read by itself: the tokens before it stay, and
those behind it only stand later.

* `lexemesFrom_later`: what is read of a text does not depend on the offset at which it starts.
* `Taken.split`: a text can be cut behind each of its pieces.
* `Taken.goesOn`: the pieces of imports stay the same where a new line follows them.
* `exists_solid_inserted`: the tokens of a text into which a line is put.
-/

namespace Shorthand

open Text (bytes)

variable {rest read : List Char} {pos : Nat} {ps qs : List (Nat × Lexeme)} {p : Nat × Lexeme}

/-! ### Pieces -/

/-- A text that starts later has the same pieces later. -/
lemma lexemesFrom_later (offset skip pos : Nat) (cs : List Char) :
    lexemesFrom skip (pos + offset) cs
      = (lexemesFrom skip pos cs).map fun p => (p.1 + offset, p.2) := by
  induction cs generalizing skip pos with
  | nil => cases skip <;> rfl
  | cons c cs ih =>
    have hnext : pos + offset + c.utf8Size = pos + c.utf8Size + offset := Nat.add_right_comm _ _ _
    cases skip with
    | succ skip => rw [lexemesFrom, lexemesFrom, hnext, ih]
    | zero =>
      rw [lexemesFrom, lexemesFrom, hnext]
      split
      · exact ih 0 _
      · exact congrArg _ (ih _ _)

/-- A text can be cut behind each of its pieces. -/
lemma Taken.split (h : Taken rest pos read (ps ++ p :: qs)) : ∃ before after,
    read = before ++ after ∧ Taken (after ++ rest) pos before (ps ++ [p])
      ∧ pos + bytes before = (p.2.token p.1).span.stop ∧ Taken rest (pos + bytes before) after qs := by
  generalize hall : ps ++ p :: qs = all at h
  induction h generalizing ps with
  | done => simp at hall
  | @blank pos c read all hc h ih =>
    obtain ⟨before, after, rfl, hbefore, hstop, hafter⟩ := ih hall
    rw [Nat.add_assoc, ← Text.bytes_cons] at hstop hafter
    exact ⟨c :: before, after, rfl, .blank hc hbefore, hstop, hafter⟩
  | @piece pos c text read all hc htext h ih =>
    cases ps with
    | nil =>
      obtain ⟨rfl, rfl⟩ := List.cons.inj hall
      refine ⟨c :: text, read, rfl, ?_, ?_, h⟩
      · have hone : Taken (read ++ rest) pos (c :: text ++ []) _ := .piece hc htext .done
        rwa [List.append_nil] at hone
      · rw [Lexeme.token, htext]
    | cons q ps =>
      rw [List.cons_append] at hall
      obtain ⟨rfl, hrest⟩ := List.cons.inj hall
      obtain ⟨before, after, rfl, hbefore, hstop, hafter⟩ := ih hrest
      rw [Nat.add_assoc, ← Text.bytes_append] at hstop hafter
      rw [List.append_assoc before] at htext ⊢
      refine ⟨c :: text ++ before, after, (List.append_assoc _ _ _).symm, ?_, hstop, hafter⟩
      exact .piece hc htext hbefore

lemma not_isTrivia_of_inHeader {k : TokenKind} (h : k.inHeader = true) : ¬ k.isTrivia = true := by
  cases k with
  | keyword | ident | punct => exact Bool.false_ne_true
  | _ => cases h

/-- The pieces of imports, with comments, stay the same where a new line follows the last of them. -/
lemma Taken.goesOn (h : Taken rest pos read ps)
    (hall : ∀ p ∈ ps, p.2.kind.inHeader = true ∨ p.2.kind.isTrivia = true)
    (hlast : ∀ p ∈ ps.getLast?, p.2.kind.inHeader = true) (more : List Char) :
    Taken ('\n' :: more) pos read ps := by
  induction h with
  | done => exact .done
  | blank hc h ih => exact .blank hc (ih hall hlast)
  | @piece pos c text read ps hc htext h ih =>
    have hgoes := Lexeme.goesOn_append read rest more
    have hsame : Lexeme.scan c (text ++ (read ++ '\n' :: more))
        = Lexeme.scan c (text ++ (read ++ rest)) := by
      rcases hall _ List.mem_cons_self with hk | hk
      · exact Lexeme.scan_goesOn htext hk hgoes
      · refine Lexeme.scan_goesOn_comment htext hk (fun hnil => ?_) hgoes
        -- A comment is not the last piece, so the text goes on behind it.
        have hread : read = [] := (List.append_eq_nil_iff.mp hnil).1
        have hps : ps = [] := List.length_eq_zero_iff.mp (by simpa [hread] using h.length_le)
        have hheader := hlast _ (by rw [hps]; rfl)
        exact absurd hk (not_isTrivia_of_inHeader hheader)
    have hrest : Taken ('\n' :: more) (pos + bytes (c :: text)) read ps := by
      refine ih (fun p hp => hall p (List.mem_cons_of_mem _ hp)) fun p hp => hlast p ?_
      rw [List.getLast?_cons, Option.mem_def.mp hp]
      rfl
    rw [← hsame] at htext ⊢
    exact .piece hc htext hrest

/-! ### Tokens of which a tree is made -/

/-- The tokens that some pieces make, without comments. -/
def solid (ps : List (Nat × Lexeme)) : List Token :=
  (ps.map fun p => p.2.token p.1).filter fun t => !t.isTrivia && t.kind != .eof

lemma solid_append (ps qs : List (Nat × Lexeme)) : solid (ps ++ qs) = solid ps ++ solid qs := by
  rw [solid, List.map_append, List.filter_append, ← solid, ← solid]

/-- Reading starts with the tokens of the text, without comments. -/
lemma ahead_ofTokens (source : String) (textEnd : Nat) :
    (Cursor.ofTokens (lex source).tokens textEnd).ahead = solid (lexemesFrom 0 0 source.toList) := by
  rw [Cursor.ofTokens, lex, List.filter_append, solid]
  exact List.append_nil _

/-- Pieces that stand later make the same tokens later. -/
lemma solid_later (offset : Nat) (ps : List (Nat × Lexeme)) :
    solid (ps.map fun p => (p.1 + offset, p.2)) = (solid ps).map (.later offset) := by
  have htokens : (ps.map fun p => (p.1 + offset, p.2)).map (fun p => p.2.token p.1)
      = (ps.map fun p => p.2.token p.1).map (.later offset) := by
    rw [List.map_map, List.map_map]
    refine List.map_congr_left fun p _ => ?_
    rw [Function.comp_apply, Function.comp_apply, Lexeme.token, Lexeme.token, Token.later,
      Nat.add_right_comm]
  rw [solid, htokens, List.filter_map, solid]
  rfl

/-- A token of which a tree is made is one of a piece, and the tokens around it are those of the pieces
around that one. -/
lemma exists_of_solid {ts us : List Token} {t : Token} (h : solid ps = ts ++ t :: us) :
    ∃ before p after, ps = before ++ p :: after ∧ solid (before ++ [p]) = ts ++ [t]
      ∧ p.2.token p.1 = t ∧ solid after = us := by
  obtain ⟨xs, ys, hmap, hxs, hys⟩ := List.filter_eq_append_iff.mp h
  obtain ⟨zs, vs, rfl, hzs, ht, hvs⟩ := List.filter_eq_cons_iff.mp hys
  rw [← List.append_assoc] at hmap
  obtain ⟨before, rest, rfl, hbefore, hrest⟩ := List.map_eq_append_iff.mp hmap
  obtain ⟨p, after, rfl, hp, hafter⟩ := List.map_eq_cons_iff.mp hrest
  refine ⟨before, p, after, rfl, ?_, hp, ?_⟩
  · have hone : [t].filter (fun t => !t.isTrivia && t.kind != .eof) = [t] :=
      List.filter_eq_self.mpr (List.forall_mem_singleton.mpr ht)
    rw [solid, List.map_append, hbefore, List.map_singleton, hp, List.filter_append,
      List.filter_append, hxs, List.filter_eq_nil_iff.mpr hzs, List.append_nil, hone]
  · rw [solid, hafter, hvs]

/-- No piece is the end of the text. -/
lemma Taken.ne_eof (h : Taken rest pos read ps) : ∀ p ∈ ps, p.2.kind ≠ .eof := by
  induction h with
  | done => exact nofun
  | blank hc h ih => exact ih
  | piece hc htext h ih => exact List.forall_mem_cons.mpr ⟨Lexeme.scan_ne_eof _ _, ih⟩

/-- A piece is a comment or makes a token of which a tree is made. -/
lemma Taken.isTrivia_or_mem_solid (h : Taken rest pos read ps) :
    ∀ p ∈ ps, p.2.kind.isTrivia = true ∨ p.2.token p.1 ∈ solid ps := by
  intro p hp
  rw [or_iff_not_imp_left, Bool.not_eq_true]
  intro htrivia
  refine List.mem_filter.mpr ⟨List.mem_map_of_mem hp, ?_⟩
  rw [Token.isTrivia, Bool.and_eq_true, bne_iff_ne]
  exact ⟨by rw [Lexeme.token, htrivia]; rfl, h.ne_eof p hp⟩

/-! ### Texts -/

/-- Where the tokens of imports end a text can be cut, and its pieces up to there stay the same where a
new line follows them. -/
lemma exists_header {source : List Char} {ts us : List Token} {t : Token}
    (h : solid (lexemesFrom 0 0 source) = ts ++ t :: us)
    (hts : ∀ t' ∈ ts ++ [t], t'.kind.inHeader = true) : ∃ before after qs,
      source = before ++ after ∧ bytes before = t.span.stop ∧ solid qs = ts ++ [t]
      ∧ solid (lexemesFrom 0 (bytes before) after) = us
      ∧ ∀ more, Taken ('\n' :: more) 0 before qs := by
  obtain ⟨qs, p, rs, hall, hqs, rfl, rfl⟩ := exists_of_solid h
  obtain ⟨before, after, rfl, hbefore, hstop, hafter⟩ := (hall ▸ taken_lexemesFrom 0 source).split
  rw [Nat.zero_add] at hstop hafter
  refine ⟨before, after, qs ++ [p], rfl, hstop, hqs, ?_, hbefore.goesOn (fun q hq => ?_) ?_⟩
  · have hrest := hafter.lexemesFrom_eq
    rw [List.append_nil, lexemesFrom, List.append_nil] at hrest
    rw [hrest]
  · rcases hbefore.isTrivia_or_mem_solid q hq with htrivia | hmem
    · exact .inr htrivia
    · exact .inl (hts _ (hqs ▸ hmem))
  · intro q hq
    obtain rfl : p = q := by simpa using hq
    exact hts _ (List.mem_append_right _ List.mem_cons_self)

/-- What is put behind the first tokens of a text, if these are ones of imports, leaves them as they
are, and those behind it only come later. Behind tokens it has to start with a new line. -/
theorem exists_solid_inserted {source : List Char} {ts us : List Token}
    (h : solid (lexemesFrom 0 0 source) = ts ++ us) (hts : ∀ t ∈ ts, t.kind.inHeader = true) :
    ∃ before after, source = before ++ after
      ∧ bytes before = (ts.getLast?.map (·.span.stop)).getD 0
      ∧ ∀ line ps, (ts = [] ∨ ∃ more, line = '\n' :: more) → Taken after (bytes before) line ps →
        solid (lexemesFrom 0 0 (before ++ line ++ after))
          = ts ++ solid ps ++ us.map (.later (bytes line)) := by
  rcases List.eq_nil_or_concat ts with rfl | ⟨ts, t, rfl⟩
  · refine ⟨[], source, rfl, rfl, fun line ps _ hps => ?_⟩
    have hall := hps.lexemesFrom_eq
    rw [Text.bytes_nil] at hall
    rw [List.nil_append, hall, solid_append, lexemesFrom_later, solid_later, h]
    rfl
  · rw [List.concat_eq_append] at h hts ⊢
    rw [List.append_assoc, List.singleton_append] at h
    obtain ⟨before, after, qs, rfl, hstop, hqs, hafter, hbefore⟩ := exists_header h hts
    refine ⟨before, after, rfl, by rw [List.getLast?_concat]; exact hstop, ?_⟩
    rintro line ps (hnil | ⟨more, rfl⟩) hps
    · simp at hnil
    · have hall := (hbefore (more ++ after)).lexemesFrom_eq
      rw [Nat.zero_add] at hall
      rw [List.append_assoc, List.cons_append, hall, ← List.cons_append, hps.lexemesFrom_eq,
        solid_append, solid_append, hqs, lexemesFrom_later, solid_later, hafter]
      simp only [List.append_assoc]

end Shorthand
