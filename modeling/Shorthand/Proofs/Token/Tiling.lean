import Shorthand.Proofs.Reading.Layout

/-!
Tokens tile their text.

A piece that is taken off the front of a text starts that text, is not empty (`scan_starts`) and keeps
the characters that it covers (`scan_written`). `Taken rest pos read ps` says of the pieces `ps` that
they are those of `read`, where the text goes on with `rest`.

* `taken_lexemesFrom`: reading a text takes it apart in this way.
* `Taken.inOrder`, `Taken.spelled` and `Taken.blank`: what follows for the tokens of a text.
* `lex_tiles`: the tokens of a text tile it.
* `fits_ofTokens`: the cursor with which reading starts stands in the text.
-/

namespace Shorthand

namespace Lexeme

variable {c : Char} {cs : List Char}

/-! ### Pieces -/

lemma beforeClose_starts {body inner : List Char} (h : beforeClose body = some inner) :
    inner ++ ['*', '/'] <+: body := by
  induction body generalizing inner with
  | nil => cases h
  | cons c cs ih =>
    rw [beforeClose.eq_def] at h
    split at h
    · next rest heq =>
      obtain rfl := Option.some.inj h
      rw [heq]
      exact ⟨rest, rfl⟩
    · next d ds hne heq =>
      obtain ⟨rfl, rfl⟩ := List.cons.inj heq
      obtain ⟨inner', hinner, rfl⟩ := Option.map_eq_some_iff.mp h
      exact List.cons_prefix_cons.mpr ⟨rfl, ih hinner⟩
    · cases h

lemma quotedBody_starts {quote : Char} {escaped : Bool} {body : List Char}
    (h : quotedBody quote escaped cs = some body) : body <+: cs := by
  induction cs generalizing escaped body with
  | nil => cases h
  | cons c cs ih =>
    rw [quotedBody] at h
    split at h
    · cases h
    split at h
    · obtain ⟨rest, hrest, rfl⟩ := Option.map_eq_some_iff.mp h
      exact List.cons_prefix_cons.mpr ⟨rfl, ih hrest⟩
    split at h
    · obtain ⟨rest, hrest, rfl⟩ := Option.map_eq_some_iff.mp h
      exact List.cons_prefix_cons.mpr ⟨rfl, ih hrest⟩
    split at h
    · obtain rfl := Option.some.inj h
      exact ⟨cs, rfl⟩
    · obtain ⟨rest, hrest, rfl⟩ := Option.map_eq_some_iff.mp h
      exact List.cons_prefix_cons.mpr ⟨rfl, ih hrest⟩

lemma fraction_starts {part : List Char} (h : fraction cs = some part) :
    part <+: cs ∧ part ≠ [] := by
  rw [fraction.eq_def] at h
  split at h
  · obtain rfl := Option.some.inj h
    exact ⟨List.prefix_rfl, by simp⟩
  · next c cs =>
    split at h
    · obtain rfl := Option.some.inj h
      exact ⟨List.cons_prefix_cons.mpr ⟨rfl, List.takeWhile_prefix _⟩, by simp⟩
    · cases h
  · cases h

/-- What starts the text behind a first part lengthens that part. -/
lemma append_starts {first part : List Char} (h : first <+: cs)
    (hpart : part <+: cs.drop first.length) : first ++ part <+: cs := by
  obtain ⟨rest, rfl⟩ := h
  rw [List.drop_left] at hpart
  exact List.prefix_append_right_inj first |>.mpr hpart

/-- A number starts the text; it has a character if the text starts with a digit, or with a point and a
digit. -/
lemma digits_starts (cs : List Char) :
    (digits cs).1 <+: cs
      ∧ (cs.head?.any Char.isDigit ∨ fraction cs ≠ none → (digits cs).1 ≠ []) := by
  rw [digits.eq_def]
  split
  · refine ⟨?_, fun _ => List.cons_ne_nil _ _⟩
    exact List.cons_prefix_cons.mpr ⟨rfl, List.cons_prefix_cons.mpr ⟨rfl, List.takeWhile_prefix _⟩⟩
  · refine ⟨?_, fun _ => List.cons_ne_nil _ _⟩
    exact List.cons_prefix_cons.mpr ⟨rfl, List.cons_prefix_cons.mpr ⟨rfl, List.takeWhile_prefix _⟩⟩
  · have hwhole : cs.takeWhile (fun c => c.isDigit || c == '_') <+: cs := List.takeWhile_prefix _
    dsimp only
    split
    · next part hpart =>
      obtain ⟨hstarts, hne⟩ := fraction_starts hpart
      exact ⟨append_starts hwhole hstarts, fun _ => by simp [hne]⟩
    · next hnone =>
      refine ⟨hwhole, fun hstart hnil => ?_⟩
      dsimp only at hnil
      rw [hnil, List.length_nil, List.drop_zero] at hnone
      rcases hstart with hdigit | hfraction
      · cases cs with
        | nil => cases hdigit
        | cons c cs =>
          have hc : c.isDigit = true := hdigit
          simp [hc] at hnil
      · exact hfraction hnone

/-- A number starts the text at which it was found. -/
lemma number_starts (h : c.isDigit || (c == '.' && cs.head?.any Char.isDigit)) :
    (number (c :: cs)).text <+: c :: cs ∧ (number (c :: cs)).text ≠ [] := by
  obtain ⟨hstarts, hne⟩ := digits_starts (c :: cs)
  have hstart : (digits (c :: cs)).1 ≠ [] := by
    refine hne ?_
    simp only [Bool.or_eq_true, Bool.and_eq_true, beq_iff_eq] at h
    rcases h with hdigit | ⟨rfl, hnext⟩
    · exact .inl hdigit
    · cases cs with
      | nil => cases hnext
      | cons d cs =>
        have hd : d.isDigit = true := hnext
        exact .inr (by simp [fraction, hd])
  rw [number]
  dsimp only
  split
  · next d rest hdrop =>
    cases hsuffix : suffixKind? d with
    | none => simpa using ⟨hstarts, hstart⟩
    | some kind =>
      refine ⟨?_, by simp⟩
      have hlast : [d] <+: (c :: cs).drop (digits (c :: cs)).1.length := by
        rw [hdrop]
        exact ⟨rest, rfl⟩
      exact append_starts hstarts hlast
  · exact ⟨hstarts, hstart⟩

lemma operator?_starts {piece : Lexeme} (h : operator? cs = some piece) :
    piece.text <+: cs ∧ piece.text ≠ [] := by
  have hplain (h : operator?.plain cs = some piece) : piece.text <+: cs ∧ piece.text ≠ [] := by
    obtain ⟨p, hp, rfl⟩ := Option.map_eq_some_iff.mp h
    have hstarts : p.chars.isPrefixOf cs = true := by simpa using List.find?_some hp
    refine ⟨List.isPrefixOf_iff_prefix.mp hstarts, ?_⟩
    cases p <;> exact List.cons_ne_nil _ _
  rw [operator?.eq_def] at h
  split at h
  · next c rest =>
    split at h
    · obtain rfl := Option.some.inj h
      exact ⟨⟨rest, rfl⟩, List.cons_ne_nil _ _⟩
    · exact hplain h
  · exact hplain h

/-- A piece starts the text off which it is taken, and is not empty. -/
theorem scan_starts (c : Char) (cs : List Char) :
    (scan c cs).text <+: c :: cs ∧ (scan c cs).text ≠ [] := by
  have hquoted (kind : LiteralKind) (problem : String) (quote : Char) :
      (quoted kind problem quote cs).text <+: quote :: cs
        ∧ (quoted kind problem quote cs).text ≠ [] := by
    rw [quoted]
    split
    · next body hbody =>
      exact ⟨List.cons_prefix_cons.mpr ⟨rfl, quotedBody_starts hbody⟩, List.cons_ne_nil _ _⟩
    · exact ⟨List.cons_prefix_cons.mpr ⟨rfl, List.takeWhile_prefix _⟩, List.cons_ne_nil _ _⟩
  rw [scan.eq_def]
  split
  · exact ⟨List.takeWhile_prefix _, by simp [lineComment]⟩
  · next body =>
    rw [blockComment]
    split
    · next inner hinner =>
      refine ⟨?_, List.cons_ne_nil _ _⟩
      exact List.cons_prefix_cons.mpr
        ⟨rfl, List.cons_prefix_cons.mpr ⟨rfl, beforeClose_starts hinner⟩⟩
    · exact ⟨List.prefix_rfl, List.cons_ne_nil _ _⟩
  · exact hquoted _ _ _
  · exact hquoted _ _ _
  · split
    · next h => exact number_starts h
    · split
      · next hident =>
        have hcontinue : isIdentContinue c = true := by
          simp only [isIdentStart, isIdentContinue, Char.isAlphanum, Bool.or_eq_true] at hident ⊢
          tauto
        exact ⟨List.takeWhile_prefix _, by simp [word, hcontinue]⟩
      · cases hop : operator? (c :: cs) with
        | some piece => exact operator?_starts hop
        | none => exact ⟨⟨cs, rfl⟩, List.cons_ne_nil _ _⟩

/-! ### What a piece keeps -/

lemma wordKind_written (spelling : String) : (wordKind spelling).written? = some spelling.toList := by
  rw [wordKind]
  split
  · rfl
  split
  · next h =>
    rw [beq_iff_eq.mp h]
    rfl
  split
  · next k hk =>
    have hspelling := List.find?_some hk
    rw [beq_iff_eq] at hspelling
    rw [← hspelling]
    rfl
  · rfl

lemma lineComment_written (h : ['/', '/'] <+: cs) :
    (lineComment cs).kind.written? = some (lineComment cs).text := by
  obtain ⟨rest, rfl⟩ := h
  simp [lineComment, TokenKind.written?]

lemma operator?_written {piece : Lexeme} (h : operator? cs = some piece) :
    piece.kind.written? = some piece.text := by
  have hplain (h : operator?.plain cs = some piece) : piece.kind.written? = some piece.text := by
    obtain ⟨p, -, rfl⟩ := Option.map_eq_some_iff.mp h
    rfl
  rw [operator?.eq_def] at h
  split at h
  · split at h
    · obtain rfl := Option.some.inj h
      simp [TokenKind.written?]
    · exact hplain h
  · exact hplain h

/-- Where a piece keeps the characters of its token, they are those that it takes off the text. -/
theorem scan_written (c : Char) (cs : List Char) :
    ∀ spelling, (scan c cs).kind.written? = some spelling → spelling = (scan c cs).text := by
  have hall {piece : Lexeme} (h : piece.kind.written? = some piece.text) :
      ∀ spelling, piece.kind.written? = some spelling → spelling = piece.text := by
    intro spelling hspelling
    rw [h] at hspelling
    exact (Option.some.inj hspelling).symm
  have hquoted (kind : LiteralKind) (problem : String) (quote : Char) :
      (quoted kind problem quote cs).kind.written? = some (quoted kind problem quote cs).text := by
    rw [quoted]
    split <;> simp [TokenKind.written?]
  rw [scan.eq_def]
  split
  · exact hall (lineComment_written ⟨_, rfl⟩)
  · rw [blockComment]
    split <;> exact nofun
  · exact hall (hquoted _ _ _)
  · exact hall (hquoted _ _ _)
  · split
    · refine hall ?_
      simp [number, TokenKind.written?]
    · split
      · refine hall ?_
        simp [word, wordKind_written]
      · cases hop : operator? (c :: cs) with
        | some piece => exact hall (operator?_written hop)
        | none => exact nofun

end Lexeme

/-! ### Texts -/

namespace Token.InOrder

variable {src : List Char} {lo lo' : Nat} {ts : List Token}

lemma of_le (h : InOrder src lo ts) (hlo : lo' ≤ lo) : InOrder src lo' ts := by
  cases ts with
  | nil => exact Nat.le_trans hlo h
  | cons t ts => exact ⟨Nat.le_trans hlo h.1, h.2⟩

/-- Some of the tokens that lie one behind the other lie one behind the other. -/
lemma filter (h : InOrder src lo ts) (p : Token → Bool) : InOrder src lo (ts.filter p) := by
  induction ts generalizing lo with
  | nil => exact h
  | cons t ts ih =>
    obtain ⟨hlo, hlt, hstart, hstop, hrest⟩ := h
    rw [List.filter_cons]
    split
    · exact ⟨hlo, hlt, hstart, hstop, ih hrest⟩
    · exact (ih hrest).of_le (by omega)

end Token.InOrder

/-! ### Taking a text apart -/

open Text (bytes isBlank)

/-- Pieces that are taken off the front of a text one after the other, with white space between them:
they are the ones of `read`, which starts at the offset `pos`, and `rest` is what they leave. -/
inductive Taken (rest : List Char) : Nat → List Char → List (Nat × Lexeme) → Prop
  | done {pos : Nat} : Taken rest pos [] []
  | blank {pos : Nat} {c : Char} {read : List Char} {ps : List (Nat × Lexeme)}
      (hc : isBlank c = true) (h : Taken rest (pos + c.utf8Size) read ps) :
      Taken rest pos (c :: read) ps
  | piece {pos : Nat} {c : Char} {text read : List Char} {ps : List (Nat × Lexeme)}
      (hc : isBlank c = false) (htext : (Lexeme.scan c (text ++ (read ++ rest))).text = c :: text)
      (h : Taken rest (pos + bytes (c :: text)) read ps) :
      Taken rest pos (c :: text ++ read) ((pos, Lexeme.scan c (text ++ (read ++ rest))) :: ps)

variable {rest read : List Char} {pos : Nat} {ps : List (Nat × Lexeme)}

/-- Characters that belong to a piece are skipped. -/
lemma lexemesFrom_skip (pos : Nat) (text cs : List Char) :
    lexemesFrom text.length pos (text ++ cs) = lexemesFrom 0 (pos + bytes text) cs := by
  induction text generalizing pos with
  | nil => rfl
  | cons c text ih =>
    rw [List.length_cons, List.cons_append, lexemesFrom, ih, Text.bytes_cons, Nat.add_assoc]

/-- A piece is taken off, and reading goes on behind it. -/
lemma lexemesFrom_piece {c : Char} {text : List Char} (pos : Nat) {cs : List Char}
    (hc : isBlank c = false) (htext : (Lexeme.scan c (text ++ cs)).text = c :: text) :
    lexemesFrom 0 pos (c :: text ++ cs)
      = (pos, Lexeme.scan c (text ++ cs)) :: lexemesFrom 0 (pos + bytes (c :: text)) cs := by
  rw [List.cons_append, lexemesFrom, if_neg (by rw [hc]; decide)]
  dsimp only
  rw [htext, List.length_cons, Nat.add_sub_cancel, lexemesFrom_skip, Text.bytes_cons,
    ← Nat.add_assoc]

/-- Reading a text gives the pieces taken off its front, and then those of the rest. -/
theorem Taken.lexemesFrom_eq (h : Taken rest pos read ps) :
    lexemesFrom 0 pos (read ++ rest) = ps ++ lexemesFrom 0 (pos + bytes read) rest := by
  induction h with
  | done => rfl
  | blank hc h ih =>
    rw [List.cons_append, lexemesFrom, if_pos hc, ih, Text.bytes_cons, Nat.add_assoc]
  | piece hc htext h ih =>
    rw [List.append_assoc, lexemesFrom_piece _ hc htext, ih, Text.bytes_append, Nat.add_assoc]
    rfl

/-- Reading takes a whole text apart. -/
theorem taken_lexemesFrom (pos : Nat) (cs : List Char) : Taken [] pos cs (lexemesFrom 0 pos cs) := by
  induction hn : cs.length using Nat.strongRecOn generalizing pos cs with
  | ind n ih =>
    cases cs with
    | nil => exact .done
    | cons c cs =>
      by_cases hc : isBlank c = true
      · rw [lexemesFrom, if_pos hc]
        exact .blank hc (ih cs.length (by rw [← hn]; exact Nat.lt_succ_self _) _ cs rfl)
      · obtain ⟨⟨after, hstarts⟩, hne⟩ := Lexeme.scan_starts c cs
        -- The first character is the one at hand, and the others start what follows it.
        obtain ⟨d, text, htext⟩ := List.exists_cons_of_ne_nil hne
        rw [htext, List.cons_append] at hstarts
        obtain ⟨rfl, rfl⟩ := List.cons.inj hstarts
        rw [Bool.not_eq_true] at hc
        have hlength : after.length < n := by
          rw [← hn, List.length_cons, List.length_append]
          omega
        have hafter := ih after.length hlength (pos + bytes (d :: text)) after rfl
        have hpiece := lexemesFrom_piece pos hc htext
        rw [List.cons_append] at hpiece
        rw [hpiece]
        rw [← List.append_nil after] at htext
        have htaken : Taken [] pos (d :: text ++ after) _ := .piece hc htext hafter
        rwa [List.append_nil] at htaken

/-- The tokens taken off a text lie in it one behind the other. -/
lemma Taken.inOrder (h : Taken rest pos read ps) (before : List Char) (hpos : bytes before = pos) :
    Token.InOrder (before ++ (read ++ rest)) pos (ps.map fun p => p.2.token p.1) := by
  induction h generalizing before with
  | done =>
    show _ ≤ _
    rw [Text.bytes_append]
    omega
  | @blank pos c read ps hc h ih =>
    have hrest := ih (before ++ [c]) (by rw [Text.bytes_append, hpos]; rfl)
    rw [List.append_assoc, List.singleton_append] at hrest
    exact hrest.of_le (Nat.le_add_right _ _)
  | @piece pos c text read ps hc htext h ih =>
    have hrest := ih (before ++ c :: text) (by rw [Text.bytes_append, hpos])
    rw [List.append_assoc] at hrest
    rw [List.map_cons, List.append_assoc]
    have hstop : ((Lexeme.scan c (text ++ (read ++ rest))).token pos).span.stop
        = pos + bytes (c :: text) := by
      rw [Lexeme.token, htext]
    refine ⟨Nat.le_refl _, ?_, ?_, ?_, ?_⟩
    · rw [hstop]
      exact Nat.lt_add_of_pos_right (Text.bytes_pos_of_ne_nil (List.cons_ne_nil _ _))
    · exact Text.isBoundary_iff.mpr ⟨before, _, rfl, hpos⟩
    · rw [hstop]
      refine Text.isBoundary_iff.mpr ⟨before ++ c :: text, read ++ rest, List.append_assoc _ _ _, ?_⟩
      rw [Text.bytes_append, hpos]
    · rw [hstop]
      exact hrest

/-- The tokens taken off a text keep its characters. -/
lemma Taken.spelled (h : Taken rest pos read ps) (before : List Char) (hpos : bytes before = pos) :
    ∀ p ∈ ps, (p.2.token p.1).Spelled (before ++ (read ++ rest)) := by
  induction h generalizing before with
  | done => simp
  | @blank pos c read ps hc h ih =>
    have hrest := ih (before ++ [c]) (by rw [Text.bytes_append, hpos]; rfl)
    rwa [List.append_assoc, List.singleton_append] at hrest
  | @piece pos c text read ps hc htext h ih =>
    have hrest := ih (before ++ c :: text) (by rw [Text.bytes_append, hpos])
    rw [List.append_assoc] at hrest
    rw [List.append_assoc]
    intro p hp
    rcases List.mem_cons.mp hp with rfl | hp
    · intro spelling hspelling
      have hspelling : spelling = c :: text := by
        rw [← htext]
        exact Lexeme.scan_written c _ spelling hspelling
      subst hspelling
      refine Text.slice?_eq_some.mpr ⟨before, read ++ rest, (List.append_assoc _ _ _).symm, hpos, ?_⟩
      rw [hpos, Lexeme.token, htext]
    · exact hrest p hp

/-- What the tokens taken off a text leave out is white space. -/
lemma Taken.isBlank (h : Taken rest pos read ps) {before after : List Char} {c : Char}
    (hread : read = before ++ c :: after)
    (hout : ∀ p ∈ ps, ¬ (p.2.token p.1).Covers (pos + bytes before)) : isBlank c = true := by
  induction h generalizing before with
  | done => simp at hread
  | @blank pos d read ps hd h ih =>
    cases before with
    | nil =>
      obtain ⟨rfl, -⟩ := List.cons.inj hread
      exact hd
    | cons b before =>
      obtain ⟨rfl, rfl⟩ := List.cons.inj hread
      refine ih rfl ?_
      rwa [Nat.add_assoc, ← Text.bytes_cons]
  | @piece pos d text read ps hd htext h ih =>
    rcases List.append_eq_append_iff.mp hread with ⟨more, rfl, hmore⟩ | ⟨more, htext', hmore⟩
    · -- The character stands behind the piece.
      refine ih hmore fun p hp => ?_
      rw [Nat.add_assoc, ← Text.bytes_append]
      exact hout p (List.mem_cons_of_mem _ hp)
    · cases more with
      | nil =>
        rw [List.append_nil] at htext'
        subst htext'
        have hmore' : read = [] ++ c :: after := by simpa using hmore.symm
        exact ih hmore' fun p hp => hout p (List.mem_cons_of_mem _ hp)
      | cons e more =>
        refine absurd ⟨Nat.le_add_right _ _, ?_⟩ (hout _ List.mem_cons_self)
        have hstop : ((Lexeme.scan d (text ++ (read ++ rest))).token pos).span.stop
            = pos + (bytes before + bytes (e :: more)) := by
          rw [Lexeme.token, htext, htext', Text.bytes_append]
        have := Text.bytes_pos_of_ne_nil (List.cons_ne_nil e more)
        rw [hstop]
        omega

/-- Every piece takes some of the text. -/
lemma Taken.length_le (h : Taken rest pos read ps) : ps.length ≤ read.length := by
  induction h with
  | done => exact Nat.le_refl _
  | blank _ _ ih => exact Nat.le_succ_of_le ih
  | piece _ _ _ ih =>
    rw [List.length_cons, List.length_append, List.length_cons]
    omega

/-- The pieces taken off a text are scanned where no white space is. -/
lemma Taken.scanned (h : Taken rest pos read ps) :
    ∀ p ∈ ps, ∃ c cs, Text.isBlank c = false ∧ p.2 = Lexeme.scan c cs := by
  induction h with
  | done => simp
  | blank _ _ ih => exact ih
  | piece hc _ _ ih =>
    intro p hp
    rcases List.mem_cons.mp hp with rfl | hp
    · exact ⟨_, _, hc, rfl⟩
    · exact ih p hp

/-- A token of a text is its end, or has the kind of a piece that was scanned where no white space is. -/
lemma eof_or_scanned_of_mem_tokens {source : String} {t : Token} (ht : t ∈ (lex source).tokens) :
    t.kind = .eof ∨ ∃ c cs, isBlank c = false ∧ t.kind = (Lexeme.scan c cs).kind := by
  rw [lex] at ht
  rcases List.mem_append.mp ht with ht | ht
  · obtain ⟨p, hp, rfl⟩ := List.mem_map.mp ht
    obtain ⟨c, cs, hblank, hscan⟩ := (taken_lexemesFrom 0 source.toList).scanned p hp
    refine .inr ⟨c, cs, hblank, ?_⟩
    rw [← hscan]
    rfl
  · obtain rfl := List.mem_singleton.mp ht
    exact .inl rfl

/-! ### The whole text -/

/-- Tokens tile a text: they lie in it one behind the other and none is empty, each keeps the characters
that it covers, and the characters that none covers are white space. -/
structure Tiles (src : List Char) (ts : List Token) : Prop where
  inOrder : Token.InOrder src 0 ts
  spelled : ∀ t ∈ ts, t.Spelled src
  blank : ∀ before c after, src = before ++ c :: after → (∀ t ∈ ts, ¬ t.Covers (bytes before)) →
    Text.isBlank c = true

/-- The tokens of a text, no more of them than it has characters, tile it, and behind them comes the end
of the text. -/
theorem lex_tiles (source : String) :
    ∃ tokens, (lex source).tokens = tokens ++ [.eofAt (bytes source.toList)]
      ∧ Tiles source.toList tokens ∧ tokens.length ≤ source.toList.length := by
  have htaken := taken_lexemesFrom 0 source.toList
  have hinOrder := htaken.inOrder [] rfl
  have hspelled := htaken.spelled [] rfl
  rw [List.nil_append, List.append_nil] at hinOrder hspelled
  refine ⟨_, rfl, ⟨hinOrder, fun t ht => ?_, fun before c after hsource hout => ?_⟩, ?_⟩
  · obtain ⟨p, hp, rfl⟩ := List.mem_map.mp ht
    exact hspelled p hp
  · refine htaken.isBlank hsource fun p hp => ?_
    rw [Nat.zero_add]
    exact hout _ (List.mem_map_of_mem hp)
  · rw [List.length_map]
    exact htaken.length_le

/-- Reading starts with a cursor that stands in the text. -/
theorem fits_ofTokens (source : String) :
    (Cursor.ofTokens (lex source).tokens (Text.bytes source.toList)).Fits source.toList := by
  have htaken := taken_lexemesFrom 0 source.toList
  have hinOrder := htaken.inOrder [] rfl
  have hspelled := htaken.spelled [] rfl
  rw [List.nil_append, List.append_nil] at hinOrder hspelled
  have hlast : ([Token.eofAt (Text.bytes source.toList)] : List Token).filter
      (fun t => !t.isTrivia && t.kind != .eof) = [] := rfl
  refine ⟨rfl, Text.isBoundary_zero _, ?_, fun t ht => ?_⟩
  · rw [Cursor.ofTokens, lex, List.filter_append, hlast, List.append_nil]
    exact hinOrder.filter _
  · rw [Cursor.ofTokens, lex, List.filter_append, hlast, List.append_nil] at ht
    obtain ⟨p, hp, rfl⟩ := List.mem_map.mp (List.mem_filter.mp ht).1
    exact hspelled p hp

end Shorthand
