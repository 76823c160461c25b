import Shorthand.Proofs.Header.Written
import Shorthand.Proofs.Token.Splice

/-!
Texts that are read as given tokens.

`ReadAs P text ks` says that a text is read as faultless tokens of the kinds `ks` in front of every text of
which `P` holds. It is put together from pieces by `ReadAs.append`, where each piece has to satisfy what
the one before it asks for: a word must not go on, and behind a dot another word must start.

* `readAs_word` reads a word, `readAs_further` the further words of a name and `readAs_name` a whole name.
* `toList_segments` says that a name is its words with dots between them.
-/

namespace Shorthand

open Text (bytes isBlank)

/-- The text is the name of something: it is read as one word, which is not reserved. -/
structure IsIdentifier (word : String) : Prop where
  start : ∃ c cs, word.toList = c :: cs ∧ isIdentStart c = true ∧ isBlank c = false
  continues : ∀ c ∈ word.toList, isIdentContinue c = true
  kind : Lexeme.wordKind word = .ident word

variable {rest read read' : List Char} {pos : Nat} {ps ps' : List (Nat × Lexeme)}

/-- A text is taken apart one part after the other. -/
lemma Taken.append (h : Taken (read' ++ rest) pos read ps)
    (h' : Taken rest (pos + bytes read) read' ps') : Taken rest pos (read ++ read') (ps ++ ps') := by
  induction h with
  | done => exact h'
  | @blank pos c read ps hc h ih =>
    rw [Text.bytes_cons, ← Nat.add_assoc] at h'
    exact .blank hc (ih h')
  | @piece pos c text read ps hc htext h ih =>
    rw [Text.bytes_append, ← Nat.add_assoc] at h'
    rw [← List.append_assoc read] at htext ⊢
    rw [List.append_assoc (c :: text), List.cons_append]
    exact .piece hc htext (ih h')

/-- The kinds of some pieces. -/
def pieceKinds (ps : List (Nat × Lexeme)) : List TokenKind := ps.map (·.2.kind)

/-- The token is neither a comment nor the end of the text. -/
def TokenKind.isSolid (k : TokenKind) : Bool := !k.isTrivia && k != .eof

lemma isSolid_of_inHeader {k : TokenKind} (h : k.inHeader = true) : k.isSolid = true := by
  have hcomment := not_isTrivia_of_inHeader h
  have hend := Parser.ne_eof_of_inHeader h
  rw [TokenKind.isSolid, Bool.and_eq_true, Bool.not_eq_true', bne_iff_ne, ← Bool.not_eq_true]
  exact ⟨hcomment, hend⟩

/-- Where there are no comments a tree is made of the tokens of all pieces. -/
lemma solid_eq_map {ps : List (Nat × Lexeme)} (h : ∀ p ∈ ps, p.2.kind.isSolid = true) :
    solid ps = ps.map fun p => p.2.token p.1 := by
  refine List.filter_eq_self.mpr fun t ht => ?_
  obtain ⟨p, hp, rfl⟩ := List.mem_map.mp ht
  exact h p hp

lemma solid_kinds {ps : List (Nat × Lexeme)} (h : ∀ p ∈ ps, p.2.kind.isSolid = true) :
    (solid ps).map (·.kind) = pieceKinds ps := by
  rw [solid_eq_map h, List.map_map]
  rfl

/-- A piece at the front of a text. -/
lemma Taken.of_scan {c : Char} {text : List Char} {piece : Lexeme} (hc : Text.isBlank c = false)
    (hscan : Lexeme.scan c (text ++ (read ++ rest)) = piece) (htext : piece.text = c :: text)
    (h : Taken rest (pos + bytes (c :: text)) read ps) :
    Taken rest pos (c :: text ++ read) ((pos, piece) :: ps) := by
  subst hscan
  exact .piece hc htext h

/-! ### Texts and tokens -/

/-- In front of every text of which `P` holds a text is read as faultless tokens of some kinds, none of
which is a comment. -/
def ReadAs (P : List Char → Prop) (text : List Char) (ks : List TokenKind) : Prop :=
  ∀ rest, P rest → ∀ pos, ∃ ps, Taken rest pos text ps ∧ pieceKinds ps = ks
    ∧ ∀ p ∈ ps, p.2.problem = none ∧ p.2.kind.isSolid = true

namespace ReadAs

variable {P Q : List Char → Prop} {text text' : List Char} {ks ks' : List TokenKind}

lemma nil : ReadAs P [] [] := fun _ _ _ => ⟨[], .done, rfl, nofun⟩

lemma imp (h : ReadAs P text ks) (hPQ : ∀ rest, Q rest → P rest) : ReadAs Q text ks :=
  fun rest hrest => h rest (hPQ rest hrest)

/-- One text is read behind another one if it can stand there. -/
lemma append (h : ReadAs P text ks) (h' : ReadAs Q text' ks')
    (hP : ∀ rest, Q rest → P (text' ++ rest)) : ReadAs Q (text ++ text') (ks ++ ks') := by
  intro rest hrest pos
  obtain ⟨ps, hps, hkinds, hfine⟩ := h _ (hP rest hrest) pos
  obtain ⟨ps', hps', hkinds', hfine'⟩ := h' rest hrest (pos + bytes text)
  refine ⟨ps ++ ps', hps.append hps', ?_, List.forall_mem_append.mpr ⟨hfine, hfine'⟩⟩
  rw [pieceKinds, List.map_append]
  exact congrArg₂ _ hkinds hkinds'

/-- A space in front of a text makes no difference. -/
lemma space (h : ReadAs P text ks) : ReadAs P (' ' :: text) ks := by
  intro rest hrest pos
  obtain ⟨ps, hps, hkinds⟩ := h rest hrest (pos + ' '.utf8Size)
  exact ⟨ps, .blank rfl hps, hkinds⟩

/-- A text that is taken off as one piece. -/
lemma piece {c : Char} {kind : TokenKind} (hc : isBlank c = false) (hsolid : kind.isSolid = true)
    (hscan : ∀ rest, P rest → Lexeme.scan c (text ++ rest) = ⟨kind, c :: text, none⟩) :
    ReadAs P (c :: text) [kind] := by
  intro rest hrest pos
  have htaken : Taken rest pos (c :: text ++ []) [(pos, ⟨kind, c :: text, none⟩)] :=
    .of_scan hc (hscan rest hrest) rfl .done
  rw [List.append_nil] at htaken
  exact ⟨_, htaken, rfl, List.forall_mem_singleton.mpr ⟨rfl, hsolid⟩⟩

lemma separator {c : Char} {p : Punct} (h : (c, p) ∈ Lexeme.separators) : ReadAs P [c] [.punct p] := by
  have hblank : isBlank c = false := by
    simp only [Lexeme.separators, List.mem_cons, Prod.mk.injEq, List.not_mem_nil, or_false] at h
    rcases h with ⟨rfl, rfl⟩ | ⟨rfl, rfl⟩ | ⟨rfl, rfl⟩ | ⟨rfl, rfl⟩ <;> rfl
  exact .piece hblank rfl fun _ _ => Lexeme.scan_separator h

/-- Texts with a separator between them are read one behind the other. -/
lemma intercalate {sep : List Char} {between : List TokenKind} (hsep : ReadAs (fun _ => True) sep between)
    (hP : ∀ rest, P (sep ++ rest)) {texts : List (List Char)} {kinds : List (List TokenKind)}
    (h : List.Forall₂ (ReadAs P) texts kinds) :
    ReadAs P (sep.intercalate texts) (between.intercalate kinds) := by
  induction h with
  | nil => exact .nil
  | @cons text ks texts kinds htext htexts ih =>
    cases htexts with
    | nil => simpa using htext
    | cons htext' htexts =>
      rw [List.intercalate_cons_cons, List.intercalate_cons_cons]
      have hfront := htext.append hsep fun rest _ => hP rest
      exact hfront.append ih fun _ _ => trivial

end ReadAs

/-! ### Words and names -/

/-- A word is read where it does not go on. -/
lemma readAs_word {word : String}
    (hstart : ∃ c cs, word.toList = c :: cs ∧ isIdentStart c = true ∧ isBlank c = false)
    (hall : ∀ c ∈ word.toList, isIdentContinue c = true) :
    ReadAs (Lexeme.Stops isIdentContinue) word.toList [Lexeme.wordKind word] := by
  obtain ⟨c, cs, hcs, hident, hblank⟩ := hstart
  rw [hcs] at hall ⊢
  have hsolid : (Lexeme.wordKind word).isSolid = true := by
    rw [Lexeme.wordKind]
    split
    · rfl
    · split
      · rfl
      · cases Keyword.ofSpelling? word <;> rfl
  refine .piece hblank hsolid fun rest hrest => ?_
  rw [Lexeme.scan_word hident hall hrest, ← hcs, String.ofList_toList]

lemma IsIdentifier.readAs {word : String} (h : IsIdentifier word) :
    ReadAs (Lexeme.Stops isIdentContinue) word.toList [.ident word] := by
  rw [← h.kind]
  exact readAs_word h.start h.continues

/-- The text of the further words of a name. -/
def furtherText (words : List String) : List Char := words.flatMap fun word => '.' :: word.toList

lemma stops_further (words : List String) (h : Lexeme.Stops isIdentContinue rest) :
    Lexeme.Stops isIdentContinue (furtherText words ++ rest) := by
  cases words with
  | nil => exact h
  | cons word words =>
    rintro c ⟨⟩
    rfl

lemma scan_dot_word {word : String} (hword : IsIdentifier word) (cs : List Char) :
    Lexeme.scan '.' (word.toList ++ cs) = ⟨.punct .dot, ['.'], none⟩ := by
  obtain ⟨c, text, htext, hstart, -⟩ := hword.start
  obtain ⟨hdigit, hdot⟩ := Lexeme.not_isDigit_of_isIdentStart hstart
  rw [htext, List.cons_append]
  refine Lexeme.scan_dot ?_ ?_
  · rintro d ⟨⟩
    exact hdigit
  · rintro ⟨more, hmore⟩
    exact hdot (List.cons.inj hmore).1.symm

/-- The further words of a name are read as dots and words. -/
lemma readAs_further {words : List String} (hwords : ∀ word ∈ words, IsIdentifier word) :
    ReadAs (Lexeme.Stops isIdentContinue) (furtherText words) (furtherKinds words) := by
  induction words with
  | nil => exact .nil
  | cons word words ih =>
    have hword := hwords word List.mem_cons_self
    have hrest := ih fun w hw => hwords w (List.mem_cons_of_mem _ hw)
    have hdot : ReadAs (fun rest => ∃ cs, rest = word.toList ++ cs) ['.'] [.punct .dot] := by
      refine .piece rfl rfl ?_
      rintro _ ⟨cs, rfl⟩
      exact scan_dot_word hword cs
    have hnext := hword.readAs.append hrest fun rest hrest => stops_further words hrest
    exact hdot.append hnext fun rest _ => ⟨furtherText words ++ rest, List.append_assoc ..⟩

/-- A name of identifiers is read as its words with dots between them. -/
lemma readAs_name {first : String} {words : List String}
    (hwords : ∀ word ∈ first :: words, IsIdentifier word) :
    ReadAs (Lexeme.Stops isIdentContinue) (first.toList ++ furtherText words)
      (.ident first :: furtherKinds words) := by
  have hfurther := readAs_further fun word hw => hwords word (List.mem_cons_of_mem _ hw)
  exact (hwords first List.mem_cons_self).readAs.append hfurther fun rest hrest =>
    stops_further words hrest

lemma intercalate_words (first : String) (words : List String) :
    ['.'].intercalate ((first :: words).map String.toList) = first.toList ++ furtherText words := by
  induction words generalizing first with
  | nil => simp [furtherText]
  | cons word words ih =>
    rw [List.map_cons, List.map_cons, List.intercalate_cons_cons, ← List.map_cons, ih, furtherText,
      furtherText, List.flatMap_cons]
    simp

/-- The name of a type has a word. -/
lemma segments_eq_cons (name : String) : ∃ first words, Ty.segments name = first :: words :=
  List.exists_cons_of_ne_nil (List.map_eq_nil_iff.not.mpr (List.splitOn_ne_nil _ _))

/-- The name of a type is its words with dots between them. -/
lemma toList_segments {name first : String} {words : List String}
    (h : Ty.segments name = first :: words) : name.toList = first.toList ++ furtherText words := by
  have hparts : (name.toList.splitOn '.').map String.ofList = first :: words := h
  have hchars : (first :: words).map String.toList = name.toList.splitOn '.' := by
    rw [← hparts, List.map_map]
    simp
  rw [← intercalate_words, hchars, List.intercalate_splitOn]

end Shorthand
