import Mathlib.Data.List.TakeWhile
import Shorthand.Proofs.Token.Tiling

/-!
How far a piece looks ahead.

A text may go on as another one does up to some place and with a new line from there on (`GoesOn`). A
new line makes no word, dot, star or semicolon longer, and no comment, so such a piece is taken off the
one text as off the other.

* `scan_of_isIdentStart`, `scan_dot`, `scan_star` and `scan_semi` are the pieces of which imports are
  made.
* `scan_goesOn`: such a piece is the same in both texts.
-/

namespace Shorthand

/-- The tokens of which the package and the imports of a text are made. -/
def TokenKind.inHeader : TokenKind → Bool
  | .keyword _ | .ident _ => true
  | .punct p => p ∈ [.dot, .star, .semi]
  | _ => false

namespace Lexeme

variable {c : Char} {cs text rest rest' : List Char}

/-! ### Texts that go on alike -/

/-- The second text goes on as the first does, and then perhaps with a new line instead. -/
inductive GoesOn : List Char → List Char → Prop
  | newline (rest more : List Char) : GoesOn rest ('\n' :: more)
  | cons {rest rest' : List Char} (c : Char) (h : GoesOn rest rest') : GoesOn (c :: rest) (c :: rest')

lemma goesOn_append (read rest more : List Char) : GoesOn (read ++ rest) (read ++ '\n' :: more) := by
  induction read with
  | nil => exact .newline rest more
  | cons c read ih => exact .cons c ih

/-- The first character of a text, if it has one, is none of some characters. -/
def Stops (p : Char → Bool) (cs : List Char) : Prop := ∀ c, cs.head? = some c → p c = false

lemma GoesOn.stops {p : Char → Bool} (h : GoesOn rest rest') (hp : p '\n' = false)
    (hrest : Stops p rest) : Stops p rest' := by
  cases h with
  | newline =>
    rintro c ⟨⟩
    exact hp
  | cons d => exact fun c hc => hrest c hc

/-- A run of characters ends where the text stops. -/
lemma takeWhile_of_stops {p : Char → Bool} {xs : List Char} (hxs : ∀ x ∈ xs, p x = true)
    (hrest : Stops p rest) : (xs ++ rest).takeWhile p = xs := by
  rw [List.takeWhile_append_of_pos hxs]
  cases rest with
  | nil => simp
  | cons d ds => simp [hrest d rfl]

/-- A text stops behind a run of characters. -/
lemma stops_of_takeWhile {p : Char → Bool} {xs : List Char}
    (h : (xs ++ rest).takeWhile p = xs) : Stops p rest := by
  intro d hd
  obtain ⟨ds, rfl⟩ : ∃ ds, rest = d :: ds := by
    cases rest with
    | nil => cases hd
    | cons e es => exact ⟨es, by rw [Option.some.inj hd]⟩
  have hxs : ∀ x ∈ xs, p x = true := by
    rw [← h]
    exact fun x hx => List.mem_takeWhile_imp hx
  by_contra hp
  rw [List.takeWhile_append_of_pos hxs, List.takeWhile_cons, if_pos (by simpa using hp)] at h
  simp at h

/-! ### Words -/

/-- Letters come behind the digits. -/
lemma le_of_isAlpha (h : c.isAlpha = true) : 65 ≤ c.val.toNat := by
  change (decide (c.val ≥ 'A'.val ∧ c.val ≤ 'Z'.val)
    || (decide (c.val ≥ 'a'.val) && decide (c.val ≤ 'z'.val))) = true at h
  simp only [Bool.or_eq_true, Bool.and_eq_true, decide_eq_true_eq, ge_iff_le,
    UInt32.le_iff_toNat_le] at h
  rcases h with h | h
  · exact h.1
  · have : (97 : Nat) ≤ c.val.toNat := h.1
    omega

lemma not_isDigit_of_isIdentStart (h : isIdentStart c = true) : c.isDigit = false ∧ c ≠ '.' := by
  constructor
  · by_contra hd
    have hd : c.isDigit = true := by simpa using hd
    have hsmall : c.val.toNat ≤ 57 ∧ 48 ≤ c.val.toNat := by
      simp only [Char.isDigit, Bool.and_eq_true, decide_eq_true_eq, ge_iff_le,
        UInt32.le_iff_toNat_le] at hd
      exact ⟨hd.2, hd.1⟩
    have hsize : c.utf8Size = 1 := by
      rw [Char.utf8Size_eq_one_iff, UInt32.le_iff_toNat_le]
      exact Nat.le_trans hsmall.1 (by decide)
    simp only [isIdentStart, isWide, hsize, Bool.or_eq_true, beq_iff_eq] at h
    rcases h with ((rfl | rfl) | h) | h
    · exact absurd hd (by decide)
    · exact absurd hd (by decide)
    · have := le_of_isAlpha h
      omega
    · exact absurd h (by decide)
  · rintro rfl
    exact absurd h (by decide)

lemma scan_of_isIdentStart (h : isIdentStart c = true) : scan c cs = word (c :: cs) := by
  obtain ⟨hdigit, hdot⟩ := not_isDigit_of_isIdentStart h
  rw [scan.eq_def]
  split
  · exact absurd h (by decide)
  · exact absurd h (by decide)
  · exact absurd h (by decide)
  · exact absurd h (by decide)
  · simp [hdigit, hdot, h]

/-- A word is taken off a text in which it has ended. -/
lemma scan_word (h : isIdentStart c = true) (hall : ∀ x ∈ c :: text, isIdentContinue x = true)
    (hrest : Stops isIdentContinue rest) :
    scan c (text ++ rest) = ⟨wordKind (String.ofList (c :: text)), c :: text, none⟩ := by
  rw [scan_of_isIdentStart h, ← List.cons_append, word, takeWhile_of_stops hall hrest]

/-! ### Separators -/

/-- A piece that opens neither a comment, a literal, a number nor a word is an operator. -/
lemma scan_operator {p : Punct} (hslash : c ≠ '/') (hquote : c ≠ '"' ∧ c ≠ '\'')
    (hdigit : (c.isDigit || (c == '.' && rest.head?.any Char.isDigit)) = false)
    (hident : isIdentStart c = false)
    (hsign : compoundOperators.contains c = false ∨ Stops (· == '=') rest)
    (h : operator?.plain (c :: rest) = some ⟨.punct p, p.chars, none⟩) :
    scan c rest = ⟨.punct p, p.chars, none⟩ := by
  have hop : operator? (c :: rest) = some ⟨.punct p, p.chars, none⟩ := by
    rw [operator?.eq_def]
    split
    · next d ds heq =>
      obtain ⟨rfl, rfl⟩ := List.cons.inj heq
      rcases hsign with hsign | hsign
      · rw [hsign, if_neg Bool.false_ne_true, h]
      · exact absurd (hsign '=' rfl) (by decide)
    · exact h
  rw [scan.eq_def]
  split
  · exact absurd rfl hslash
  · exact absurd rfl hslash
  · exact absurd rfl hquote.1
  · exact absurd rfl hquote.2
  · rw [hdigit, hident, hop]
    rfl

lemma plain_eq {p : Punct} (h : Punct.all.find? (·.chars.isPrefixOf cs) = some p) :
    operator?.plain cs = some ⟨.punct p, p.chars, none⟩ := by
  rw [operator?.plain, h]
  rfl

/-- The separators that start no operator. -/
def separators : List (Char × Punct) :=
  [(';', .semi), (',', .comma), ('(', .openParen), (')', .closeParen)]

/-- A separator is taken off whatever follows it. -/
lemma scan_separator {p : Punct} (h : (c, p) ∈ separators) : scan c rest = ⟨.punct p, [c], none⟩ := by
  simp only [separators, List.mem_cons, Prod.mk.injEq, List.not_mem_nil, or_false] at h
  rcases h with ⟨rfl, rfl⟩ | ⟨rfl, rfl⟩ | ⟨rfl, rfl⟩ | ⟨rfl, rfl⟩
  all_goals
    refine scan_operator (by decide) (by decide) rfl rfl (.inl rfl) (plain_eq ?_)
    simp [Punct.all, Punct.chars, List.isPrefixOf]

lemma scan_semi : scan ';' rest = ⟨.punct .semi, [';'], none⟩ := scan_separator (by decide)

lemma scan_star (hrest : Stops (· == '=') rest) : scan '*' rest = ⟨.punct .star, ['*'], none⟩ := by
  refine scan_operator (p := .star) (by decide) (by decide) rfl rfl (.inr hrest) (plain_eq ?_)
  simp [Punct.all, Punct.chars, List.isPrefixOf]

lemma scan_dot (hdigit : Stops Char.isDigit rest) (hdots : ¬ ['.', '.'] <+: rest) :
    scan '.' rest = ⟨.punct .dot, ['.'], none⟩ := by
  have hany : rest.head?.any Char.isDigit = false := by
    cases rest with
    | nil => rfl
    | cons d ds => exact hdigit d rfl
  have hprefix : ['.', '.'].isPrefixOf rest = false := by
    rw [Bool.eq_false_iff]
    exact fun h => hdots (List.isPrefixOf_iff_prefix.mp h)
  refine scan_operator (p := .dot) (by decide) (by decide) (by rw [hany]; rfl) rfl (.inl rfl)
    (plain_eq ?_)
  simp [Punct.all, Punct.chars, hprefix]

/-! ### Pieces of two texts -/

lemma operator?_kind {piece : Lexeme} (h : operator? cs = some piece) :
    (∃ p, piece.kind = .punct p) ∨ ∃ spelling, piece.kind = .compoundAssign spelling := by
  have hplain (h : operator?.plain cs = some piece) : ∃ p, piece.kind = .punct p := by
    obtain ⟨p, -, rfl⟩ := Option.map_eq_some_iff.mp h
    exact ⟨p, rfl⟩
  rw [operator?.eq_def] at h
  split at h
  · split at h
    · obtain rfl := Option.some.inj h
      exact .inr ⟨_, rfl⟩
    · exact .inl (hplain h)
  · exact .inl (hplain h)

lemma isIdentStart_of_scan {k : TokenKind} (h : (scan c cs).kind = k)
    (hk : (∃ name, k = .ident name) ∨ ∃ keyword, k = .keyword keyword) : isIdentStart c = true := by
  subst h
  by_contra hident
  rw [Bool.not_eq_true] at hident
  have hscan := scan.eq_def c cs
  split at hscan
  · simp [hscan, lineComment] at hk
  · rw [hscan, blockComment] at hk
    split at hk <;> simp at hk
  · rw [hscan, quoted] at hk
    split at hk <;> simp at hk
  · rw [hscan, quoted] at hk
    split at hk <;> simp at hk
  · rw [hident] at hscan
    split at hscan
    · simp [hscan, number] at hk
    · rw [if_neg Bool.false_ne_true] at hscan
      cases hop : operator? (c :: cs) with
      | none => simp [hscan, hop] at hk
      | some piece =>
        rw [hscan, hop, Option.getD_some] at hk
        rcases operator?_kind hop with ⟨p, hp⟩ | ⟨spelling, hspelling⟩
        · simp [hp] at hk
        · simp [hspelling] at hk

/-- Behind a dot neither a digit nor two more dots follow. -/
lemma of_scan_dot (h : (scan '.' rest).kind = .punct .dot) :
    Stops Char.isDigit rest ∧ ¬ ['.', '.'] <+: rest := by
  constructor
  · intro d hd
    cases rest with
    | nil => cases hd
    | cons e ds =>
      obtain rfl := Option.some.inj hd
      by_contra hdigit
      rw [Bool.not_eq_false] at hdigit
      simp [scan, hdigit, number] at h
  · rintro ⟨more, rfl⟩
    cases h

/-- Behind a star no assignment follows. -/
lemma of_scan_star (h : (scan '*' rest).kind = .punct .star) : Stops (· == '=') rest := by
  intro d hd
  cases rest with
  | nil => cases hd
  | cons e ds =>
    obtain rfl := Option.some.inj hd
    by_contra heq
    obtain rfl : e = '=' := by simpa using heq
    cases h

lemma GoesOn.not_dots (h : GoesOn rest rest') (hdots : ¬ ['.', '.'] <+: rest) :
    ¬ ['.', '.'] <+: rest' := by
  rintro ⟨more, rfl⟩
  rcases h with _ | ⟨_, h⟩
  rcases h with _ | ⟨_, h⟩
  exact hdots ⟨_, rfl⟩

/-- A piece of which imports are made is the same in a text that goes on with a new line. -/
theorem scan_goesOn (htext : (scan c (text ++ rest)).text = c :: text)
    (hk : (scan c (text ++ rest)).kind.inHeader = true) (h : GoesOn rest rest') :
    scan c (text ++ rest') = scan c (text ++ rest) := by
  have hword (hk : (∃ name, (scan c (text ++ rest)).kind = .ident name)
      ∨ ∃ keyword, (scan c (text ++ rest)).kind = .keyword keyword) :
      scan c (text ++ rest') = scan c (text ++ rest) := by
    have hident := isIdentStart_of_scan rfl hk
    rw [scan_of_isIdentStart hident, ← List.cons_append] at htext
    have hall : ∀ x ∈ c :: text, isIdentContinue x = true := by
      rw [← htext]
      exact fun x hx => List.mem_takeWhile_imp hx
    have hstops : Stops isIdentContinue rest := stops_of_takeWhile htext
    rw [scan_word hident hall hstops, scan_word hident hall (h.stops rfl hstops)]
  have hwritten := scan_written c (text ++ rest)
  rw [htext] at hwritten
  cases hkind : (scan c (text ++ rest)).kind with
  | keyword k => exact hword (.inr ⟨k, hkind⟩)
  | ident name => exact hword (.inl ⟨name, hkind⟩)
  | punct p =>
    have hchars : p.chars = c :: text := hwritten _ (by rw [hkind]; rfl)
    rw [hkind] at hk
    have hp : p = .dot ∨ p = .star ∨ p = .semi := by simpa [TokenKind.inHeader] using hk
    rcases hp with rfl | rfl | rfl
    · obtain ⟨rfl, rfl⟩ := List.cons.inj hchars
      obtain ⟨hdigit, hdots⟩ := of_scan_dot hkind
      rw [List.nil_append] at hdigit hdots
      rw [List.nil_append, List.nil_append, scan_dot hdigit hdots,
        scan_dot (h.stops rfl hdigit) (h.not_dots hdots)]
    · obtain ⟨rfl, rfl⟩ := List.cons.inj hchars
      have hstops : Stops (· == '=') rest := of_scan_star hkind
      rw [List.nil_append, List.nil_append, scan_star hstops, scan_star (h.stops rfl hstops)]
    · obtain ⟨rfl, rfl⟩ := List.cons.inj hchars
      rw [List.nil_append, List.nil_append, scan_semi, scan_semi]
  | _ =>
    rw [hkind] at hk
    cases hk

/-! ### Comments -/

/-- The text of a block comment ends where it first can. -/
lemma beforeClose_again {body inner : List Char} (h : beforeClose body = some inner) :
    beforeClose (inner ++ '*' :: '/' :: rest) = some inner := by
  induction body generalizing inner with
  | nil => cases h
  | cons d ds ih =>
    rw [beforeClose.eq_def] at h
    split at h
    · obtain rfl := Option.some.inj h
      rfl
    · next e es hne heq =>
      obtain ⟨rfl, rfl⟩ := List.cons.inj heq
      obtain ⟨inner', hinner, rfl⟩ := Option.map_eq_some_iff.mp h
      have hrest := ih hinner
      rw [List.cons_append, beforeClose.eq_def]
      split
      · next more heq =>
        -- The text would have ended here before.
        obtain ⟨rfl, hmore⟩ := List.cons.inj heq
        obtain ⟨after, rfl⟩ := beforeClose_starts hinner
        exfalso
        cases inner' with
        | nil => cases hmore
        | cons d inner' =>
          obtain ⟨rfl, -⟩ := List.cons.inj hmore
          exact hne _ rfl rfl
      · next heq =>
        obtain ⟨rfl, rfl⟩ := List.cons.inj heq
        rw [hrest]
        rfl
      · next heq => cases heq
    · cases h

/-- A line comment is told by the rest of its line. -/
lemma lineComment_congr {cs' : List Char}
    (h : cs.takeWhile (· != '\n') = cs'.takeWhile (· != '\n')) :
    lineComment cs = lineComment cs' := by
  rw [lineComment, lineComment, h]

lemma isTrivia_wordKind (word : String) : (wordKind word).isTrivia = false := by
  rw [wordKind]
  split
  · rfl
  split
  · rfl
  split <;> rfl

lemma isTrivia_operator (cs : List Char) {otherwise : Lexeme}
    (h : otherwise.kind.isTrivia = false) :
    ((operator? cs).getD otherwise).kind.isTrivia = false := by
  cases hop : operator? cs with
  | none => exact h
  | some piece =>
    rw [Option.getD_some]
    rcases operator?_kind hop with ⟨p, hp⟩ | ⟨spelling, hspelling⟩
    · rw [hp]
      rfl
    · rw [hspelling]
      rfl

/-- No piece is the end of the text. -/
lemma scan_ne_eof (c : Char) (cs : List Char) : (scan c cs).kind ≠ .eof := by
  have hword (word : String) : wordKind word ≠ .eof := by
    rw [wordKind]
    split
    · rintro ⟨⟩
    split
    · rintro ⟨⟩
    split <;> rintro ⟨⟩
  have hoperator : ((operator? (c :: cs)).getD ⟨.unknown, [c], some s!"unexpected char '{c}'"⟩).kind
      ≠ .eof := by
    cases hop : operator? (c :: cs) with
    | none => rintro ⟨⟩
    | some piece =>
      rw [Option.getD_some]
      rcases operator?_kind hop with ⟨p, hp⟩ | ⟨spelling, hspelling⟩
      · rw [hp]
        rintro ⟨⟩
      · rw [hspelling]
        rintro ⟨⟩
  rw [scan.eq_def]
  split
  · rintro ⟨⟩
  · rw [blockComment]
    split <;> rintro ⟨⟩
  · rw [quoted]
    split <;> rintro ⟨⟩
  · rw [quoted]
    split <;> rintro ⟨⟩
  · split
    · rintro ⟨⟩
    · split
      · exact hword _
      · exact hoperator

/-- A comment behind which the text goes on is the same in a text that goes on with a new line. -/
theorem scan_goesOn_comment (htext : (scan c (text ++ rest)).text = c :: text)
    (hk : (scan c (text ++ rest)).kind.isTrivia = true) (hne : rest ≠ []) (h : GoesOn rest rest') :
    scan c (text ++ rest') = scan c (text ++ rest) := by
  have hscan := scan.eq_def c (text ++ rest)
  split at hscan
  · next ds heq =>
    have hrun : ('/' :: text ++ rest).takeWhile (· != '\n') = '/' :: text := by
      rw [hscan] at htext
      exact htext
    have hall : ∀ x ∈ '/' :: text, (x != '\n') = true := by
      rw [← hrun]
      exact fun x hx => List.mem_takeWhile_imp (p := (· != '\n')) hx
    have hrun' : ('/' :: text ++ rest').takeWhile (· != '\n') = '/' :: text :=
      takeWhile_of_stops hall (h.stops rfl (stops_of_takeWhile hrun))
    -- The comment has both of its slashes.
    obtain ⟨text, rfl⟩ : ∃ tail, text = '/' :: tail := by
      rw [List.cons_append, heq] at hrun
      simp only [List.takeWhile_cons] at hrun
      exact ⟨_, (List.cons.inj hrun).2.symm⟩
    rw [hscan, List.cons_append]
    exact lineComment_congr (hrun'.trans hrun.symm)
  · next body heq =>
    rw [hscan, blockComment] at htext
    rw [hscan, blockComment]
    split at htext
    · next inner hinner =>
      obtain rfl : '*' :: inner ++ ['*', '/'] = text := (List.cons.inj htext).2
      have hagain := @beforeClose_again rest' _ _ hinner
      show blockComment ((inner ++ ['*', '/']) ++ rest') = _
      rw [List.append_assoc, blockComment, List.cons_append, List.singleton_append, hagain]
    · next hnone =>
      -- A comment that is not closed reaches to the end of the text.
      have hlength := congrArg List.length (List.cons.inj htext).2
      rw [← heq, List.length_append] at hlength
      exact absurd (List.length_eq_zero_iff.mp (by omega)) hne
  · rw [hscan, quoted] at hk
    split at hk <;> cases hk
  · rw [hscan, quoted] at hk
    split at hk <;> cases hk
  · rw [hscan] at hk
    split at hk
    · cases hk
    · split at hk
      · rw [word, isTrivia_wordKind] at hk
        cases hk
      · rw [isTrivia_operator _ rfl] at hk
        cases hk

end Lexeme

end Shorthand
