import Mathlib.Data.List.TakeWhile
import Mathlib.Tactic.Common
import Shorthand.Model.Typing
import Shorthand.Proofs.Reading.After
import Shorthand.Proofs.Token.Lookahead

/-!
The types of numbers.

The kind of a number is decided while its characters are read. The tree does not keep it, and the type of a
number is read off its spelling again. `IsNumber` says how the numbers of each kind are spelled, so that the
two can be compared without a word on how a text is read: in a hexadecimal number the letters `d`, `e` and
`f` are digits, and in all others no letter stands before the last character.

* `number_isNumber`: what is read as a number is spelled as one of its kind.
* `IsNumber.numericTy?_eq`: the type that belongs to the kind of a number is read off its spelling.
* `lex_tyOf_primary`: so the numbers in a text have the types that belong to the kinds of their tokens.
-/

namespace Shorthand

/-- The type of the numbers of a kind. -/
def LiteralKind.numericTy? : LiteralKind → Option Primitive
  | int => some .int
  | long => some .long
  | float => some .float
  | double => some .double
  | character | string | boolean | null => none

/-! ### The spellings of numbers -/

/-- The character is a digit, or stands between digits. -/
def isDecimal (c : Char) : Bool := c.isDigit || c == '_' || c == '.'

/-- The character is a hexadecimal digit, or stands between such digits. -/
def isHex (c : Char) : Bool := isHexDigit c || c == '_'

/-- The text is spelled as a number of a kind. -/
inductive IsNumber : LiteralKind → List Char → Prop
  | hex {x : Char} {ds : List Char} (hx : x = 'x' ∨ x = 'X') (hds : ∀ d ∈ ds, isHex d = true) :
    IsNumber .int ('0' :: x :: ds)
  | hexLong {x c : Char} {ds : List Char} (hx : x = 'x' ∨ x = 'X') (hds : ∀ d ∈ ds, isHex d = true)
      (hc : c = 'l' ∨ c = 'L') : IsNumber .long ('0' :: x :: ds ++ [c])
  | whole {ds : List Char} (hds : ∀ d ∈ ds, isDecimal d = true) (hpoint : '.' ∉ ds) : IsNumber .int ds
  | fraction {ds : List Char} (hds : ∀ d ∈ ds, isDecimal d = true) (hpoint : '.' ∈ ds) :
    IsNumber .double ds
  | suffixed {kind : LiteralKind} {c : Char} {ds : List Char} (hds : ∀ d ∈ ds, isDecimal d = true)
      (hc : Lexeme.suffixKind? c = some kind) : IsNumber kind (ds ++ [c])

namespace Lexeme

variable {c : Char} {cs : List Char} {kind : LiteralKind}

lemma suffixKind?_eq_some (h : suffixKind? c = some kind) :
    (c = 'l' ∨ c = 'L') ∧ kind = .long ∨ (c = 'f' ∨ c = 'F') ∧ kind = .float
      ∨ (c = 'd' ∨ c = 'D') ∧ kind = .double := by
  rw [suffixKind?] at h
  split_ifs at h with hlong hfloat hdouble
  all_goals simp only [Bool.or_eq_true, decide_eq_true_eq] at *
  · exact .inl ⟨hlong.symm, (Option.some.inj h).symm⟩
  · exact .inr (.inl ⟨hfloat, (Option.some.inj h).symm⟩)
  · exact .inr (.inr ⟨hdouble, (Option.some.inj h).symm⟩)

/-- A fraction is a point with digits behind it. -/
lemma fraction_decimal {part : List Char} (h : fraction cs = some part) :
    (∀ d ∈ part, isDecimal d = true) ∧ '.' ∈ part := by
  rw [fraction.eq_def] at h
  split at h
  · obtain rfl := Option.some.inj h
    exact ⟨List.forall_mem_singleton.mpr rfl, List.mem_singleton_self '.'⟩
  · next c cs =>
    split at h
    · obtain rfl := Option.some.inj h
      refine ⟨List.forall_mem_cons.mpr ⟨by decide, fun d hd => ?_⟩, List.mem_cons_self⟩
      rw [isDecimal, List.mem_takeWhile_imp hd]
      rfl
    · cases h
  · cases h

/-- The digits behind the start of a hexadecimal number are all that follow. -/
lemma stops_hex (x : Char) (cs : List Char) :
    Stops isHex (('0' :: x :: cs).drop ('0' :: x :: cs.takeWhile isHex).length) := by
  obtain ⟨rest, hrest⟩ := List.takeWhile_prefix isHex (l := cs)
  have hdrop : ('0' :: x :: cs).drop ('0' :: x :: cs.takeWhile isHex).length = rest := by
    calc ('0' :: x :: cs).drop ('0' :: x :: cs.takeWhile isHex).length
        = cs.drop (cs.takeWhile isHex).length := rfl
      _ = (cs.takeWhile isHex ++ rest).drop (cs.takeWhile isHex).length := by rw [hrest]
      _ = rest := List.drop_left
  rw [hdrop]
  exact stops_of_takeWhile (by rw [hrest])

/-- The digits of a number are hexadecimal, and no such digit follows, or they are decimal, and a point among
them tells a fraction. -/
lemma digits_cases (cs : List Char) :
    (∃ x ds, digits cs = ('0' :: x :: ds, .int) ∧ (x = 'x' ∨ x = 'X') ∧ (∀ d ∈ ds, isHex d = true)
        ∧ Stops isHex (cs.drop (digits cs).1.length))
      ∨ (∀ d ∈ (digits cs).1, isDecimal d = true) ∧ IsNumber (digits cs).2 (digits cs).1 := by
  rw [digits.eq_def]
  split
  · next cs =>
    exact .inl ⟨'x', _, rfl, .inl rfl, fun d hd => List.mem_takeWhile_imp hd, stops_hex 'x' cs⟩
  · next cs =>
    exact .inl ⟨'X', _, rfl, .inr rfl, fun d hd => List.mem_takeWhile_imp hd, stops_hex 'X' cs⟩
  · have hdigit : ∀ d ∈ cs.takeWhile (fun c => c.isDigit || c == '_'), (d.isDigit || d == '_') = true :=
      fun d hd => List.mem_takeWhile_imp (p := fun c => c.isDigit || c == '_') hd
    have hdecimal : ∀ d ∈ cs.takeWhile (fun c => c.isDigit || c == '_'), isDecimal d = true := by
      intro d hd
      rw [isDecimal, hdigit d hd]
      rfl
    dsimp only
    split
    · next part hpart =>
      obtain ⟨hds, hpoint⟩ := fraction_decimal hpart
      have hall := List.forall_mem_append.mpr ⟨hdecimal, hds⟩
      exact .inr ⟨hall, .fraction hall (List.mem_append_right _ hpoint)⟩
    · have hpoint : '.' ∉ cs.takeWhile fun c => c.isDigit || c == '_' := fun hmem =>
        absurd (hdigit '.' hmem) (by decide)
      exact .inr ⟨hdecimal, .whole hdecimal hpoint⟩

/-- What is read as a number is spelled as one of its kind. -/
theorem number_isNumber (cs : List Char) :
    ∃ kind, (number cs).kind = .literal kind (String.ofList (number cs).text)
      ∧ IsNumber kind (number cs).text := by
  have hplain : IsNumber (digits cs).2 (digits cs).1 := by
    rcases digits_cases cs with ⟨x, ds, heq, hx, hds, -⟩ | ⟨-, hnumber⟩
    · rw [heq]
      exact .hex hx hds
    · exact hnumber
  rw [number]
  dsimp only
  split
  · next c rest hdrop =>
    cases hc : suffixKind? c with
    | none => exact ⟨_, rfl, hplain⟩
    | some kind =>
      refine ⟨kind, rfl, ?_⟩
      rcases digits_cases cs with ⟨x, ds, heq, hx, hds, hstops⟩ | ⟨hds, -⟩
      · -- The letters for the other kinds would have been read as digits.
        have hhex : isHex c = false := hstops c (by rw [hdrop]; rfl)
        have hlong : (c = 'l' ∨ c = 'L') ∧ kind = .long := by
          rcases suffixKind?_eq_some hc with h | ⟨rfl | rfl, -⟩ | ⟨rfl | rfl, -⟩
          · exact h
          all_goals cases hhex
        rw [heq, hlong.2]
        exact .hexLong hx hds hlong.1
      · exact .suffixed hds hc
  · exact ⟨_, rfl, hplain⟩

/-- A piece that is a literal of a kind of numbers is spelled as one. -/
lemma isNumber_of_scan {spelling : String} {p : Primitive}
    (h : (scan c cs).kind = .literal kind spelling) (hp : kind.numericTy? = some p) :
    IsNumber kind spelling.toList := by
  have hquoted {kind' : LiteralKind} {problem : String} {quote : Char} (hkind' : kind'.numericTy? = none)
      (hquote : (quoted kind' problem quote cs).kind = .literal kind spelling) :
      IsNumber kind spelling.toList := by
    rw [quoted] at hquote
    split at hquote
    all_goals
      obtain ⟨rfl, -⟩ := TokenKind.literal.inj hquote
      rw [hkind'] at hp
      cases hp
  rw [scan.eq_def] at h
  split at h
  · cases h
  · rw [blockComment] at h
    split at h <;> cases h
  · exact hquoted rfl h
  · exact hquoted rfl h
  · split at h
    · obtain ⟨kind', hkind', hnumber⟩ := number_isNumber (c :: cs)
      obtain ⟨rfl, rfl⟩ := TokenKind.literal.inj (hkind'.symm.trans h)
      rwa [String.toList_ofList]
    · split at h
      · -- The words that are literals are no numbers.
        rw [word, wordKind] at h
        split_ifs at h
        · obtain ⟨rfl, -⟩ := TokenKind.literal.inj h
          cases hp
        · obtain ⟨rfl, -⟩ := TokenKind.literal.inj h
          cases hp
        · split at h <;> cases h
      · cases hop : operator? (c :: cs) with
        | none =>
          rw [hop] at h
          cases h
        | some piece =>
          rw [hop, Option.getD_some] at h
          rcases operator?_kind hop with ⟨p, hp⟩ | ⟨spelling, hspelling⟩
          · rw [hp] at h
            cases h
          · rw [hspelling] at h
            cases h

end Lexeme

/-! ### The type of a spelling -/

lemma toLower_of_isDecimal {c : Char} (h : isDecimal c = true) : c.toLower = c := by
  have hupper : ¬ ('A'.val ≤ c.val ∧ c.val ≤ 'Z'.val) := by
    simp only [isDecimal, Bool.or_eq_true, beq_iff_eq] at h
    rcases h with (h | rfl) | rfl
    · simp only [Char.isDigit, Bool.and_eq_true, decide_eq_true_eq] at h
      rintro ⟨hlo, -⟩
      exact absurd (UInt32.le_trans hlo h.2) (by decide)
    · decide
    · decide
  exact dif_neg hupper

lemma map_toLower_of_isDecimal {ds : List Char} (h : ∀ d ∈ ds, isDecimal d = true) :
    ds.map Char.toLower = ds := by
  calc ds.map Char.toLower
      = ds.map id := List.map_congr_left fun d hd => toLower_of_isDecimal (h d hd)
    _ = ds := List.map_id ds

lemma eq_of_toLower_eq {c : Char} (h : c.toLower = 'l') : c = 'l' ∨ c = 'L' := by
  by_cases hupper : 'A'.val ≤ c.val ∧ c.val ≤ 'Z'.val
  · obtain ⟨hvalid, heq⟩ : ∃ hvalid, c.toLower = ⟨c.val + ('a'.val - 'A'.val), hvalid⟩ :=
      ⟨_, dif_pos hupper⟩
    have hval : c.val + ('a'.val - 'A'.val) = 'l'.val := congrArg Char.val (heq.symm.trans h)
    have hback : c.val = 'l'.val - ('a'.val - 'A'.val) := by rw [← hval, UInt32.add_sub_cancel]
    exact .inr (Char.ext hback)
  · have hsame : c.toLower = c := dif_neg hupper
    exact .inl (hsame ▸ h)

lemma endsWith_concat (c last : Char) (text : List Char) : endsWith c (text ++ [last]) = (last == c) := by
  rw [endsWith, List.getLast?_concat]
  rfl

lemma endsWith_of_not_mem {c : Char} {text : List Char} (h : c ∉ text) : endsWith c text = false := by
  rw [endsWith, beq_eq_false_iff_ne]
  exact fun hlast => h (List.mem_of_getLast? hlast)

lemma not_hex_of_not_mem {text : List Char} (h : 'x' ∉ text) : ['0', 'x'].isPrefixOf text = false := by
  rw [Bool.eq_false_iff]
  intro hprefix
  exact h ((List.isPrefixOf_iff_prefix.mp hprefix).subset (by decide))

lemma not_mem_of_isDecimal {ds : List Char} (h : ∀ d ∈ ds, isDecimal d = true) {c : Char}
    (hc : isDecimal c = false) : c ∉ ds := by
  intro hmem
  rw [h c hmem] at hc
  cases hc

/-- The type of a number whose spelling has no letters but perhaps the last character. -/
lemma numberTy_eq {spelling : String} {text : List Char} (h : spelling.toList.map Char.toLower = text)
    (hx : 'x' ∉ text) (he : 'e' ∉ text) :
    numberTy spelling = if endsWith 'l' text then .long else if endsWith 'f' text then .float
      else if endsWith 'd' text || text.contains '.' then .double else .int := by
  have hcontains : text.contains 'e' = false := by simpa using he
  rw [numberTy, h, not_hex_of_not_mem hx, hcontains]
  simp only [Bool.not_false, Bool.true_and, Bool.or_false]

/-- The type of a number of digits without a letter. -/
lemma numberTy_decimal {ds : List Char} (hds : ∀ d ∈ ds, isDecimal d = true) :
    numberTy (String.ofList ds) = if ds.contains '.' then .double else .int := by
  have hletter {c : Char} (hc : isDecimal c = false) : c ∉ ds := not_mem_of_isDecimal hds hc
  have hlower : (String.ofList ds).toList.map Char.toLower = ds := by
    rw [String.toList_ofList, map_toLower_of_isDecimal hds]
  rw [numberTy_eq hlower (hletter rfl) (hletter rfl), endsWith_of_not_mem (hletter rfl),
    endsWith_of_not_mem (hletter rfl), endsWith_of_not_mem (hletter rfl), Bool.false_or]
  rfl

/-- The type of a number of digits with a letter behind them. -/
lemma numberTy_suffixed {ds : List Char} (hds : ∀ d ∈ ds, isDecimal d = true) {c l : Char}
    (hl : c.toLower = l) (hx : 'x' ≠ l) (he : 'e' ≠ l) :
    numberTy (String.ofList (ds ++ [c])) = if l == 'l' then .long else if l == 'f' then .float
      else if l == 'd' || (ds ++ [l]).contains '.' then .double else .int := by
  have hletter {d : Char} (hd : isDecimal d = false) (hne : d ≠ l) : d ∉ ds ++ [l] := by
    rw [List.mem_append, List.mem_singleton]
    exact not_or.mpr ⟨not_mem_of_isDecimal hds hd, hne⟩
  have hlower : (String.ofList (ds ++ [c])).toList.map Char.toLower = ds ++ [l] := by
    rw [String.toList_ofList, List.map_append, map_toLower_of_isDecimal hds, List.map_singleton, hl]
  rw [numberTy_eq hlower (hletter rfl hx) (hletter rfl he), endsWith_concat, endsWith_concat,
    endsWith_concat]

/-- The type of a hexadecimal number: no letter tells it but a last one that is no digit. -/
lemma numberTy_hex {x : Char} (hx : x = 'x' ∨ x = 'X') (ds : List Char) :
    numberTy (String.ofList ('0' :: x :: ds))
      = if endsWith 'l' (('0' :: x :: ds).map Char.toLower) then .long else .int := by
  have hprefix : ['0', 'x'].isPrefixOf (('0' :: x :: ds).map Char.toLower) = true := by
    rcases hx with rfl | rfl <;> simp
  rw [numberTy, String.toList_ofList, hprefix]
  simp only [Bool.not_true, Bool.false_and, Bool.false_eq_true, if_false]

/-- The digits of a hexadecimal number have no letter that tells another type. -/
lemma not_mem_hex {x : Char} {ds : List Char} (hx : x = 'x' ∨ x = 'X') (hds : ∀ d ∈ ds, isHex d = true) :
    'l' ∉ ('0' :: x :: ds).map Char.toLower := by
  intro hmem
  obtain ⟨c, hc, hlower⟩ := List.mem_map.mp hmem
  have hdigit : c = '0' ∨ c = x ∨ isHex c = true := by
    rcases List.mem_cons.mp hc with h | hc
    · exact .inl h
    · rcases List.mem_cons.mp hc with h | hc
      · exact .inr (.inl h)
      · exact .inr (.inr (hds c hc))
  rcases hx with rfl | rfl
  all_goals rcases eq_of_toLower_eq hlower with rfl | rfl
  all_goals exact absurd hdigit (by decide)

/-- The type that belongs to the kind of a number is read off its spelling. -/
theorem IsNumber.numericTy?_eq {kind : LiteralKind} {text : List Char} (h : IsNumber kind text) :
    kind.numericTy? = some (numberTy (String.ofList text)) := by
  cases h with
  | hex hx hds =>
    rw [numberTy_hex hx, endsWith_of_not_mem (not_mem_hex hx hds)]
    rfl
  | @hexLong x c ds hx hds hc =>
    have hlast : ('0' :: x :: ds ++ [c]).map Char.toLower = ('0' :: x :: ds).map Char.toLower ++ ['l'] := by
      rcases hc with rfl | rfl <;> exact List.map_append
    rw [List.cons_append, List.cons_append] at hlast ⊢
    rw [numberTy_hex hx, hlast, endsWith_concat]
    rfl
  | whole hds hpoint =>
    have hnone : text.contains '.' = false := by simpa using hpoint
    rw [numberTy_decimal hds, hnone]
    rfl
  | fraction hds hpoint =>
    have hsome : text.contains '.' = true := by simpa using hpoint
    rw [numberTy_decimal hds, hsome]
    rfl
  | @suffixed kind c ds hds hc =>
    rcases Lexeme.suffixKind?_eq_some hc with ⟨hlong, rfl⟩ | ⟨hfloat, rfl⟩ | ⟨hdouble, rfl⟩
    · have hl : c.toLower = 'l' := by rcases hlong with h | h <;> rw [h] <;> rfl
      rw [numberTy_suffixed hds hl (by decide) (by decide)]
      rfl
    · have hl : c.toLower = 'f' := by rcases hfloat with h | h <;> rw [h] <;> rfl
      rw [numberTy_suffixed hds hl (by decide) (by decide)]
      rfl
    · have hl : c.toLower = 'd' := by rcases hdouble with h | h <;> rw [h] <;> rfl
      rw [numberTy_suffixed hds hl (by decide) (by decide)]
      rfl

/-! ### Numbers in a text -/

/-- A literal becomes a leaf with its spelling. -/
lemma Parser.after_primary_literal {r : Rules} {c : Cursor} {kind : LiteralKind} {spelling : String}
    (h : (c.peek 0).kind = .literal kind spelling) :
    (primary r).After c fun n c' =>
      n = ⟨literalKind kind, .unplaced, (c.peek 0).span, some spelling, []⟩ ∧ c' = c.advance := by
  simp only [primary, after_bind, after_start, after_peek]
  rw [h, after_leaf, Cursor.kindAt, h]
  exact ⟨rfl, rfl⟩

/-- The type of a number in a text is the one that belongs to the kind of its token, and an expression that
is read from this token has that type. -/
theorem lex_tyOf_primary (source : String) {t : Token} (ht : t ∈ (lex source).tokens) {kind : LiteralKind}
    {spelling : String} (hkind : t.kind = .literal kind spelling) {p : Primitive}
    (hp : kind.numericTy? = some p) :
    numberTy spelling = p ∧ ∀ (r : Parser.Rules) (c : Cursor) (sc : ExprScope), c.peek 0 = t →
      (Parser.primary r).After c fun n _ => sc.tyOf n = .primitive p := by
  have hty : numberTy spelling = p := by
    rcases eof_or_scanned_of_mem_tokens ht with heof | ⟨d, ds, -, hscan⟩
    · rw [heof] at hkind
      cases hkind
    · have hnumber := Lexeme.isNumber_of_scan (hscan.symm.trans hkind) hp
      have heq := hnumber.numericTy?_eq
      rw [hp, String.ofList_toList] at heq
      exact (Option.some.inj heq).symm
  refine ⟨hty, fun r c sc hc => ?_⟩
  subst hc
  refine (Parser.after_primary_literal hkind).imp ?_
  rintro n c' ⟨rfl, -⟩
  have hleaf : Parser.literalKind kind = .numberLiteral := by
    cases kind with
    | int | long | float | double => rfl
    | _ => cases hp
  rw [hleaf, ← hty, ExprScope.tyOf, ExprScope.denote]
  rfl

/-- The letters `E` and `f` are digits here, and the last one makes the number long. -/
theorem lex_tyOf_primary_hexLong :
    ⟨.literal .long "0xEfL", 4, 9⟩ ∈ (lex "x = 0xEfL;").tokens ∧ numberTy "0xEfL" = .long := by
  have hmem : ⟨.literal .long "0xEfL", 4, 9⟩ ∈ (lex "x = 0xEfL;").tokens := by decide
  exact ⟨hmem, (lex_tyOf_primary "x = 0xEfL;" hmem rfl rfl).1⟩

end Shorthand
