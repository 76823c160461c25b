import Mathlib.Tactic.Common
import Shorthand.Grammar.Parse

/-!
What a rule does, told by what holds behind it.

`After p c Q` says that the rule `p`, begun at the cursor `c`, ends with a result and a cursor of which
`Q` holds. The equations of this module take a rule apart into its steps:

* `after_bind`, `after_pure`, `after_ite` and `after_map` for the ways in which rules are put together;
* an equation for each rule that only looks ahead and for each that takes one token, so that nothing of
  them is left but a condition on the tokens ahead.

`After.imp` and `After.bind` then lead from what is known of a step to what follows it.
-/

namespace Shorthand

namespace Cursor

/-- The offset at which the next token starts. -/
def offset (c : Cursor) : Nat := (c.peek 0).span.start

/-- The kind of the token `n` places ahead. -/
def kindAt (c : Cursor) (n : Nat) : TokenKind := (c.peek n).kind

/-- The cursor with one more complaint. -/
def complain (c : Cursor) (d : Diagnostic) : Cursor := { c with problems := d :: c.problems }

/-- The complaint that the next token is not what should be there. -/
def complaint (c : Cursor) (what : String) : Diagnostic :=
  ⟨.parse, "expected " ++ what ++ ", found " ++ Parser.describe (c.kindAt 0), (c.peek 0).span⟩

/-- The offset of the end of the last token taken, or else that of the start of the next one. -/
def backOffset (c : Cursor) : Nat := c.lastEnd.getD c.offset

/-- The range from an offset to the end of the last token taken. -/
def spanSince (c : Cursor) (start : Nat) : Span := ⟨start, max c.backOffset start⟩

end Cursor

namespace Parser

variable {α β : Type} {c : Cursor} {Q : α → Cursor → Prop}

/-- `Q` holds of the result of a rule begun at a cursor and of the cursor behind it. -/
def After (p : Parser α) (c : Cursor) (Q : α → Cursor → Prop) : Prop :=
  Q (p.run c).1 (p.run c).2

lemma After.imp {p : Parser α} {R : α → Cursor → Prop} (h : p.After c Q)
    (hQR : ∀ a c', Q a c' → R a c') : p.After c R :=
  hQR _ _ h

/-- What is known of a step carries over to the steps behind it. -/
lemma After.bind {p : Parser α} {f : α → Parser β} {R : β → Cursor → Prop} (h : p.After c Q)
    (hf : ∀ a c', Q a c' → (f a).After c' R) : (p >>= f).After c R :=
  hf _ _ h

lemma After.and {p : Parser α} {R : α → Cursor → Prop} (h : p.After c Q) (h' : p.After c R) :
    p.After c fun a c' => Q a c' ∧ R a c' :=
  ⟨h, h'⟩

/-! ### Ways of putting rules together -/

lemma after_bind {p : Parser α} {f : α → Parser β} {R : β → Cursor → Prop} :
    (p >>= f).After c R ↔ p.After c fun a c' => (f a).After c' R :=
  Iff.rfl

lemma after_pure {a : α} : (pure a : Parser α).After c Q ↔ Q a c := Iff.rfl

lemma after_map {p : Parser α} {f : α → β} {R : β → Cursor → Prop} :
    (f <$> p).After c R ↔ p.After c fun a c' => R (f a) c' :=
  Iff.rfl

lemma after_ite {b : Prop} [Decidable b] {p q : Parser α} :
    (if b then p else q).After c Q ↔ if b then p.After c Q else q.After c Q := by
  split <;> rfl

lemma after_get {R : Cursor → Cursor → Prop} : (get : Parser Cursor).After c R ↔ R c c := Iff.rfl

/-! ### Looking ahead -/

section Look

variable {R : Bool → Cursor → Prop} {n : Nat}

lemma after_peek {R : Token → Cursor → Prop} : (peek n).After c R ↔ R (c.peek n) c := Iff.rfl

lemma after_isAt {k : TokenKind} : (isAt k n).After c R ↔ R (c.kindAt n == k) c := Iff.rfl

lemma after_atPunct {p : Punct} : (atPunct p n).After c R ↔ R (c.kindAt n == .punct p) c := Iff.rfl

lemma after_notAtPunct {p : Punct} :
    (notAtPunct p).After c R ↔ R (!(c.kindAt 0 == .punct p)) c := Iff.rfl

lemma after_atKeyword {k : Keyword} :
    (atKeyword k n).After c R ↔ R (c.kindAt n == .keyword k) c := Iff.rfl

lemma after_atIdent : (atIdent n).After c R ↔ R (c.kindAt n).identName?.isSome c := Iff.rfl

lemma after_atEnd : atEnd.After c R ↔ R (c.kindAt 0 == .eof) c := Iff.rfl

lemma after_atExpression : atExpression.After c R ↔ R (c.kindAt 0).canBeginExpr c := Iff.rfl

/-- The token is the name of a primitive type. -/
def isPrimitive : TokenKind → Bool
  | .keyword k => k.isPrimitiveType
  | _ => false

lemma after_atPrimitiveType : atPrimitiveType.After c R ↔ R (isPrimitive (c.kindAt 0)) c := by
  simp only [atPrimitiveType, after_bind, after_peek, isPrimitive, Cursor.kindAt]
  cases (c.peek 0).kind <;> rfl

/-- The token can be the first of a type. -/
def startsType (k : TokenKind) : Bool := k.identName?.isSome || isPrimitive k

lemma after_atType : atType.After c R ↔ R (startsType (c.kindAt 0)) c := by
  simp only [atType, after_bind, after_atIdent, after_atPrimitiveType, after_pure, startsType]

lemma after_atEmptyBrackets : atEmptyBrackets.After c R ↔
    R (c.kindAt 0 == .punct .openBracket && c.kindAt 1 == .punct .closeBracket) c := Iff.rfl

lemma after_atBodyEnd : atBodyEnd.After c R ↔
    R (c.kindAt 0 == .punct .closeBrace || c.kindAt 0 == .eof) c := Iff.rfl

lemma after_atParenEnd : atParenEnd.After c R ↔
    R (c.kindAt 0 == .punct .closeParen || c.kindAt 0 == .eof) c := Iff.rfl

lemma after_remaining {R : Nat → Cursor → Prop} : remaining.After c R ↔ R c.ahead.length c := Iff.rfl

lemma after_start {R : Nat → Cursor → Prop} : start.After c R ↔ R c.offset c := Iff.rfl

lemma after_lastEnd {R : Nat → Cursor → Prop} : lastEnd.After c R ↔ R c.backOffset c := Iff.rfl

end Look

/-! ### Steps -/

lemma after_bump {R : Token → Cursor → Prop} : bump.After c R ↔ R (c.peek 0) c.advance := Iff.rfl

lemma after_eat {R : Bool → Cursor → Prop} {p : Punct} :
    (eat p).After c R ↔ if c.kindAt 0 = .punct p then R true c.advance else R false c := by
  simp only [eat, after_bind, after_atPunct, after_ite, after_bump, after_pure, beq_iff_eq]

lemma after_eatKeyword {R : Bool → Cursor → Prop} {k : Keyword} :
    (eatKeyword k).After c R ↔ if c.kindAt 0 = .keyword k then R true c.advance else R false c := by
  simp only [eatKeyword, after_bind, after_atKeyword, after_ite, after_bump, after_pure, beq_iff_eq]

lemma after_unexpected {R : Unit → Cursor → Prop} {what : String} :
    (unexpected what).After c R ↔ R () (c.complain (c.complaint what)) := Iff.rfl

lemma after_expectAs {R : Bool → Cursor → Prop} {p : Punct} {what : String} :
    (expectAs p what).After c R ↔
      if c.kindAt 0 = .punct p then R true c.advance
      else R false (c.complain (c.complaint what)) := by
  simp only [expectAs, after_bind, after_eat, after_ite, after_pure, after_unexpected]
  split <;> simp

lemma after_expect {R : Unit → Cursor → Prop} {p : Punct} :
    (expect p).After c R ↔
      if c.kindAt 0 = .punct p then R () c.advance
      else R () (c.complain (c.complaint (quote p.spelling))) := by
  simp only [expect, after_bind, after_expectAs, after_pure]

lemma after_expectKeyword {R : Bool → Cursor → Prop} {k : Keyword} :
    (expectKeyword k).After c R ↔
      if c.kindAt 0 = .keyword k then R true c.advance
      else R false (c.complain (c.complaint (quote k.spelling))) := by
  simp only [expectKeyword, after_bind, after_eatKeyword, after_ite, after_pure, after_unexpected]
  split <;> simp

lemma after_missing {R : Node → Cursor → Prop} {role : Role} {what : String} :
    (missing role what).After c R ↔
      R (.missing role c.offset) (c.complain (c.complaint what)) := Iff.rfl

lemma after_node {R : Node → Cursor → Prop} {kind : Kind} {start : Nat} {children : List Node} :
    (node kind start children).After c R ↔
      R ⟨kind, .unplaced, c.spanSince start, none, children⟩ c := Iff.rfl

lemma after_leaf {R : Node → Cursor → Prop} {kind : Kind} {role : Role} :
    (leaf kind role).After c R ↔
      R ⟨kind, role, (c.peek 0).span, some (leafText (c.kindAt 0)), []⟩ c.advance := Iff.rfl

lemma after_ident {R : Node → Cursor → Prop} {role : Role} : (ident role).After c R ↔
    if (c.kindAt 0).identName?.isSome = true then (leaf .simpleName role).After c R
    else (missing role "identifier").After c R := by
  simp only [ident, after_bind, after_peek]
  rw [show (c.peek 0).kind = c.kindAt 0 from rfl]
  cases c.kindAt 0 <;> rfl

lemma after_rewind {R : Unit → Cursor → Prop} {d : Cursor} :
    (rewind d).After c R ↔ R () (c.backTo d) := Iff.rfl

lemma after_itemsIf {R : List α → Cursor → Prop} {condition : Parser Bool}
    {items : Parser (List α)} :
    (itemsIf condition items).After c R ↔
      condition.After c fun b c' => if b = true then items.After c' R else R [] c' := by
  simp only [itemsIf, after_bind, after_ite, after_pure]

lemma after_itemIf {R : List α → Cursor → Prop} {condition : Parser Bool} {item : Parser α} :
    (itemIf condition item).After c R ↔
      condition.After c fun b c' =>
        if b = true then item.After c' fun x c'' => R [x] c'' else R [] c' := by
  simp only [itemIf, after_itemsIf, after_bind, after_pure]

/-- A rule that is only good where few tokens are ahead is used where it is. -/
lemma After.below {bound : Nat} {otherwise : α} {rule : Parser α} (hc : c.ahead.length < bound)
    (h : rule.After c Q) : (below bound otherwise rule).After c Q := by
  simp only [Parser.below, after_bind, after_remaining, after_ite]
  rwa [if_pos hc]

end Parser

end Shorthand
