import Shorthand.Proofs.Reading.Progress
import Shorthand.Proofs.Tree.Same

/-!
Reading the same tokens in two places.

The tokens of a text may stand elsewhere, behind another text or with other white space and comments
between them, and there may have been other complaints before them (`Cursor.Moved`). Reading asks no more
of them than their kinds and which `>` signs have no gap behind them (`Token.marks`). `Alike s R p q` says
of two rules that, begun before the same tokens in two places, they take the same tokens, complain in the
same words and give results of which `R` holds.

* `Alike.bind` puts such rules together; `Alike.look`, `Alike.andThen` and `Alike.option` are the forms
  of it for what is found out about the tokens ahead, for results that do not matter and for rules that
  may not apply.
* `look_alike` is the lemma for the rules that only look ahead, and each step has one of its own.
* `iterate_alike` is the rule of loops, from which those of the loops of the grammar follow.
-/

namespace Shorthand

/-! ### The same tokens -/

namespace Token

/-- The token so many bytes later in a text. -/
def later (offset : Nat) (t : Token) : Token := ⟨t.kind, t.span.start + offset, t.span.stop + offset⟩

/-- The token is a `>` sign, and the next one goes on with a shift or an assignment that it starts. -/
def runsOn (t : Token) (next : Option Token) : Bool :=
  t.kind == .punct .gt
    && next.any fun u => u.span.start == t.span.stop && (u.kind == .punct .gt || u.kind == .punct .ge)

/-- What reading asks of tokens: their kinds, and which of them run on into the next ones. -/
def marks : List Token → List (TokenKind × Bool)
  | [] => []
  | t :: rest => (t.kind, t.runsOn rest.head?) :: marks rest

variable {ts us : List Token}

lemma marks_tail (ts : List Token) : marks ts.tail = (marks ts).tail := by
  cases ts <;> rfl

lemma map_fst_marks (ts : List Token) : (marks ts).map Prod.fst = ts.map kind := by
  induction ts with
  | nil => rfl
  | cons t ts ih => rw [marks, List.map_cons, ih, List.map_cons]

lemma map_kind_of_marks (h : marks us = marks ts) : us.map kind = ts.map kind := by
  rw [← map_fst_marks, h, map_fst_marks]

lemma marks_later (offset : Nat) (ts : List Token) : marks (ts.map (later offset)) = marks ts := by
  induction ts with
  | nil => rfl
  | cons t ts ih =>
    have hruns : (t.later offset).runsOn (ts.map (later offset)).head? = t.runsOn ts.head? := by
      cases ts with
      | nil => rfl
      | cons u ts =>
        have hgap : ((u.later offset).span.start == (t.later offset).span.stop)
            = (u.span.start == t.span.stop) := Bool.eq_iff_iff.mpr (by simp [later])
        simp only [runsOn, List.map_cons, List.head?_cons, Option.any_some, hgap]
        rfl
    rw [List.map_cons, marks, marks, ih, hruns]
    rfl

end Token

/-- What was complained about before two places, the newest first, and how many tokens follow at most. -/
structure Places where
  before : List String
  after : List String
  limit : Nat

namespace Cursor

/-- The words of the complaints so far, the newest first. -/
def complaints (c : Cursor) : List String := c.problems.map (·.message)

lemma complaints_advance (c : Cursor) : c.advance.complaints = c.complaints := by
  rw [complaints, problems_advance, complaints]

lemma complaints_complain (c : Cursor) (d : Diagnostic) :
    (c.complain d).complaints = d.message :: c.complaints := rfl

lemma complaints_backTo (c earlier : Cursor) : (c.backTo earlier).complaints
    = c.complaints.drop (c.complaints.length - earlier.complaints.length) := by
  simp only [complaints, backTo, List.map_drop, List.length_map]

/-- The same tokens are ahead of two cursors, and since the two places the same was complained about. -/
structure Moved (s : Places) (c d : Cursor) : Prop where
  ahead : Token.marks d.ahead = Token.marks c.ahead
  complaints : ∃ made, c.complaints = made ++ s.before ∧ d.complaints = made ++ s.after
  limit : c.ahead.length ≤ s.limit

end Cursor

namespace Cursor.Moved

variable {s : Places} {c d : Cursor}

lemma kinds_eq (h : c.Moved s d) : d.ahead.map Token.kind = c.ahead.map Token.kind :=
  Token.map_kind_of_marks h.ahead

lemma length_eq (h : c.Moved s d) : d.ahead.length = c.ahead.length := by
  simpa using congrArg List.length h.kinds_eq

lemma kindAt_eq (h : c.Moved s d) : d.kindAt = c.kindAt := by
  have hkind (c : Cursor) (n : Nat) : c.kindAt n = (c.ahead.map Token.kind)[n]?.getD .eof := by
    rw [kindAt, peek, List.getElem?_map]
    cases c.ahead[n]? <;> rfl
  funext n
  rw [hkind, hkind, h.kinds_eq]

lemma advance (h : c.Moved s d) : c.advance.Moved s d.advance := by
  refine ⟨?_, ?_, Nat.le_trans (Reads.one c).le h.limit⟩
  · rw [ahead_advance, ahead_advance, Token.marks_tail, Token.marks_tail, h.ahead]
  · rw [complaints_advance, complaints_advance]
    exact h.complaints

lemma complain (h : c.Moved s d) {first second : Diagnostic}
    (hmessage : second.message = first.message) : (c.complain first).Moved s (d.complain second) := by
  obtain ⟨made, hc, hd⟩ := h.complaints
  refine ⟨h.ahead, ⟨first.message :: made, ?_, ?_⟩, h.limit⟩
  · rw [complaints_complain, hc, List.cons_append]
  · rw [complaints_complain, hd, hmessage, List.cons_append]

/-- In both places the same token is not what should be there. -/
lemma unexpected (h : c.Moved s d) (what : String) :
    (c.complain (c.complaint what)).Moved s (d.complain (d.complaint what)) :=
  h.complain (by rw [complaint, complaint, h.kindAt_eq])

/-- Whether reading has stalled does not matter. -/
lemma setStalled (h : c.Moved s d) (first second : Bool) :
    ({ c with stalled := first } : Cursor).Moved s { d with stalled := second } :=
  ⟨h.ahead, h.complaints, h.limit⟩

/-- In both places going back leaves the same of the complaints made there. -/
lemma backTo {c' d' : Cursor} (h : c'.Moved s d') (hback : c.Moved s d) :
    (c'.backTo c).Moved s (d'.backTo d) := by
  obtain ⟨made, hc', hd'⟩ := h.complaints
  obtain ⟨made', hc, hd⟩ := hback.complaints
  have hdrop (old : List String) : (made ++ old).drop ((made ++ old).length - (made' ++ old).length)
      = made.drop (made.length - made'.length) ++ old := by
    rw [List.length_append, List.length_append, Nat.add_sub_add_right,
      List.drop_append_of_le_length (Nat.sub_le _ _)]
  refine ⟨hback.ahead, ⟨made.drop (made.length - made'.length), ?_, ?_⟩, hback.limit⟩
  · rw [complaints_backTo, hc', hc, hdrop]
  · rw [complaints_backTo, hd', hd, hdrop]

/-- Since an earlier place there are more complaints in both places or in none. -/
lemma problems_lt_iff {c' d' : Cursor} (h : c'.Moved s d') (hback : c.Moved s d) :
    c.problems.length < c'.problems.length ↔ d.problems.length < d'.problems.length := by
  obtain ⟨made, hc', hd'⟩ := h.complaints
  obtain ⟨made', hc, hd⟩ := hback.complaints
  have hlength (c : Cursor) : c.problems.length = c.complaints.length := (List.length_map _).symm
  simp only [hlength, hc, hd, hc', hd', List.length_append]
  omega

end Cursor.Moved

namespace Parser

variable {s : Places} {α β γ δ : Type}

/-- Two rules take the same tokens in two places, complain in the same words and give results of which `R`
holds. -/
def Alike (s : Places) (R : α → β → Prop) (p : Parser α) (q : Parser β) : Prop :=
  ∀ c d, c.Moved s d → p.After c fun x c' => q.After d fun y d' => R x y ∧ c'.Moved s d'

/-- Two rules are alike where fewer than so many tokens are ahead. -/
def AlikeBelow (s : Places) (bound : Nat) (R : α → β → Prop) (p : Parser α) (q : Parser β) : Prop :=
  ∀ c d, c.Moved s d → c.ahead.length < bound →
    p.After c fun x c' => q.After d fun y d' => R x y ∧ c'.Moved s d'

/-! ### Ways of putting rules together -/

namespace Alike

variable {R : α → β → Prop} {T : γ → δ → Prop} {p p' : Parser α} {q q' : Parser β} {x : α} {y : β}

lemma pure (h : R x y) : Alike s R (Pure.pure x) (Pure.pure y) := fun _ _ hcd => ⟨h, hcd⟩

lemma bind {f : α → Parser γ} {g : β → Parser δ} (h : Alike s R p q)
    (hf : ∀ x y, R x y → Alike s T (f x) (g y)) : Alike s T (p >>= f) (q >>= g) := by
  intro c d hcd
  obtain ⟨hxy, hcd'⟩ := h c d hcd
  exact hf _ _ hxy _ _ hcd'

/-- What is found out is the same in both places. -/
lemma look {q : Parser α} {f : α → Parser γ} {g : α → Parser δ} (h : Alike s Eq p q)
    (hf : ∀ x, Alike s T (f x) (g x)) : Alike s T (p >>= f) (q >>= g) := by
  refine h.bind fun x y hxy => ?_
  rw [← hxy]
  exact hf x

/-- What a step gives does not matter to what follows it. -/
lemma andThen {f : α → Parser γ} {g : β → Parser δ} (h : Alike s R p q)
    (hf : ∀ x y, Alike s T (f x) (g y)) : Alike s T (p >>= f) (q >>= g) :=
  h.bind fun x y _ => hf x y

/-- A rule applies in both places or in none. -/
lemma option {p : Parser (Option α)} {q : Parser (Option β)} {f : Option α → Parser γ}
    {g : Option β → Parser δ} (h : Alike s (Option.Rel R) p q)
    (hsome : ∀ x y, R x y → Alike s T (f (some x)) (g (some y)))
    (hnone : Alike s T (f none) (g none)) : Alike s T (p >>= f) (q >>= g) := by
  refine h.bind fun o o' ho => ?_
  cases ho with
  | some hxy => exact hsome _ _ hxy
  | none => exact hnone

lemma ite {b : Prop} [Decidable b] (h : Alike s R p q) (h' : Alike s R p' q') :
    Alike s R (if b then p else p') (if b then q else q') := by
  split
  · exact h
  · exact h'

/-- A rule that always applies. -/
lemma some (h : Alike s R p q) : Alike s (Option.Rel R) (Option.some <$> p) (Option.some <$> q) :=
  fun c d hcd => ⟨.some (h c d hcd).1, (h c d hcd).2⟩

end Alike

/-! ### Looking ahead -/

/-- What a rule finds out about the kinds of the tokens ahead is the same in both places. -/
lemma look_alike {p : Parser α} {f : (Nat → TokenKind) → α}
    (h : ∀ c (R : α → Cursor → Prop), p.After c R ↔ R (f c.kindAt) c) : Alike s Eq p p := by
  intro c d hcd
  rw [h, h, hcd.kindAt_eq]
  exact ⟨rfl, hcd⟩

section Look

variable (n : Nat)

lemma peek_alike : Alike s (fun t t' => t'.kind = t.kind) (peek n) (peek n) :=
  fun _ _ hcd => ⟨congrFun hcd.kindAt_eq n, hcd⟩

lemma isAt_alike (k : TokenKind) : Alike s Eq (isAt k n) (isAt k n) :=
  look_alike (f := fun kinds => kinds n == k) fun _ _ => after_isAt

lemma atPunct_alike (p : Punct) : Alike s Eq (atPunct p n) (atPunct p n) :=
  isAt_alike n (.punct p)

lemma atKeyword_alike (k : Keyword) : Alike s Eq (atKeyword k n) (atKeyword k n) :=
  isAt_alike n (.keyword k)

lemma atIdent_alike : Alike s Eq (atIdent n) (atIdent n) :=
  look_alike (f := fun kinds => (kinds n).identName?.isSome) fun _ _ => after_atIdent

end Look

lemma notAtPunct_alike (p : Punct) : Alike s Eq (notAtPunct p) (notAtPunct p) :=
  look_alike (f := fun kinds => !(kinds 0 == .punct p)) fun _ _ => after_notAtPunct

lemma atEnd_alike : Alike s Eq atEnd atEnd := isAt_alike 0 .eof

lemma atExpression_alike : Alike s Eq atExpression atExpression :=
  look_alike (f := fun kinds => (kinds 0).canBeginExpr) fun _ _ => after_atExpression

lemma atPrimitiveType_alike : Alike s Eq atPrimitiveType atPrimitiveType :=
  look_alike (f := fun kinds => isPrimitive (kinds 0)) fun _ _ => after_atPrimitiveType

lemma atType_alike : Alike s Eq atType atType :=
  look_alike (f := fun kinds => startsType (kinds 0)) fun _ _ => after_atType

lemma atEmptyBrackets_alike : Alike s Eq atEmptyBrackets atEmptyBrackets :=
  look_alike (f := fun kinds => kinds 0 == .punct .openBracket && kinds 1 == .punct .closeBracket)
    fun _ _ => after_atEmptyBrackets

lemma remaining_alike : Alike s Eq remaining remaining :=
  fun _ _ hcd => ⟨hcd.length_eq.symm, hcd⟩

lemma start_alike : Alike s (fun _ _ => True) start start := fun _ _ hcd => ⟨trivial, hcd⟩

lemma lastEnd_alike : Alike s (fun _ _ => True) lastEnd lastEnd := fun _ _ hcd => ⟨trivial, hcd⟩

lemma get_alike : Alike s (Cursor.Moved s) get get := fun _ _ hcd => ⟨hcd, hcd⟩

/-! ### Steps -/

lemma bump_alike : Alike s (fun _ _ => True) bump bump := fun _ _ hcd => ⟨trivial, hcd.advance⟩

lemma eat_alike (p : Punct) : Alike s Eq (eat p) (eat p) := by
  refine Alike.look (atPunct_alike 0 p) fun b => ?_
  refine .ite (.andThen bump_alike fun _ _ => ?_) ?_
  · exact .pure rfl
  · exact .pure rfl

lemma eatKeyword_alike (k : Keyword) : Alike s Eq (eatKeyword k) (eatKeyword k) := by
  refine Alike.look (atKeyword_alike 0 k) fun b => ?_
  refine .ite (.andThen bump_alike fun _ _ => ?_) ?_
  · exact .pure rfl
  · exact .pure rfl

lemma bumpAll_alike (n : Nat) : Alike s Eq (bumpAll n) (bumpAll n) := by
  induction n with
  | zero => exact .pure rfl
  | succ n ih => exact .andThen bump_alike fun _ _ => ih

lemma unexpected_alike (what : String) : Alike s Eq (unexpected what) (unexpected what) :=
  fun _ _ hcd => ⟨rfl, hcd.unexpected _⟩

lemma expectAs_alike (p : Punct) (what : String) : Alike s Eq (expectAs p what) (expectAs p what) := by
  refine Alike.look (eat_alike p) fun b => ?_
  refine .ite (.pure rfl) (.look (unexpected_alike what) fun _ => ?_)
  exact .pure rfl

lemma expect_alike (p : Punct) : Alike s Eq (expect p) (expect p) :=
  .look (expectAs_alike p _) fun _ => .pure rfl

lemma expectKeyword_alike (k : Keyword) : Alike s Eq (expectKeyword k) (expectKeyword k) := by
  refine Alike.look (eatKeyword_alike k) fun b => ?_
  refine .ite (.pure rfl) (.look (unexpected_alike _) fun _ => ?_)
  exact .pure rfl

lemma missing_alike (role : Role) (what : String) :
    Alike s Node.Same (missing role what) (missing role what) :=
  fun _ _ hcd => ⟨.mk (.refl []), hcd.unexpected _⟩

lemma node_alike {kind : Kind} {first second : Nat} {ns ms : List Node} (h : Node.SameAll ns ms) :
    Alike s Node.Same (node kind first ns) (node kind second ms) :=
  fun _ _ hcd => ⟨.mk h, hcd⟩

lemma leaf_alike (kind : Kind) (role : Role) : Alike s Node.Same (leaf kind role) (leaf kind role) := by
  intro c d hcd
  refine ⟨?_, hcd.advance⟩
  show Node.Same ⟨kind, role, _, some (leafText (c.kindAt 0)), []⟩
    ⟨kind, role, _, some (leafText (d.kindAt 0)), []⟩
  rw [hcd.kindAt_eq]
  exact .mk (.refl [])

lemma rewind_alike {c d : Cursor} (h : c.Moved s d) : Alike s Eq (rewind c) (rewind d) :=
  fun _ _ hcd => ⟨rfl, hcd.backTo h⟩

lemma stall_alike : Alike s Eq stall stall := fun _ _ hcd => ⟨rfl, hcd.setStalled _ _⟩

section Rules

variable {R : α → β → Prop} {x : α} {y : β}

lemma below_alike {bound : Nat} {p : Parser α} {q : Parser β} (h : AlikeBelow s bound R p q)
    (hxy : R x y) : Alike s R (below bound x p) (below bound y q) := by
  intro c d hcd
  simp only [below, after_bind, after_remaining, after_ite, hcd.length_eq]
  split
  · next hlt => exact h c d hcd hlt
  · exact ⟨hxy, hcd.setStalled _ _⟩

/-! ### Loops -/

/-- Rounds that are alike, one by one, make loops that are alike. -/
theorem iterate_alike {first : α → Parser (α × Bool)} {second : β → Parser (β × Bool)}
    (hround : ∀ x y, R x y → Alike s (fun a b => R a.1 b.1 ∧ a.2 = b.2) (first x) (second y))
    (hxy : R x y) : Alike s R (iterate first x) (iterate second y) := by
  have hgo (rounds : Nat) : ∀ x y, R x y →
      Alike s R (iterate.go first rounds x) (iterate.go second rounds y) := by
    induction rounds with
    | zero => exact fun x y hxy => .look stall_alike fun _ => .pure hxy
    | succ rounds ih =>
      intro x y hxy
      refine .look remaining_alike fun before => ?_
      refine .bind (hround x y hxy) fun ⟨x', more⟩ ⟨y', more'⟩ ⟨hxy', hmore⟩ => ?_
      obtain rfl : more = more' := hmore
      refine .ite (below_alike ?_ hxy') (.pure hxy')
      exact fun c d hcd _ => ih x' y' hxy' c d hcd
  exact .look remaining_alike fun n => hgo (n + 1) x y hxy

end Rules

section Lists

open Node

variable {item item' : Parser Node} {stop : Parser Bool}

lemma itemsIf_alike {condition : Parser Bool} {items items' : Parser (List Node)}
    (hcondition : Alike s Eq condition condition) (h : Alike s SameAll items items') :
    Alike s SameAll (itemsIf condition items) (itemsIf condition items') :=
  .look hcondition fun _ => .ite h (.pure (.refl []))

lemma itemIf_alike {condition : Parser Bool} (hcondition : Alike s Eq condition condition)
    (h : Alike s Same item item') :
    Alike s SameAll (itemIf condition item) (itemIf condition item') :=
  itemsIf_alike hcondition (.bind h fun _ _ hxy => .pure (.one hxy))

lemma sepBy1_alike (sep : Punct) (h : Alike s Same item item') :
    Alike s SameAll (sepBy1 sep item) (sepBy1 sep item') := by
  refine iterate_alike (fun xs ys hxs => ?_) (.refl [])
  refine .bind h fun x y hxy => ?_
  exact .look (eat_alike sep) fun _ => .pure ⟨hxs.append (.one hxy), rfl⟩

lemma sepUntil_alike (sep : Punct) (hstop : Alike s Eq stop stop) (h : Alike s Same item item') :
    Alike s SameAll (sepUntil stop sep item) (sepUntil stop sep item') := by
  refine iterate_alike (fun xs ys hxs => ?_) (.refl [])
  refine .look hstop fun b => .ite (.pure ⟨hxs, rfl⟩) ?_
  refine .bind h fun x y hxy => ?_
  exact .look (eat_alike sep) fun _ => .pure ⟨hxs.append (.one hxy), rfl⟩

lemma manyUntil_alike {item item' : Parser (Option Node)} (hstop : Alike s Eq stop stop)
    (h : Alike s (Option.Rel Same) item item') :
    Alike s SameAll (manyUntil stop item) (manyUntil stop item') := by
  refine iterate_alike (fun xs ys hxs => ?_) (.refl [])
  refine .look hstop fun b => .ite (.pure ⟨hxs, rfl⟩) ?_
  refine .bind h fun o o' ho => .pure ⟨hxs.append ?_, rfl⟩
  cases ho with
  | some hxy => exact .one hxy
  | none => exact .refl []

lemma chain_alike {R : α → β → Prop} {first : α → Parser (Option α)}
    {second : β → Parser (Option β)} {x : α} {y : β}
    (hstep : ∀ x y, R x y → Alike s (Option.Rel R) (first x) (second y)) (hxy : R x y) :
    Alike s R (chain first x) (chain second y) := by
  refine iterate_alike (fun x y hxy => ?_) hxy
  exact .option (hstep x y hxy) (fun _ _ h => .pure ⟨h, rfl⟩) (.pure ⟨hxy, rfl⟩)

end Lists

lemma skipEmptyBrackets_alike : Alike s Eq skipEmptyBrackets skipEmptyBrackets := by
  refine chain_alike (fun _ _ _ => ?_) rfl
  refine Alike.look atEmptyBrackets_alike fun b => .ite ?_ (.pure .none)
  exact .look (bumpAll_alike 2) fun _ => .pure (.some rfl)

/-! ### Names -/

lemma ident_alike (role : Role) : Alike s Node.Same (ident role) (ident role) := by
  refine .bind (peek_alike 0) fun t t' ht => ?_
  rw [ht]
  split
  · exact leaf_alike .simpleName role
  · exact missing_alike role "identifier"

lemma qualifiedName_alike (role : Role) :
    Alike s Node.Same (qualifiedName role) (qualifiedName role) := by
  refine .andThen start_alike fun first second => ?_
  refine .bind (ident_alike .name) fun n m hnm => ?_
  refine .bind (chain_alike (fun n m hnm => ?_) hnm) fun n m hnm => .pure (hnm.inRole role)
  refine .look (atPunct_alike 0 .dot) fun _ => .look (atIdent_alike 1) fun _ => ?_
  refine .ite (.andThen bump_alike fun _ _ => .bind (ident_alike .name) fun last last' hlast => ?_)
    (.pure .none)
  have hparts := (hnm.inRole .qualifier)
  exact .bind (node_alike (.cons hparts (.one hlast))) fun _ _ h => .pure (.some h)

end Parser

end Shorthand
