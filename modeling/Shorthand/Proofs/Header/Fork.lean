import Shorthand.Proofs.Reading.Parse
import Shorthand.Proofs.Token.Lookahead
import Shorthand.Proofs.Tree.Same

/-!
Reading what stands before the types of two texts that part in it.

The texts have the same tokens up to a place where an import follows in the second (`Fork`). Whatever is
broken before that place, an import ends it as well as anything else does: if what is read in the first
text does not reach beyond the fork, then the same is read in the second (`Shares`).

* `Took c ts c'`: the tokens that are taken between two cursors are ones of which imports are made.
* `Shares.bind` puts rules together; `chain_shares` is the rule for names of any length.
* `packageDeclaration_shares` and `importDeclaration_shares` are the results.
-/

namespace Shorthand

namespace Cursor

/-- Just the given tokens are taken between two cursors, and they are ones of which imports are made. -/
structure Took (c : Cursor) (ts : List Token) (c' : Cursor) : Prop where
  reads : Reads c c'
  ahead : c.ahead = ts ++ c'.ahead
  lastEnd : c'.lastEnd = (ts.getLast?.map (·.span.stop)).or c.lastEnd
  header : ∀ t ∈ ts, t.kind.inHeader = true

variable {c c₁ c' d : Cursor} {ts ts' : List Token}

/-- Two tokens that come next are taken one after the other. -/
lemma length_advance_twice (hk : c.kindAt 0 ≠ .eof) (hk' : c.kindAt 1 ≠ .eof) :
    c.advance.advance.ahead.length + 2 = c.ahead.length := by
  rcases ha : c.ahead with _ | ⟨t, _ | ⟨t', ts⟩⟩
  · exact absurd (by rw [kindAt, peek, ha]; rfl) hk
  · exact absurd (by rw [kindAt, peek, ha]; rfl) hk'
  · rw [ahead_advance, ahead_advance, ha]
    rfl

namespace Took

lemma refl (c : Cursor) : Took c [] c := ⟨.refl c, rfl, rfl, by simp⟩

lemma complained (c : Cursor) (d : Diagnostic) : Took c [] (c.complain d) :=
  ⟨.complained c d, rfl, rfl, by simp⟩

lemma trans (h : Took c ts c₁) (h' : Took c₁ ts' c') : Took c (ts ++ ts') c' := by
  refine ⟨h.reads.trans h'.reads, ?_, ?_, fun t ht => ?_⟩
  · rw [h.ahead, h'.ahead, List.append_assoc]
  · rw [h'.lastEnd, h.lastEnd, List.getLast?_append]
    cases ts'.getLast? <;> rfl
  · rcases List.mem_append.mp ht with ht | ht
    · exact h.header t ht
    · exact h'.header t ht

lemma one (hk : (c.kindAt 0).inHeader = true) : Took c [c.peek 0] c.advance := by
  cases ha : c.ahead with
  | nil =>
    rw [kindAt, peek, ha] at hk
    cases hk
  | cons t ts =>
    have hpeek : c.peek 0 = t := by rw [peek, ha]; rfl
    refine ⟨.one c, ?_, ?_, by simpa [hpeek] using hpeek ▸ hk⟩
    · rw [ahead_advance, ha, hpeek]
      rfl
    · rw [advance_of_ahead ha, hpeek]
      rfl

end Took

end Cursor

/-! ### Texts that part -/

/-- Where two texts part: the tokens that follow in the one and in the other, where the first of them
opens an import, and how much later stands in the other one what they have in common. -/
structure Fork where
  left : List Token
  right : List Token
  offset : Nat
  opens : right.head?.map (·.kind) = some (.keyword .importKw)

/-- A text to the end of which an import is added. -/
instance : Inhabited Fork := ⟨⟨[], [⟨.keyword .importKw, .empty 0⟩], 0, rfl⟩⟩

open Cursor

/-- The same tokens are ahead of two cursors up to a fork. -/
structure Cursor.Joint (f : Fork) (c d : Cursor) : Prop where
  ahead : ∃ ts, c.ahead = ts ++ f.left ∧ d.ahead = ts ++ f.right

namespace Cursor.Joint

variable {f : Fork} {c d : Cursor} {n : Nat}

lemma le (h : Joint f c d) : f.left.length ≤ c.ahead.length := by
  obtain ⟨ts, hc, -⟩ := h.ahead
  rw [hc, List.length_append]
  exact Nat.le_add_left _ _

lemma length_eq (h : Joint f c d) :
    c.ahead.length + f.right.length = d.ahead.length + f.left.length := by
  obtain ⟨ts, hc, hd⟩ := h.ahead
  rw [hc, hd, List.length_append, List.length_append]
  omega

lemma peek_eq (h : Joint f c d) (hn : f.left.length + n < c.ahead.length) : d.peek n = c.peek n := by
  obtain ⟨ts, hc, hd⟩ := h.ahead
  have hts : n < ts.length := by
    rw [hc, List.length_append] at hn
    omega
  rw [peek, peek, hc, hd, List.getElem?_append_left hts, List.getElem?_append_left hts,
    List.getElem?_eq_getElem hts]
  rfl

/-- Before the fork the tokens are the same. -/
lemma kindAt_eq (h : Joint f c d) (hn : f.left.length + n < c.ahead.length) :
    d.kindAt n = c.kindAt n := by
  rw [kindAt, h.peek_eq hn, kindAt]

/-- At the fork an import follows. -/
lemma kindAt_fork (h : Joint f c d) (hn : c.ahead.length = f.left.length + n) :
    d.kindAt n = .keyword .importKw := by
  obtain ⟨ts, hc, hd⟩ := h.ahead
  obtain rfl : n = ts.length := by
    rw [hc, List.length_append] at hn
    omega
  have hopens := f.opens
  rw [kindAt, peek, hd, List.getElem?_append_right (Nat.le_refl _), Nat.sub_self,
    ← List.head?_eq_getElem?]
  cases hhead : f.right.head? with
  | none =>
    rw [hhead] at hopens
    cases hopens
  | some t =>
    rw [hhead] at hopens
    exact Option.some.inj hopens

/-- What does not come next in the first text does not come next in the second. -/
lemma not_at {K : TokenKind → Bool} (h : Joint f c d) (hK : K (.keyword .importKw) = false)
    (hc : K (c.kindAt 0) = false) : K (d.kindAt 0) = false := by
  rcases Nat.eq_or_lt_of_le h.le with heq | hlt
  · rw [h.kindAt_fork (n := 0) heq.symm, hK]
  · rw [h.kindAt_eq (n := 0) hlt, hc]

/-- Two tokens that do not come next in the first text do not come next in the second. -/
lemma not_at_pair {K L : TokenKind → Bool} (h : Joint f c d) (hK : K (.keyword .importKw) = false)
    (hL : L (.keyword .importKw) = false) (hc : (K (c.kindAt 0) && L (c.kindAt 1)) = false) :
    (K (d.kindAt 0) && L (d.kindAt 1)) = false := by
  rcases Nat.eq_or_lt_of_le h.le with heq | hlt
  · rw [h.kindAt_fork (n := 0) heq.symm, hK, Bool.false_and]
  · rcases Nat.eq_or_lt_of_le (Nat.succ_le_of_lt hlt) with heq | hlt'
    · rw [h.kindAt_fork (n := 1) heq.symm, hL, Bool.and_false]
    · rw [h.kindAt_eq (n := 0) hlt, h.kindAt_eq (n := 1) hlt', hc]

lemma advance (h : Joint f c d) (hlt : f.left.length < c.ahead.length) :
    Joint f c.advance d.advance := by
  obtain ⟨ts, hc, hd⟩ := h.ahead
  cases ts with
  | nil =>
    rw [hc] at hlt
    exact absurd hlt (Nat.lt_irrefl _)
  | cons t ts =>
    refine ⟨ts, ?_, ?_⟩
    · rw [ahead_advance, hc]
      rfl
    · rw [ahead_advance, hd]
      rfl

lemma complain (h : Joint f c d) (first second : Diagnostic) :
    Joint f (c.complain first) (d.complain second) :=
  ⟨h.ahead⟩

end Cursor.Joint

namespace Parser

open Node

variable {α β : Type} {f : Fork} {c : Cursor}

/-- A rule takes tokens of which imports are made, and if it does not read beyond the fork, another one
reads as much in the other text, and `R` holds of the results. -/
def Shares (f : Fork) (c : Cursor) (R : α → α → Prop) (p q : Parser α) : Prop :=
  p.After c fun x c' => (∃ ts, Took c ts c') ∧ ∀ d, Joint f c d →
    f.left.length ≤ c'.ahead.length → q.After d fun y d' => R x y ∧ Joint f c' d'

/-! ### Ways of putting rules together -/

namespace Shares

variable {R : α → α → Prop} {T : β → β → Prop} {p q : Parser α} {x y : α}

lemma pure (h : R x y) : Shares f c R (Pure.pure x) (Pure.pure y) :=
  ⟨⟨[], .refl c⟩, fun _ hd _ => ⟨h, hd⟩⟩

lemma bind {g g' : α → Parser β} (h : Shares f c R p q) (hR : ∀ x, R x x)
    (hg : ∀ x y c', R x y → Shares f c' T (g x) (g' y)) : Shares f c T (p >>= g) (q >>= g') := by
  obtain ⟨⟨ts, htook⟩, hjoint⟩ := h
  obtain ⟨ts', htook'⟩ := (hg _ _ _ (hR _)).1
  refine And.intro ⟨_, htook.trans htook'⟩ fun d hd hle => ?_
  obtain ⟨hxy, hd'⟩ := hjoint d hd (Nat.le_trans hle htook'.reads.le)
  exact (hg _ _ _ hxy).2 _ hd' hle

lemma start {g g' : Nat → Parser β} (hg : ∀ first second, Shares f c T (g first) (g' second)) :
    Shares f c T (start >>= g) (start >>= g') :=
  ⟨(hg _ 0).1, fun d hd hle => (hg _ _).2 d hd hle⟩

/-- A rule that looks ahead before it decides decides alike in both texts, if it takes in the first what
it has seen there, and if it does not see at an import what it has not seen in the first. -/
lemma branch {rule rule' p' q' : Parser α} {test : Cursor → Bool}
    (hrule : ∀ c Q, rule.After c Q ↔ if test c = true then p.After c Q else p'.After c Q)
    (hrule' : ∀ c Q, rule'.After c Q ↔ if test c = true then q.After c Q else q'.After c Q)
    (hyes : test c = true → Shares f c R p q)
    (hseen : test c = true → p.After c fun _ c' => ∀ d, Joint f c d →
      f.left.length ≤ c'.ahead.length → test d = true)
    (hno : test c = false → Shares f c R p' q')
    (hunseen : test c = false → ∀ d, Joint f c d → test d = false) :
    Shares f c R rule rule' := by
  rw [Shares, hrule]
  split
  · next htest =>
    refine ((hyes htest).and (hseen htest)).imp fun x c' ⟨⟨htook, hjoint⟩, hseen⟩ => ?_
    refine ⟨htook, fun d hd hle => ?_⟩
    rw [hrule', if_pos (hseen d hd hle)]
    exact hjoint d hd hle
  · next htest =>
    rw [Bool.not_eq_true] at htest
    refine (hno htest).imp fun x c' ⟨htook, hjoint⟩ => ⟨htook, fun d hd hle => ?_⟩
    rw [hrule', if_neg (by rw [hunseen htest d hd]; exact Bool.false_ne_true)]
    exact hjoint d hd hle

end Shares

/-- What is seen of the next token is seen in both texts, if the token is taken. -/
lemma seen_of_takes {K : TokenKind → Bool} {p : Parser α} (hK : K (c.kindAt 0) = true)
    (h : p.After c fun _ c' => Takes c c') :
    p.After c fun _ c' => ∀ d, Joint f c d → f.left.length ≤ c'.ahead.length →
      K (d.kindAt 0) = true := by
  refine h.imp fun _ c' htakes d hd hle => ?_
  rw [hd.kindAt_eq (n := 0) (Nat.lt_of_le_of_lt hle htakes), hK]

/-- What is seen of the next two tokens is seen in both texts, if they are taken. -/
lemma seen_of_takes_two {K L : TokenKind → Bool} {p : Parser α}
    (hK : (K (c.kindAt 0) && L (c.kindAt 1)) = true)
    (h : p.After c fun _ c' => c'.ahead.length + 2 ≤ c.ahead.length) :
    p.After c fun _ c' => ∀ d, Joint f c d → f.left.length ≤ c'.ahead.length →
      (K (d.kindAt 0) && L (d.kindAt 1)) = true := by
  refine h.imp fun _ c' htwo d hd hle => ?_
  rw [hd.kindAt_eq (n := 0) (by omega), hd.kindAt_eq (n := 1) (by omega), hK]

/-! ### Steps -/

variable {role : Role}

lemma bump_shares (hk : (c.kindAt 0).inHeader = true) : Shares f c (fun _ _ => True) bump bump := by
  have htook := Took.one hk
  refine And.intro ⟨_, htook⟩ fun d hd hle => ⟨trivial, hd.advance ?_⟩
  rw [htook.ahead]
  exact Nat.lt_succ_of_le hle

lemma leaf_shares {kind : Kind} (hk : (c.kindAt 0).inHeader = true) :
    Shares f c Same (leaf kind role) (leaf kind role) := by
  have htook := Took.one hk
  refine And.intro ⟨_, htook⟩ fun d hd hle => ?_
  have hlt : f.left.length < c.ahead.length := by
    rw [htook.ahead]
    exact Nat.lt_succ_of_le hle
  rw [after_leaf, hd.kindAt_eq (n := 0) hlt]
  exact ⟨.mk (.refl []), hd.advance hlt⟩

lemma node_shares {kind : Kind} {first second : Nat} {ns ms : List Node} (h : SameAll ns ms) :
    Shares f c Same (node kind first ns) (node kind second ms) :=
  ⟨⟨[], .refl c⟩, fun _ hd _ => ⟨.mk h, hd⟩⟩

lemma unexpected_shares (what : String) : Shares f c Eq (unexpected what) (unexpected what) :=
  ⟨⟨[], .complained c _⟩, fun _ hd _ => ⟨rfl, hd.complain _ _⟩⟩

lemma missing_shares (what : String) : Shares f c Same (missing role what) (missing role what) :=
  ⟨⟨[], .complained c _⟩, fun _ hd _ => ⟨.mk (.refl []), hd.complain _ _⟩⟩

lemma ne_eof_of_inHeader {k : TokenKind} (h : k.inHeader = true) : k ≠ .eof := by
  rintro rfl
  cases h

lemma expect_shares {p : Punct} (hp : (TokenKind.punct p).inHeader = true) :
    Shares f c Eq (expect p) (expect p) := by
  have hrule (c : Cursor) (Q : Unit → Cursor → Prop) : (expect p).After c Q ↔
      if (c.kindAt 0 == .punct p) = true then (do let _ ← bump : Parser Unit).After c Q
      else (unexpected (quote p.spelling)).After c Q := by
    simp only [after_expect, beq_iff_eq, after_bind, after_bump, after_pure, after_unexpected]
  have hheader (htest : (c.kindAt 0 == .punct p) = true) : (c.kindAt 0).inHeader = true := by
    rw [beq_iff_eq.mp htest, hp]
  refine .branch hrule hrule (fun htest => ?_) (fun htest => ?_) (fun _ => ?_) fun htest d hd => ?_
  · exact .bind (bump_shares (hheader htest)) (fun _ => trivial) fun _ _ _ _ => .pure rfl
  · refine seen_of_takes (K := (· == .punct p)) htest ?_
    exact takes_advance (ne_eof_of_inHeader (hheader htest))
  · exact unexpected_shares _
  · exact hd.not_at (K := (· == .punct p)) rfl htest

/-- A part that a keyword opens is there in both texts or in none. -/
lemma itemIf_shares {k : Keyword} {item : Parser Node} (hk : k ≠ .importKw)
    (hitem : c.kindAt 0 = .keyword k → Shares f c Same item item)
    (htakes : c.kindAt 0 = .keyword k → item.After c fun _ c' => Takes c c') :
    Shares f c SameAll (itemIf (atKeyword k) item) (itemIf (atKeyword k) item) := by
  have hrule (c : Cursor) (Q : List Node → Cursor → Prop) : (itemIf (atKeyword k) item).After c Q ↔
      if (c.kindAt 0 == .keyword k) = true then (do return [← item] : Parser (List Node)).After c Q
      else (pure [] : Parser (List Node)).After c Q := by
    simp only [after_itemIf, after_atKeyword, after_bind, after_pure]
  refine .branch hrule hrule (fun htest => ?_) (fun htest => ?_) (fun _ => ?_) fun htest d hd => ?_
  · exact .bind (hitem (beq_iff_eq.mp htest)) .refl fun _ _ _ h => .pure (.one h)
  · exact seen_of_takes (K := (· == .keyword k)) htest (htakes (beq_iff_eq.mp htest))
  · exact .pure (.refl [])
  · exact hd.not_at (K := (· == .keyword k)) (by simpa using hk.symm) htest

/-! ### Names -/

lemma inHeader_of_identName {k : TokenKind} (h : k.identName?.isSome = true) : k.inHeader = true := by
  cases k with
  | ident => rfl
  | _ => cases h

lemma ident_shares : Shares f c Same (ident role) (ident role) := by
  refine .branch (fun _ _ => after_ident)
    (fun _ _ => after_ident) (fun htest => ?_) (fun htest => ?_) (fun _ => ?_) fun htest d hd => ?_
  · exact leaf_shares (inHeader_of_identName htest)
  · refine seen_of_takes (K := fun k => k.identName?.isSome) htest ?_
    exact takes_advance (ne_eof_of_inHeader (inHeader_of_identName htest))
  · exact missing_shares _
  · exact hd.not_at (K := fun k => k.identName?.isSome) rfl htest

/-- What is read behind a dot and a name that come next. -/
lemma after_nameStep {start : Nat} {n : Node} {Q : Option Node → Cursor → Prop} :
    (qualifiedName.step start n).After c Q ↔
      if (c.kindAt 0 == .punct .dot && (c.kindAt 1).identName?.isSome) = true then
        (do
          let _ ← bump
          let last ← ident .name
          return some (← node .qualifiedName start [n.inRole .qualifier, last])).After c Q
      else (pure none : Parser (Option Node)).After c Q := by
  simp only [qualifiedName.step, after_bind, after_atPunct, after_atIdent, after_ite]

lemma dotName_length {start : Nat} {n : Node}
    (h : (c.kindAt 0 == .punct .dot && (c.kindAt 1).identName?.isSome) = true) :
    (do
      let _ ← bump
      let last ← ident .name
      return some (← node .qualifiedName start [n.inRole .qualifier, last]) :
        Parser (Option Node)).After c fun _ c' => c'.ahead.length + 2 ≤ c.ahead.length := by
  rw [Bool.and_eq_true, beq_iff_eq] at h
  have hk : c.kindAt 0 ≠ .eof := by simp [h.1]
  have htakes : Takes c c.advance := takes_advance hk
  simp only [after_bind, after_bump, after_node, after_pure]
  refine After.imp ident_takes fun _ c' h' => ?_
  have : Takes c.advance c' := h' (by rw [kindAt_advance hk]; exact h.2)
  omega

/-- A name is made longer in both texts or in none. -/
lemma nameStep_shares {first second : Nat} {n m : Node} (h : Same n m) :
    Shares f c (Option.Rel Same) (qualifiedName.step first n) (qualifiedName.step second m) := by
  refine .branch (fun _ _ => after_nameStep) (fun _ _ => after_nameStep) (fun htest => ?_)
    (fun htest => ?_) (fun _ => .pure .none) fun htest d hd => ?_
  · rw [Bool.and_eq_true, beq_iff_eq] at htest
    refine .bind (bump_shares (by rw [htest.1]; rfl)) (fun _ => trivial) fun _ _ _ _ => ?_
    refine .bind ident_shares .refl fun last last' _ hlast => ?_
    refine .bind (node_shares (.cons (h.inRole .qualifier) (.one hlast))) .refl fun _ _ _ h => ?_
    exact .pure (.some h)
  · exact seen_of_takes_two (K := (· == .punct .dot)) (L := fun k => k.identName?.isSome) htest
      (dotName_length htest)
  · exact hd.not_at_pair (K := (· == .punct .dot)) (L := fun k => k.identName?.isSome) rfl rfl htest

lemma nameStep_takes {start : Nat} {n : Node} :
    (qualifiedName.step start n).After c fun o c' => ∀ y, o = some y → Takes c c' := by
  rw [after_nameStep]
  split
  · next h => exact After.imp (dotName_length h) fun _ c' h _ _ => Nat.lt_of_succ_lt h
  · exact nofun

/-- A result is extended as often in both texts. -/
lemma chain_shares {R : α → α → Prop} {step step' : α → Parser (Option α)} {x y : α}
    (hR : ∀ x, R x x)
    (hstep : ∀ c x y, R x y → Shares f c (Option.Rel R) (step x) (step' y))
    (htakes : ∀ c x, (step x).After c fun o c' => ∀ y, o = some y → Takes c c') (hxy : R x y) :
    Shares f c R (chain step x) (chain step' y) := by
  induction hn : c.ahead.length using Nat.strongRecOn generalizing c x y with
  | ind n ih =>
    refine After.chain (((hstep c x y hxy).and (htakes c x)).imp
      fun o c' ⟨⟨⟨ts, htook⟩, hjoint⟩, htakes⟩ => ⟨fun x' ho => ⟨htakes x' ho, ?_⟩, fun ho => ?_⟩)
    · have hlt : c'.ahead.length < n := hn ▸ htakes x' ho
      have hrest (y' : α) (h : R x' y') : Shares f c' R (chain step x') (chain step' y') :=
        ih _ hlt h rfl
      obtain ⟨ts', htook'⟩ := (hrest x' (hR x')).1
      refine And.intro ⟨_, htook.trans htook'⟩ fun d hd hle => ?_
      subst ho
      refine After.chain ((hjoint d hd (Nat.le_trans hle htook'.reads.le)).imp
        fun o d' ⟨ho, hd'⟩ => ?_)
      cases ho with
      | some hxy' =>
        refine ⟨fun y' h => ⟨?_, ?_⟩, nofun⟩
        · have := hd.length_eq
          have := hd'.length_eq
          show d'.ahead.length < d.ahead.length
          omega
        · obtain rfl := Option.some.inj h
          exact (hrest _ hxy').2 d' hd' hle
    · subst ho
      refine ⟨⟨ts, htook⟩, fun d hd hle => ?_⟩
      refine After.chain ((hjoint d hd hle).imp fun o d' ⟨ho, hd'⟩ => ?_)
      cases ho with
      | none => exact ⟨nofun, fun _ => ⟨hxy, hd'⟩⟩

lemma qualifiedName_shares : Shares f c Same (qualifiedName role) (qualifiedName role) := by
  refine .start fun first second => .bind ident_shares .refl fun n m _ hnm => ?_
  refine .bind (R := Same) ?_ .refl fun _ _ _ h => .pure (h.inRole role)
  exact chain_shares .refl (fun _ _ _ h => nameStep_shares h) (fun _ _ => nameStep_takes) hnm

lemma bumpPair_shares (hk : (c.kindAt 0).inHeader = true) (hk' : (c.kindAt 1).inHeader = true) :
    Shares f c Eq (bumpAll 2) (bumpAll 2) := by
  have hlength := length_advance_twice (ne_eof_of_inHeader hk) (ne_eof_of_inHeader hk')
  rw [← kindAt_advance (ne_eof_of_inHeader hk)] at hk'
  refine And.intro ⟨_, (Took.one hk).trans (.one hk')⟩ fun d hd hle => ⟨rfl, ?_⟩
  have hle' : f.left.length ≤ c.advance.advance.ahead.length := hle
  have hone : Takes c.advance c.advance.advance := takes_advance (ne_eof_of_inHeader hk')
  exact (hd.advance (by omega)).advance (Nat.lt_of_le_of_lt hle' hone)

lemma eatDotStar_shares : Shares f c Eq eatDotStar eatDotStar := by
  have hrule (c : Cursor) (Q : Bool → Cursor → Prop) : eatDotStar.After c Q ↔
      if (c.kindAt 0 == .punct .dot && c.kindAt 1 == .punct .star) = true then
        (do bumpAll 2; return true : Parser Bool).After c Q
      else (pure false : Parser Bool).After c Q := by
    simp only [eatDotStar, after_bind, after_atPunct, after_ite, after_pure]
  refine .branch hrule hrule (fun htest => ?_) (fun htest => ?_) (fun _ => .pure rfl)
    fun htest d hd => ?_
  · rw [Bool.and_eq_true, beq_iff_eq, beq_iff_eq] at htest
    refine .bind (bumpPair_shares ?_ ?_) (fun _ => rfl) fun _ _ _ _ => .pure rfl
    · rw [htest.1]
      rfl
    · rw [htest.2]
      rfl
  · refine seen_of_takes_two (K := (· == .punct .dot)) (L := (· == .punct .star)) htest ?_
    rw [Bool.and_eq_true, beq_iff_eq, beq_iff_eq] at htest
    have hk : c.kindAt 0 ≠ .eof := by simp [htest.1]
    have hk' : c.kindAt 1 ≠ .eof := by simp [htest.2]
    exact Nat.le_of_eq (length_advance_twice hk hk')
  · exact hd.not_at_pair (K := (· == .punct .dot)) (L := (· == .punct .star)) rfl rfl htest

/-! ### Packages and imports -/

lemma packageDeclaration_shares (hk : c.kindAt 0 = .keyword .packageKw) :
    Shares f c Same packageDeclaration packageDeclaration := by
  refine .start fun first second => ?_
  refine .bind (bump_shares (by rw [hk]; rfl)) (fun _ => trivial) fun _ _ _ _ => ?_
  refine .bind qualifiedName_shares .refl fun name name' _ hname => ?_
  refine .bind (expect_shares rfl) (fun _ => rfl) fun _ _ _ _ => ?_
  refine .bind (node_shares (.one hname)) .refl fun _ _ _ h => .pure (h.inRole .package)

lemma importDeclaration_shares (hk : c.kindAt 0 = .keyword .importKw) :
    Shares f c Same importDeclaration importDeclaration := by
  refine .start fun first second => ?_
  refine .bind (bump_shares (by rw [hk]; rfl)) (fun _ => trivial) fun _ _ c₁ _ => ?_
  have hmodifiers : Shares f c₁ SameAll (itemIf (atKeyword .staticKw) (leaf .modifier .modifier))
      (itemIf (atKeyword .staticKw) (leaf .modifier .modifier)) :=
    itemIf_shares (by decide) (fun hk => leaf_shares (by rw [hk]; rfl))
      fun hk => takes_advance (by simp [hk])
  refine .bind hmodifiers .refl fun ns ms _ hns => ?_
  refine .bind qualifiedName_shares .refl fun name name' _ hname => ?_
  refine .bind eatDotStar_shares (fun _ => rfl) fun onDemand onDemand' _ hstar => ?_
  subst hstar
  refine .bind (expect_shares rfl) (fun _ => rfl) fun _ _ _ _ => ?_
  refine .bind (node_shares (hns.append (.one hname))) .refl fun _ _ _ h => .pure ?_
  cases onDemand with
  | true => exact (h.inRole .importDecl).withText "*"
  | false => exact h.inRole .importDecl

end Parser

end Shorthand
