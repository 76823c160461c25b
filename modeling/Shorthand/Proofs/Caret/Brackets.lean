import Mathlib.Data.List.Basic
import Mathlib.Data.List.Induction
import Shorthand.Caret.Slot
import Shorthand.Proofs.Token.Query

/-!
What the tokens before a caret tell.

The tokens of a text stand one behind the other (`lex_apart`), so a search backwards from a caret looks
at just the tokens between two offsets (`punctBefore?_eq`). What it finds is the nearest token of some
kinds, and this need not be one that encloses the caret.

* `Closed` says of tokens that all brackets among them are closed again.
* `headedSlot_of_closed`: between the parentheses of the head of a statement the slot is that of the head
  as long as no other parenthesis stands in between. Behind one that was closed again it is that of the
  body. So a condition is expected in a part of the condition only (`slotIn_eq_condition_iff`).
* `argumentIndex_of_separated`: the index of the argument around the caret is the number of commas behind
  the arguments before it, if no argument has a comma outside of brackets.
-/

namespace Shorthand

variable {ts rest : List Token} {t : Token}

/-! ### The nearest token -/

/-- The last value that a function has on a list is that of the last element on which it has one. -/
lemma getLast?_filterMap {α β : Type} (f : α → Option β) (xs : List α) :
    (xs.filterMap f).getLast? = (xs.filter fun x => (f x).isSome).getLast?.bind f := by
  induction xs using List.reverseRecOn with
  | nil => rfl
  | append_singleton xs x ih =>
    cases hx : f x with
    | none => simp [List.filterMap_append, List.filter_append, hx, ih]
    | some y => simp [List.filterMap_append, List.filter_append, hx]

namespace Surroundings

variable {s : Surroundings} {n : Node} {start : Nat} {wanted : List Punct}

/-- The tokens between an offset and the caret, without comments. -/
def tokensSince (s : Surroundings) (start : Nat) : List Token :=
  s.tokens.filter fun t => start ≤ t.span.start && t.span.stop ≤ s.caret && !t.isTrivia

/-- The operator or separator that a token is, if it is looked for. -/
def wantedPunct? (wanted : List Punct) (t : Token) : Option Punct :=
  match t.kind with
  | .punct p => if wanted.contains p then some p else none
  | _ => none

/-- The operators and separators among some tokens that are looked for. -/
abbrev punctsIn (wanted : List Punct) (ts : List Token) : List Punct :=
  ts.filterMap (wantedPunct? wanted)

lemma isSome_wantedPunct? (t : Token) :
    (wantedPunct? wanted t).isSome = punctBefore?.isWanted wanted t.kind := by
  rw [wantedPunct?]
  cases t.kind with
  | punct p =>
    show (if wanted.contains p = true then some p else none).isSome = wanted.contains p
    cases wanted.contains p <;> rfl
  | _ => rfl

/-- The nearest of some operators and separators is the last one of them. -/
theorem punctBefore?_eq (h : Apart s.tokens) :
    s.punctBefore? n wanted = (punctsIn wanted (s.tokensSince n.span.start)).getLast? := by
  rw [punctBefore?, TokenQuery.nearestBefore_eq h, ← tokensSince, getLast?_filterMap]
  simp only [isSome_wantedPunct?]
  cases hlast : ((s.tokensSince n.span.start).filter
      fun t => punctBefore?.isWanted wanted t.kind).getLast? with
  | none => rfl
  | some t =>
    have hwanted := (List.mem_filter.mp (List.mem_of_getLast? hlast)).2
    obtain ⟨kind, span⟩ := t
    cases kind with
    | punct p => exact (if_pos hwanted).symm
    | _ => cases hwanted

end Surroundings

/-! ### Brackets -/

/-- The pairs of brackets that tokens stand between. -/
def bracketPairs : List (Punct × Punct) :=
  [(.openParen, .closeParen), (.openBracket, .closeBracket), (.openBrace, .closeBrace)]

/-- The token is a bracket. -/
def TokenKind.isBracket : TokenKind → Bool
  | .punct p => bracketPairs.any fun pair => pair.1 == p || pair.2 == p
  | _ => false

/-- All brackets among the tokens are closed again. Outside of them commas stand only if told. -/
inductive Closed : (commas : Bool) → List Token → Prop
  | nil {commas : Bool} : Closed commas []
  | token {commas : Bool} {t : Token} {ts : List Token} (ht : t.kind.isBracket = false)
      (hcomma : t.kind = .punct .comma → commas = true) (h : Closed commas ts) : Closed commas (t :: ts)
  | group {commas : Bool} {first last : Token} {inner ts : List Token} {p q : Punct}
      (hpair : (p, q) ∈ bracketPairs) (hfirst : first.kind = .punct p) (hlast : last.kind = .punct q)
      (hinner : Closed true inner) (h : Closed commas ts) :
      Closed commas (first :: (inner ++ last :: ts))

/-- The tokens are arguments with so many commas between them. -/
inductive Separated : Nat → List Token → Prop
  | last {ts : List Token} (h : Closed false ts) : Separated 0 ts
  | more {k : Nat} {ts rest : List Token} {t : Token} (h : Closed false ts)
      (ht : t.kind = .punct .comma) (hrest : Separated k rest) : Separated (k + 1) (ts ++ t :: rest)

namespace Surroundings

variable {s : Surroundings} {n : Node} {start : Nat} {wanted : List Punct} {commas : Bool}

/-! ### The head of a statement -/

/-- The parentheses among some tokens. -/
abbrev parensIn (ts : List Token) : List Punct := punctsIn [.openParen, .closeParen] ts

/-- If there is a parenthesis, the last one closes. -/
def LastCloses (ps : List Punct) : Prop := ∀ p ∈ ps.getLast?, p = .closeParen

lemma LastCloses.append {ps qs : List Punct} (hps : LastCloses ps) (hqs : LastCloses qs) :
    LastCloses (ps ++ qs) := by
  cases qs with
  | nil => rwa [List.append_nil]
  | cons q qs => rwa [LastCloses, List.getLast?_append_cons]

lemma wantedPunct?_of_punct {p : Punct} (h : t.kind = .punct p) :
    wantedPunct? wanted t = if wanted.contains p then some p else none := by
  rw [wantedPunct?, h]

/-- The last parenthesis among tokens whose brackets are closed again is one that closes. -/
lemma lastCloses_parensIn (h : Closed commas ts) : LastCloses (parensIn ts) := by
  induction h with
  | nil => nofun
  | @token commas t ts ht hcomma h ih =>
    have hnone : wantedPunct? [.openParen, .closeParen] t = none := by
      rw [wantedPunct?]
      split
      · next p hk =>
        rw [hk] at ht
        cases p <;> first | rfl | cases ht
      · rfl
    rwa [parensIn, punctsIn, List.filterMap_cons_none hnone]
  | @group commas first last inner ts p q hpair hfirst hlast hinner h ihinner ih =>
    have hp : wantedPunct? [.openParen, .closeParen] first = _ := wantedPunct?_of_punct hfirst
    have hq : wantedPunct? [.openParen, .closeParen] last = _ := wantedPunct?_of_punct hlast
    simp only [bracketPairs, List.mem_cons, Prod.mk.injEq, List.not_mem_nil, or_false] at hpair
    rcases hpair with ⟨rfl, rfl⟩ | ⟨rfl, rfl⟩ | ⟨rfl, rfl⟩
    · have hone : LastCloses [.closeParen] := by
        rintro p ⟨⟩
        rfl
      rw [parensIn, punctsIn, List.filterMap_cons_some hp, List.filterMap_append,
        List.filterMap_cons_some hq, ← List.cons_append, LastCloses, List.getLast?_append_cons]
      exact hone.append ih
    all_goals
      rw [parensIn, punctsIn, List.filterMap_cons_none hp, List.filterMap_append,
        List.filterMap_cons_none hq]
      exact ihinner.append ih

/-- Between the parentheses of the head of a statement the slot is that of the head as long as no other
parenthesis stands before the caret. Behind one that was closed again it is that of the body. -/
theorem headedSlot_of_closed {before : List Token} {head : Slot} (h : Apart s.tokens)
    (hsince : s.tokensSince n.span.start = before ++ t :: ts) (ht : t.kind = .punct .openParen)
    (hts : Closed true ts) :
    s.headedSlot n head = if parensIn ts = [] then head else .statement := by
  have hparen : wantedPunct? [.openParen, .closeParen] t = some .openParen := by
    rw [wantedPunct?, ht]
    rfl
  have hlast : s.punctBefore? n [.openParen, .closeParen] = (.openParen :: parensIn ts).getLast? := by
    rw [punctBefore?_eq h, hsince, punctsIn, List.filterMap_append, List.filterMap_cons_some hparen,
      List.getLast?_append_cons]
  rw [headedSlot, hlast]
  cases hps : parensIn ts with
  | nil => rfl
  | cons p ps =>
    have hclose := lastCloses_parensIn hts
    rw [hps, LastCloses, List.getLast?_cons] at hclose
    rw [List.getLast?_cons_cons, List.getLast?_cons, hclose _ rfl]
    rfl

/-- Behind the opening parenthesis of a loop or of an if statement a condition is expected just as long as
no other parenthesis stands before the caret, also where the caret is still in the condition. -/
theorem slotIn_eq_condition_iff {source : String} {before : List Token} {construct : Construct}
    {parent : Option Node} (hs : s.tokens = (lex source).tokens)
    (hsince : s.tokensSince n.span.start = before ++ t :: ts) (ht : t.kind = .punct .openParen)
    (hts : Closed true ts)
    (hconstruct : construct = .whileLoop ∨ construct = .ifStatement ∧ s.isBehindThen n = false) :
    s.slotIn construct n parent = .condition ↔ parensIn ts = [] := by
  have hapart : Apart s.tokens := hs ▸ lex_apart source
  have hslot : s.slotIn construct n parent = s.headedSlot n .condition := by
    rcases hconstruct with rfl | ⟨rfl, hthen⟩
    · rfl
    · rw [slotIn, hthen]
      rfl
  rw [hslot, headedSlot_of_closed hapart hsince ht hts, ite_eq_left_iff]
  exact ⟨fun h => by_contra fun hne => Slot.noConfusion (h hne), fun h hne => absurd h hne⟩

/-! ### The arguments of a call -/

/-- The tokens from an offset on that start before the caret. -/
def tokensFrom (s : Surroundings) (start : Nat) : List Token :=
  s.tokens.filter fun t => start ≤ t.span.start && t.span.start < s.caret && t.kind != .eof

/-- The index of an argument is found in the tokens from the parenthesis up to the caret. -/
lemma argumentIndex_eq (h : Apart s.tokens) :
    s.argumentIndex start = ((s.tokensFrom start).foldl Nesting.step ⟨0, 0⟩).commas := by
  have hstarts : s.tokens.Pairwise fun t t' => t.span.start ≤ t'.span.start :=
    h.behind.imp_of_mem fun ht _ hle => Nat.le_trans (h.le _ ht) hle
  have hfront : s.tokens.Pairwise fun t t' =>
      decide (t'.span.start < start) = true → decide (t.span.start < start) = true := by
    refine hstarts.imp fun hle => ?_
    simp only [decide_eq_true_eq]
    exact Nat.lt_of_le_of_lt hle
  have hcaret : (s.tokens.filter fun t => !decide (t.span.start < start)).Pairwise fun t t' =>
      (t'.span.start < s.caret && t'.kind != .eof) = true →
        (t.span.start < s.caret && t.kind != .eof) = true := by
    refine ((hstarts.and h.eof).filter _).imp fun ⟨hle, hkind⟩ => ?_
    simp only [Bool.and_eq_true, decide_eq_true_eq, bne_iff_ne]
    exact fun hlt => ⟨Nat.lt_of_le_of_lt hle hlt.1, hkind⟩
  rw [argumentIndex, TokenQuery.boundaryAt, drop_takeWhile_eq_filter hfront,
    takeWhile_eq_filter hcaret, List.filter_filter, tokensFrom]
  congr 3
  funext t
  have hnot : (!decide (t.span.start < start)) = decide (start ≤ t.span.start) := by
    rw [← decide_not, decide_eq_decide, Nat.not_lt]
  rw [hnot, Bool.and_comm, Bool.and_assoc]

lemma Nesting.step_of_not_isBracket {nesting : Nesting} (ht : t.kind.isBracket = false)
    (hcomma : t.kind = .punct .comma → nesting.depth ≠ 1) : nesting.step t = nesting := by
  rw [Nesting.step]
  cases hk : t.kind with
  | punct p =>
    rw [hk] at ht
    cases p with
    | comma => exact if_neg (hcomma hk)
    | openParen | openBracket | openBrace | closeParen | closeBracket | closeBrace => cases ht
    | _ => rfl
  | _ => rfl

/-- A bracket leads one level deeper, and the one that closes it leads back. -/
lemma Nesting.step_bracket {p q : Punct} (hpair : (p, q) ∈ bracketPairs) (nesting : Nesting) :
    (t.kind = .punct p → nesting.step t = ⟨nesting.depth + 1, nesting.commas⟩)
      ∧ (t.kind = .punct q → nesting.step t = ⟨nesting.depth - 1, nesting.commas⟩) := by
  simp only [bracketPairs, List.mem_cons, Prod.mk.injEq, List.not_mem_nil, or_false] at hpair
  rcases hpair with ⟨rfl, rfl⟩ | ⟨rfl, rfl⟩ | ⟨rfl, rfl⟩
  all_goals exact ⟨fun hk => by rw [Nesting.step, hk], fun hk => by rw [Nesting.step, hk]⟩

/-- Tokens whose brackets are closed again do not count, unless there are commas at the depth of the
arguments. -/
lemma foldl_closed {nesting : Nesting} (h : Closed commas ts) (hdepth : 0 < nesting.depth)
    (hcommas : nesting.depth = 1 → commas = false) : ts.foldl Nesting.step nesting = nesting := by
  induction h generalizing nesting with
  | nil => rfl
  | token ht hcomma h ih =>
    have hstep := Nesting.step_of_not_isBracket ht fun hk hone =>
      Bool.false_ne_true ((hcommas hone).symm.trans (hcomma hk))
    rw [List.foldl_cons, hstep, ih hdepth hcommas]
  | group hpair hfirst hlast hinner h ihinner ih =>
    have hinside : (⟨nesting.depth + 1, nesting.commas⟩ : Nesting).depth ≠ 1 :=
      Nat.succ_ne_succ_iff.mpr (Nat.ne_of_gt hdepth)
    rw [List.foldl_cons, List.foldl_append, (Nesting.step_bracket hpair nesting).1 hfirst,
      ihinner (Nat.succ_pos _) fun hone => absurd hone hinside, List.foldl_cons,
      (Nesting.step_bracket hpair _).2 hlast]
    exact ih hdepth hcommas

/-- Each comma between arguments counts. -/
lemma foldl_separated {k commasBefore : Nat} (h : Separated k ts) :
    ts.foldl Nesting.step ⟨1, commasBefore⟩ = ⟨1, commasBefore + k⟩ := by
  induction h generalizing commasBefore with
  | last h => exact foldl_closed h Nat.one_pos fun _ => rfl
  | @more k ts rest t h ht hrest ih =>
    have hstep : Nesting.step ⟨1, commasBefore⟩ t = ⟨1, commasBefore + 1⟩ := by
      rw [Nesting.step, ht]
      rfl
    rw [List.foldl_append, foldl_closed h Nat.one_pos fun _ => rfl, List.foldl_cons, hstep, ih,
      Nat.add_assoc, Nat.add_comm 1]

/-- The index of the argument around the caret is the number of commas behind the arguments before it. -/
theorem argumentIndex_of_separated {k : Nat} (h : Apart s.tokens)
    (hfrom : s.tokensFrom start = t :: ts) (ht : t.kind = .punct .openParen) (hts : Separated k ts) :
    s.argumentIndex start = k := by
  have hopen : Nesting.step ⟨0, 0⟩ t = ⟨1, 0⟩ := by
    rw [Nesting.step, ht]
  rw [argumentIndex_eq h, hfrom, List.foldl_cons, hopen, foldl_separated hts, Nat.zero_add]

end Surroundings

end Shorthand
