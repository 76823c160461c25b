import Mathlib.Data.List.Basic
import Shorthand.Proofs.Cut
import Shorthand.Proofs.Token.Splice
import Shorthand.Token.Query

/-!
Finding the tokens around an offset.

The tokens of a text stand one behind the other (`lex_apart`), also the empty one at its end. So the tokens
that end by an offset come first, and those that start before it do, and each query looks only at the
tokens on one side of such a cut, or stops at the first one that is out of bounds. Nothing is missed by this:
`Exhaustive` says of each query that it finds what a scan of all tokens finds.

* `lt_endedBy_iff` and `lt_boundaryAt_iff`: which tokens stand in front of a cut.
* `take_endedBy` and `drop_boundaryAt`: the tokens that end by an offset, and those that start from it on.
* `nearestBefore_eq`, `nearestAfter_eq` and the lemmas before them: what single queries find.
* `exhaustive_lex`: all queries on the tokens of a text are exhaustive.
-/

namespace Shorthand

variable {ts : List Token} {t : Token}

/-! ### Tokens one behind the other -/

/-- The tokens stand one behind the other, and only the last one can be the end of the text. -/
structure Apart (ts : List Token) : Prop where
  le : ∀ t ∈ ts, t.span.start ≤ t.span.stop
  behind : ts.Pairwise fun t t' => t.span.stop ≤ t'.span.start
  eof : ts.Pairwise fun t _ => t.kind ≠ .eof

lemma Apart.of_inOrder {src : List Char} {lo : Nat} (h : Token.InOrder src lo ts)
    (heof : ∀ t ∈ ts, t.kind ≠ .eof) : Apart (ts ++ [.eofAt (Text.bytes src)])
      ∧ ∀ t ∈ ts ++ [.eofAt (Text.bytes src)], lo ≤ t.span.start := by
  induction ts generalizing lo with
  | nil => exact ⟨⟨by simp [Token.eofAt, Span.empty], by simp, by simp⟩, List.forall_mem_singleton.mpr h⟩
  | cons t ts ih =>
    obtain ⟨hlo, hlt, -, -, hrest⟩ := h
    obtain ⟨ht, hts⟩ := List.forall_mem_cons.mp heof
    obtain ⟨hapart, hstops⟩ := ih hrest hts
    have hle : t.span.start ≤ t.span.stop := Nat.le_of_lt hlt
    refine ⟨⟨List.forall_mem_cons.mpr ⟨hle, hapart.le⟩, List.pairwise_cons.mpr ⟨hstops, hapart.behind⟩,
      List.pairwise_cons.mpr ⟨fun _ _ => ht, hapart.eof⟩⟩, List.forall_mem_cons.mpr ⟨hlo, ?_⟩⟩
    exact fun t' ht' => Nat.le_trans hlo (Nat.le_trans hle (hstops t' ht'))

/-- The tokens of a text stand one behind the other. -/
theorem lex_apart (source : String) : Apart (lex source).tokens := by
  have htaken := taken_lexemesFrom 0 source.toList
  have hinOrder := htaken.inOrder [] rfl
  rw [List.nil_append, List.append_nil] at hinOrder
  refine (Apart.of_inOrder hinOrder fun t ht => ?_).1
  obtain ⟨p, hp, rfl⟩ := List.mem_map.mp ht
  exact htaken.ne_eof p hp

namespace Apart

lemma starts (h : Apart ts) : ts.Pairwise fun t t' => t.span.start ≤ t'.span.start :=
  h.behind.imp_of_mem fun ht _ hle => Nat.le_trans (h.le _ ht) hle

lemma stops (h : Apart ts) : ts.Pairwise fun t t' => t.span.stop ≤ t'.span.stop :=
  h.behind.imp_of_mem fun _ ht' hle => Nat.le_trans hle (h.le _ ht')

/-- A token starts before an offset only if those in front of it do. -/
lemma startsBefore (h : Apart ts) (offset : Nat) : ts.Pairwise fun t t' =>
    decide (t'.span.start < offset) = true → decide (t.span.start < offset) = true := by
  refine h.starts.imp fun hle => ?_
  simp only [decide_eq_true_eq]
  intro hlt
  omega

/-- A token ends by an offset only if those in front of it do. -/
lemma endsBy (h : Apart ts) (offset : Nat) : ts.Pairwise fun t t' =>
    decide (t'.span.stop ≤ offset) = true → decide (t.span.stop ≤ offset) = true := by
  refine h.stops.imp fun hle => ?_
  simp only [decide_eq_true_eq]
  intro hstop
  omega

end Apart

namespace TokenQuery

/-! ### Cuts -/

/-- A token stands in front of the cut for the tokens that ended if it ends by the offset. -/
lemma lt_endedBy_iff (h : Apart ts) {offset i : Nat} (hi : i < ts.length) :
    i < endedBy ts offset ↔ ts[i].span.stop ≤ offset := by
  rw [endedBy, lt_length_takeWhile_iff (h.endsBy offset) hi, decide_eq_true_eq]

/-- A token stands in front of the boundary if it starts before the offset. -/
lemma lt_boundaryAt_iff (h : Apart ts) {offset i : Nat} (hi : i < ts.length) :
    i < boundaryAt ts offset ↔ ts[i].span.start < offset := by
  rw [boundaryAt, lt_length_takeWhile_iff (h.startsBefore offset) hi, decide_eq_true_eq]

lemma endedBy_le_length (ts : List Token) (offset : Nat) : endedBy ts offset ≤ ts.length :=
  (List.takeWhile_prefix _).length_le

lemma boundaryAt_le_length (ts : List Token) (offset : Nat) : boundaryAt ts offset ≤ ts.length :=
  (List.takeWhile_prefix _).length_le

/-- The tokens in front of the first cut are those that end by the offset. -/
lemma take_endedBy (h : Apart ts) (offset : Nat) :
    ts.take (endedBy ts offset) = ts.filter (·.span.stop ≤ offset) := by
  rw [endedBy, ← List.prefix_iff_eq_take.mp (List.takeWhile_prefix _)]
  exact takeWhile_eq_filter (h.endsBy offset)

/-- The others end behind it. -/
lemma drop_endedBy (h : Apart ts) (offset : Nat) :
    ts.drop (endedBy ts offset) = ts.filter (offset < ·.span.stop) := by
  rw [endedBy, drop_takeWhile_eq_filter (h.endsBy offset)]
  refine List.filter_congr fun t _ => ?_
  rw [← decide_not, decide_eq_decide, Nat.not_le]

/-- The tokens behind the boundary are those that start at the offset or later. -/
lemma drop_boundaryAt (h : Apart ts) (offset : Nat) :
    ts.drop (boundaryAt ts offset) = ts.filter (offset ≤ ·.span.start) := by
  rw [boundaryAt, drop_takeWhile_eq_filter (h.startsBefore offset)]
  refine List.filter_congr fun t _ => ?_
  rw [← decide_not, decide_eq_decide, Nat.not_lt]

/-! ### The tokens that meet a range -/

/-- The first token that meets a range does not stand behind the last one. -/
lemma rangeForSpan_le (h : Apart ts) (span : Span) :
    (rangeForSpan ts span).1 ≤ (rangeForSpan ts span).2 := by
  rw [rangeForSpan]
  split
  · exact Nat.le_refl _
  · next hempty =>
    rw [Span.isEmpty, decide_eq_true_eq, Nat.not_le] at hempty
    by_contra hlt
    rw [Nat.not_le] at hlt
    have hi : boundaryAt ts span.stop < ts.length := Nat.lt_of_lt_of_le hlt (endedBy_le_length ts _)
    have hstop := (lt_endedBy_iff h hi).mp hlt
    have hle := h.le _ (List.getElem_mem hi)
    have hstart : ts[boundaryAt ts span.stop].span.start < span.stop := by omega
    exact Nat.lt_irrefl _ ((lt_boundaryAt_iff h hi).mpr hstart)

lemma rangeForSpan_le_length (ts : List Token) (span : Span) :
    (rangeForSpan ts span).2 ≤ ts.length := by
  rw [rangeForSpan]
  split
  · exact boundaryAt_le_length ts span.start
  · exact boundaryAt_le_length ts span.stop

/-- The range of a range of text has the indices of the tokens that start before its end and end behind its
start. -/
lemma mem_rangeForSpan_iff (h : Apart ts) {span : Span} (hspan : span.isEmpty = false) {i : Nat}
    (hi : i < ts.length) :
    (rangeForSpan ts span).1 ≤ i ∧ i < (rangeForSpan ts span).2
      ↔ ts[i].span.start < span.stop ∧ span.start < ts[i].span.stop := by
  have hrange : rangeForSpan ts span = (endedBy ts span.start, boundaryAt ts span.stop) := by
    rw [rangeForSpan, hspan]
    rfl
  rw [hrange, ← Nat.not_lt, lt_endedBy_iff h hi, lt_boundaryAt_iff h hi, Nat.not_le]
  exact And.comm

/-! ### The token around an offset -/

/-- At most one token has an offset between its ends, and it is the first one that does not end by the
offset. -/
lemma filter_strictlyContains (h : Apart ts) (offset : Nat) :
    ts.filter (·.span.strictlyContains offset) = (tokenContaining ts offset).toList := by
  have hfront : (ts.take (endedBy ts offset)).filter (·.span.strictlyContains offset) = [] := by
    rw [take_endedBy h]
    refine List.filter_eq_nil_iff.mpr fun t ht hinside => ?_
    have hstop := of_decide_eq_true (List.mem_filter.mp ht).2
    rw [Span.strictlyContains, Bool.and_eq_true, decide_eq_true_eq, decide_eq_true_eq] at hinside
    omega
  have hback : (ts.drop (endedBy ts offset)).filter (·.span.strictlyContains offset)
      = ((ts.drop (endedBy ts offset)).head?.filter (·.span.strictlyContains offset)).toList := by
    have hpast : ∀ t ∈ ts.drop (endedBy ts offset), offset < t.span.stop := by
      intro t ht
      rw [drop_endedBy h] at ht
      exact of_decide_eq_true (List.mem_filter.mp ht).2
    have hbehind := h.behind.drop (i := endedBy ts offset)
    cases hdrop : ts.drop (endedBy ts offset) with
    | nil => rfl
    | cons t rest =>
      rw [hdrop] at hpast hbehind
      have hstop := hpast t List.mem_cons_self
      -- The offset is passed by the first token, and the others start behind it.
      have hrest : rest.filter (·.span.strictlyContains offset) = [] := by
        refine List.filter_eq_nil_iff.mpr fun t' ht' hinside => ?_
        have hstart := (List.pairwise_cons.mp hbehind).1 t' ht'
        rw [Span.strictlyContains, Bool.and_eq_true, decide_eq_true_eq, decide_eq_true_eq] at hinside
        omega
      rw [List.filter_cons, hrest, List.head?_cons, Option.filter_some]
      split <;> rfl
  calc ts.filter (·.span.strictlyContains offset)
      = (ts.take (endedBy ts offset)).filter (·.span.strictlyContains offset)
          ++ (ts.drop (endedBy ts offset)).filter (·.span.strictlyContains offset) := by
        rw [← List.filter_append, List.take_append_drop]
    _ = (tokenContaining ts offset).toList := by
        rw [hfront, hback, List.nil_append, tokenContaining, List.head?_drop]

/-! ### The nearest token -/

/-- What is found among tokens by their indices is found among the tokens themselves. -/
lemma getElem?_of_find? {indexed : List (Token × Nat)} (h : ∀ z ∈ indexed, ts[z.2]? = some z.1)
    (p : Token → Bool) :
    ((indexed.find? (p ·.1)).map (·.2)).bind (ts[·]?) = (indexed.map (·.1)).find? p := by
  rw [List.find?_map]
  cases hfound : indexed.find? (p ·.1) with
  | none =>
    rw [Function.comp_def, hfound]
    rfl
  | some z =>
    rw [Function.comp_def, hfound]
    exact h z (List.mem_of_find?_eq_some hfound)

/-- The last token that is no comment and ends by an offset. -/
lemma prevNontriviaBefore_eq (h : Apart ts) (offset : Nat) :
    prevNontriviaBefore ts offset
      = (ts.filter fun t => !t.isTrivia && t.span.stop ≤ offset).getLast? := by
  have hindexed : ∀ z ∈ (ts.take (endedBy ts offset)).zipIdx.reverse, ts[z.2]? = some z.1 := by
    intro z hz
    have hz' := List.mem_zipIdx_iff_getElem?.mp (List.mem_reverse.mp hz)
    rw [List.getElem?_take] at hz'
    split at hz'
    · exact hz'
    · cases hz'
  calc prevNontriviaBefore ts offset
      = (prevNontrivia ts (endedBy ts offset)).bind (ts[·]?) := rfl
    _ = ((ts.take (endedBy ts offset)).zipIdx.reverse.map (·.1)).find? (!·.isTrivia) :=
        getElem?_of_find? hindexed (!·.isTrivia)
    _ = (ts.filter (·.span.stop ≤ offset)).reverse.find? (!·.isTrivia) := by
        rw [List.map_reverse, List.zipIdx_map_fst, take_endedBy h]
    _ = (ts.filter fun t => !t.isTrivia && t.span.stop ≤ offset).getLast? := by
        rw [← List.head?_filter, List.filter_reverse, List.head?_reverse, List.filter_filter]

/-- The first token that is no comment and starts at an offset or later. -/
lemma nextNontriviaAfter_eq (h : Apart ts) (offset : Nat) :
    nextNontriviaAfter ts offset = ts.find? fun t => !t.isTrivia && offset ≤ t.span.start := by
  have hindexed : ∀ z ∈ ts.zipIdx.drop (boundaryAt ts offset), ts[z.2]? = some z.1 := fun z hz =>
    List.mem_zipIdx_iff_getElem?.mp (List.mem_of_mem_drop hz)
  calc nextNontriviaAfter ts offset
      = (nextNontrivia ts (boundaryAt ts offset)).bind (ts[·]?) := rfl
    _ = ((ts.zipIdx.drop (boundaryAt ts offset)).map (·.1)).find? (!·.isTrivia) :=
        getElem?_of_find? hindexed (!·.isTrivia)
    _ = (ts.filter (offset ≤ ·.span.start)).find? (!·.isTrivia) := by
        rw [List.map_drop, List.zipIdx_map_fst, drop_boundaryAt h]
    _ = ts.find? fun t => !t.isTrivia && offset ≤ t.span.start := by
        rw [← List.head?_filter, List.filter_filter, List.head?_filter]

/-- A search backwards finds the last one of the tokens between two offsets that it looks for. -/
theorem nearestBefore_eq (h : Apart ts) (offset floor : Nat) (p : TokenKind → Bool) :
    nearestBefore ts offset floor p
      = ((ts.filter fun t => floor ≤ t.span.start && t.span.stop ≤ offset && !t.isTrivia).filter
          (p ·.kind)).getLast? := by
  have hbehind : (ts.filter (·.span.stop ≤ offset)).reverse.Pairwise fun t t' =>
      decide (floor ≤ t'.span.start) = true → decide (floor ≤ t.span.start) = true := by
    refine List.pairwise_reverse.mpr ((h.starts.filter _).imp fun hle => ?_)
    simp only [decide_eq_true_eq]
    intro hfloor
    omega
  rw [nearestBefore, take_endedBy h, takeWhile_eq_filter hbehind, ← List.head?_filter,
    List.filter_reverse, List.filter_reverse, List.head?_reverse]
  simp only [List.filter_filter]
  congr 2
  funext t
  cases p t.kind <;> cases t.isTrivia <;> simp [Bool.and_comm]

/-- A search forwards finds the first one of the tokens between two offsets that it looks for. -/
theorem nearestAfter_eq (h : Apart ts) (offset ceiling : Nat) (p : TokenKind → Bool) :
    nearestAfter ts offset ceiling p
      = ((ts.filter fun t => offset ≤ t.span.start && t.span.stop ≤ ceiling && t.kind != .eof
          && !t.isTrivia).filter (p ·.kind)).head? := by
  have hinside : (ts.filter (offset ≤ ·.span.start)).Pairwise fun t t' =>
      (t'.span.stop ≤ ceiling && t'.kind != .eof) = true →
        (t.span.stop ≤ ceiling && t.kind != .eof) = true := by
    refine ((h.stops.and h.eof).filter _).imp fun ⟨hle, hkind⟩ => ?_
    simp only [Bool.and_eq_true, decide_eq_true_eq, bne_iff_ne]
    exact fun hin => ⟨Nat.le_trans hle hin.1, hkind⟩
  rw [nearestAfter, drop_boundaryAt h, takeWhile_eq_filter hinside, ← List.head?_filter]
  simp only [List.filter_filter]
  congr 2
  funext t
  cases p t.kind <;> cases t.isTrivia <;> simp [Bool.and_comm, Bool.and_left_comm]

/-! ### All queries -/

/-- Each query on the tokens finds what a scan of all of them finds. -/
structure Exhaustive (ts : List Token) : Prop where
  /-- The cuts are where a search by halves finds them. -/
  cuts : ∀ offset,
    bisect (fun i => ts[i]?.any (·.span.start < offset)) 0 ts.length = boundaryAt ts offset
      ∧ bisect (fun i => ts[i]?.any (·.span.stop ≤ offset)) 0 ts.length = endedBy ts offset
  /-- A range of indices runs forwards, within the tokens. -/
  range_le : ∀ span, (rangeForSpan ts span).1 ≤ (rangeForSpan ts span).2
    ∧ (rangeForSpan ts span).2 ≤ ts.length
  /-- For a range of text that is not empty it has the tokens that start before its end and end behind its
  start. -/
  range : ∀ span : Span, span.isEmpty = false → ∀ i (hi : i < ts.length),
    (rangeForSpan ts span).1 ≤ i ∧ i < (rangeForSpan ts span).2
      ↔ ts[i].span.start < span.stop ∧ span.start < ts[i].span.stop
  /-- The token around an offset is the only one, and is found if there is one. -/
  containing : ∀ offset,
    ts.filter (·.span.strictlyContains offset) = (tokenContaining ts offset).toList
  /-- The last token that is no comment and ends by an offset. -/
  prev : ∀ offset, prevNontriviaBefore ts offset
    = (ts.filter fun t => !t.isTrivia && t.span.stop ≤ offset).getLast?
  /-- The first token that is no comment and starts at an offset or later. -/
  next : ∀ offset, nextNontriviaAfter ts offset
    = ts.find? fun t => !t.isTrivia && offset ≤ t.span.start
  /-- The last token between a floor and an offset that is no comment and is looked for. -/
  before : ∀ offset floor p, nearestBefore ts offset floor p
    = (ts.filter fun t => floor ≤ t.span.start && t.span.stop ≤ offset && !t.isTrivia
        && p t.kind).getLast?
  /-- The first token between an offset and a ceiling that is no comment, not the end of the text and
  looked for. -/
  after : ∀ offset ceiling p, nearestAfter ts offset ceiling p
    = ts.find? fun t => offset ≤ t.span.start && t.span.stop ≤ ceiling && t.kind != .eof && !t.isTrivia
        && p t.kind

/-- All queries on the tokens of a text are exhaustive. -/
theorem exhaustive_lex (source : String) : Exhaustive (lex source).tokens := by
  have h := lex_apart source
  constructor
  case cuts =>
    exact fun offset => ⟨bisect_eq_length_takeWhile (h.startsBefore offset),
      bisect_eq_length_takeWhile (h.endsBy offset)⟩
  case range_le => exact fun span => ⟨rangeForSpan_le h span, rangeForSpan_le_length _ span⟩
  case range => exact fun span hspan i hi => mem_rangeForSpan_iff h hspan hi
  case containing => exact filter_strictlyContains h
  case prev => exact prevNontriviaBefore_eq h
  case next => exact nextNontriviaAfter_eq h
  case before =>
    intro offset floor p
    rw [nearestBefore_eq h, List.filter_filter]
    simp only [Bool.and_comm (p _)]
  case after =>
    intro offset ceiling p
    rw [nearestAfter_eq h, List.filter_filter, List.head?_filter]
    simp only [Bool.and_comm (p _)]

end TokenQuery

end Shorthand
