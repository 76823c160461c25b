import Mathlib.Algebra.Order.Field.Basic
import Mathlib.Data.Rat.Cast.Order
import Mathlib.Tactic.Common
import Shorthand.Candidate.Rank
import Shorthand.Proofs.Greatest

/-!
Which of some overloads is chosen.

The calls are sorted by the number of their parameters, the widest first, and one pass over the sorted
calls picks one of them. The sort is stable, so what the pass says of the places of calls among the sorted
ones carries over to their places among the calls as they were given.

* `exists_parts_of_mergeSort` is what is used of the stable sort, `Overloads.exists_parts_best` says what
  the pass picks, and `Overloads.exists_isBest` puts the two together.
* `Call.isComplete_filled` and `Call.standing_filled` say what the choice of arguments makes of a call: as
  many of them are from the scope as there are parameters that values in scope can be given for.
* `Ranking.IsBest` is what is asked of the best one of some overloads, and `Ranking.bestOverload_isBest`
  says that this one is chosen.
-/

namespace Shorthand

/-! ### Places in a sorted list -/

section Sorting

variable {α : Type} {le : α → α → Bool} {xs front back : List α} {x : α}

lemma zipIdxLE_iff {p q : α × ℕ} : List.zipIdxLE le p q = true ↔
    le p.1 q.1 = true ∧ (le q.1 p.1 = true → p.2 ≤ q.2) := by
  rw [List.zipIdxLE]
  split
  · next hle =>
    split
    · next hge => simp [hle, hge]
    · next hge => simp [hle, hge]
  · next hle => simp [hle]

/-- Around an element of a sorted list stands what stood around it before the list was sorted, but for
what the order put on the other side. -/
lemma exists_parts_of_mergeSort (trans : ∀ a b c, le a b = true → le b c = true → le a c = true)
    (total : ∀ a b, (le a b || le b a) = true) (h : xs.mergeSort le = front ++ x :: back) :
    ∃ before after, xs = before ++ x :: after
      ∧ (∀ y ∈ before, y ∈ front ∨ y ∈ back ∧ le y x = false)
      ∧ ∀ y ∈ after, y ∈ back ∨ y ∈ front ∧ le x y = false := by
  -- Elements that look the same are told apart by their places.
  have hsorted : (xs.zipIdx.mergeSort (List.zipIdxLE le)).Pairwise
      fun p q => List.zipIdxLE le p q = true :=
    List.pairwise_mergeSort (List.zipIdxLE_trans trans) (List.zipIdxLE_total total) _
  have hmem : ∀ p : α × ℕ, p ∈ xs.zipIdx.mergeSort (List.zipIdxLE le) ↔ xs[p.2]? = some p.1 :=
    fun p => List.mem_mergeSort.trans List.mem_zipIdx_iff_getElem?
  rw [← List.mergeSort_zipIdx, List.map_eq_append_iff] at h
  obtain ⟨front', rest, hparts, rfl, h⟩ := h
  obtain ⟨⟨x, k⟩, back', rfl, rfl, rfl⟩ := List.map_eq_cons_iff.mp h
  rw [hparts] at hsorted hmem
  obtain ⟨-, hback, hfront⟩ := List.pairwise_append.mp hsorted
  have hplace : ∀ y j, xs[j]? = some y → j ≠ k → (y, j) ∈ front' ∨ (y, j) ∈ back' := by
    intro y j hy hjk
    rcases List.mem_append.mp ((hmem (y, j)).mpr hy) with hy | hy
    · exact .inl hy
    · exact .inr ((List.mem_cons.mp hy).resolve_left fun heq => hjk (congrArg Prod.snd heq))
  obtain ⟨hlt, hget⟩ := List.getElem?_eq_some_iff.mp ((hmem (x, k)).mp (by simp))
  refine ⟨xs.take k, xs.drop (k + 1), ?_, fun y hy => ?_, fun y hy => ?_⟩
  · conv_lhs => rw [← List.take_append_drop k xs, List.drop_eq_getElem_cons hlt, hget]
  · obtain ⟨j, hj, hjy⟩ := List.mem_take_iff_getElem.mp hy
    have hjk : j < k := by omega
    rcases hplace y j (by simp [← hjy]) (Nat.ne_of_lt hjk) with hyf | hyb
    · exact .inl (List.mem_map_of_mem hyf)
    · refine .inr ⟨List.mem_map_of_mem hyb, Bool.eq_false_iff.mpr fun hle => ?_⟩
      have hkj := (zipIdxLE_iff.mp ((List.pairwise_cons.mp hback).1 _ hyb)).2 hle
      exact absurd hjk (Nat.not_lt.mpr hkj)
  · obtain ⟨j, hj, hjy⟩ := List.mem_drop_iff_getElem.mp hy
    have hkj : k < k + 1 + j := by omega
    rcases hplace y (k + 1 + j) (by simp [← hjy]) (Nat.ne_of_gt hkj) with hyf | hyb
    · refine .inr ⟨List.mem_map_of_mem hyf, Bool.eq_false_iff.mpr fun hle => ?_⟩
      have hjk := (zipIdxLE_iff.mp (hfront _ hyf _ List.mem_cons_self)).2 hle
      exact absurd hkj (Nat.not_lt.mpr hjk)
    · exact .inl (List.mem_map_of_mem hyb)

end Sorting

/-! ### Arguments from the scope -/

section Arguments

variable {ix : Index} {scope : List Element} {penalty : Nat} {p : ParamInfo} {c : Call}

/-- A value in scope can be given for the parameter. -/
def Index.fits (ix : Index) (scope : List Element) (p : ParamInfo) : Bool :=
  scope.any fun e => ix.isAssignable e.ty p.ty

/-- A value in scope is chosen for a parameter if there is one that can be given for it. -/
lemma isSymbol_argumentFor : (argumentFor ix penalty scope p).isSymbol = ix.fits scope p := by
  have hsome := isSome_leastBy? (argumentScore penalty p) (fittingElements ix scope p)
  have hfits : (!(fittingElements ix scope p).isEmpty) = ix.fits scope p := by
    rw [Bool.eq_iff_iff]
    simp [fittingElements, Index.fits]
  rw [hfits] at hsome
  rw [argumentFor, ← hsome]
  split
  · next e he => simp [he, Argument.isSymbol]
  · next he => simp [he, Argument.isSymbol]

namespace Call

/-- The number of the parameters that values in scope can be given for. -/
def fitCount (c : Call) (ix : Index) (scope : List Element) : Nat :=
  (c.method.params.filter (ix.fits scope)).length

/-- A value in scope can be given for each parameter. -/
def IsFull (c : Call) (ix : Index) (scope : List Element) : Prop :=
  ∀ p ∈ c.method.params, ix.fits scope p = true

/-- The share of the parameters that values in scope can be given for. -/
def share (c : Call) (ix : Index) (scope : List Element) : ℚ := c.fitCount ix scope / c.arity

/-- The call with its arguments from the scope. -/
abbrev filled (c : Call) (ix : Index) (penalty : Nat) (scope : List Element) : Call :=
  c.withArguments (argumentFor ix penalty scope)

lemma symbolCount_filled : (c.filled ix penalty scope).symbolCount = c.fitCount ix scope := by
  have hcomp : (Argument.isSymbol ∘ argumentFor ix penalty scope) = ix.fits scope :=
    funext fun p => isSymbol_argumentFor
  rw [symbolCount, filled, withArguments, List.filter_map, List.length_map, hcomp, fitCount]

lemma arity_filled : (c.filled ix penalty scope).arity = c.arity := rfl

lemma fitCount_le_arity : c.fitCount ix scope ≤ c.arity := List.length_filter_le _ _

/-- A call has all its arguments from the scope if a value there can be given for each parameter. -/
lemma isComplete_filled : (c.filled ix penalty scope).isComplete = true ↔ c.IsFull ix scope := by
  have harity : (c.filled ix penalty scope).arity = c.method.params.length := rfl
  rw [isComplete, beq_iff_eq, symbolCount_filled, fitCount, harity, IsFull,
    List.length_filter_eq_length_iff]

end Call

end Arguments

/-! ### One pass over some calls -/

namespace Call

/-- What the share of the arguments of a call that are from the scope counts as. -/
def standing (comparison : ShareComparison) (c : Call) : ℚ :=
  match comparison with
  | .exact => c.symbolCount / c.whole
  | .truncated => (c.symbolCount / c.whole : ℕ)

variable {comparison : ShareComparison} {a b c : Call}

lemma whole_pos : 0 < c.whole := by
  rw [whole]
  omega

/-- One call beats another one if its standing is greater. -/
lemma beats_iff : a.beats comparison b = true ↔ b.standing comparison < a.standing comparison := by
  cases comparison with
  | exact =>
    have ha : (0 : ℚ) < a.whole := Nat.cast_pos.mpr whole_pos
    have hb : (0 : ℚ) < b.whole := Nat.cast_pos.mpr whole_pos
    simp only [beats, standing, decide_eq_true_eq]
    rw [div_lt_div_iff₀ hb ha]
    exact_mod_cast Iff.rfl
  | truncated => simp [beats, standing]

end Call

namespace Overloads

variable {comparison : ShareComparison}

/-- A pass over some calls keeps the first of those with the greatest standing. -/
lemma exists_parts_unbeaten (comparison : ShareComparison) (first : Call) (others : List Call) :
    ∃ front back, first :: others = front ++ unbeaten comparison first others :: back
      ∧ IsFirstGreatest (Call.standing comparison) front (unbeaten comparison first others) back := by
  have hbetter : ∀ c d : Call, c.beats comparison d = true ↔
      d.standing comparison < c.standing comparison := fun _ _ => Call.beats_iff
  exact exists_parts_foldl hbetter first others

/-- Of some calls one is chosen: the last of those that have all their arguments from the scope, or, if
there are none, the first of those with the greatest standing. -/
structure IsChosen (comparison : ShareComparison) (front : List Call) (c : Call) (back : List Call) :
    Prop where
  complete : ∀ d ∈ front ++ c :: back, d.isComplete = true →
    c.isComplete = true ∧ ∀ e ∈ back, ¬ e.isComplete = true
  unbeaten : (∀ d ∈ front ++ c :: back, ¬ d.isComplete = true) →
    IsFirstGreatest (Call.standing comparison) front c back

lemma exists_parts_choose (first : Call) (others : List Call) :
    ∃ front back, first :: others = front ++ choose comparison first others :: back
      ∧ IsChosen comparison front (choose comparison first others) back := by
  rw [choose]
  cases hlast : ((first :: others).filter (·.isComplete)).getLast? with
  | none =>
    have hnone : ∀ d ∈ first :: others, ¬ d.isComplete = true :=
      List.filter_eq_nil_iff.mp (List.getLast?_eq_none_iff.mp hlast)
    obtain ⟨front, back, hparts, hgreatest⟩ := exists_parts_unbeaten comparison first others
    refine ⟨front, back, hparts, fun d hd hcomplete => ?_, fun _ => hgreatest⟩
    exact absurd hcomplete (hnone d (hparts ▸ hd))
  | some c =>
    obtain ⟨earlier, hfilter⟩ := List.getLast?_eq_some_iff.mp hlast
    obtain ⟨calls, rest, hparts, -, hrest⟩ := List.filter_eq_append_iff.mp hfilter
    obtain ⟨middle, back, rfl, -, hc, hback⟩ := List.filter_eq_cons_iff.mp hrest
    have hback' : ∀ d ∈ back, ¬ d.isComplete = true := List.filter_eq_nil_iff.mp hback
    refine ⟨calls ++ middle, back, ?_, fun _ _ _ => ⟨hc, hback'⟩, fun hnone => ?_⟩
    · rw [hparts, List.append_assoc]
      rfl
    · exact absurd hc (hnone c (by simp))

/-- The best one of some calls is chosen from the widest ones on. -/
lemma exists_parts_best (o : Overloads) (comparison : ShareComparison) :
    ∃ front back, o.widestFirst = front ++ o.best comparison :: back
      ∧ IsChosen comparison front (o.best comparison) back := by
  rw [best]
  split
  · next first others hsorted =>
    rw [hsorted]
    exact exists_parts_choose first others
  · next hsorted =>
    have hmem : o.first ∈ o.widestFirst := List.mem_mergeSort.mpr List.mem_cons_self
    rw [hsorted] at hmem
    cases hmem

/-- The calls stand by the number of their parameters, the greatest first. -/
lemma pairwise_widestFirst (o : Overloads) :
    o.widestFirst.Pairwise fun a b => b.arity ≤ a.arity := by
  have hsorted : o.widestFirst.Pairwise fun a b => decide (b.arity ≤ a.arity) = true :=
    List.pairwise_mergeSort (by simp only [decide_eq_true_eq]; omega)
      (by simp only [Bool.or_eq_true, decide_eq_true_eq]; omega) o.toList
  exact hsorted.imp fun h => of_decide_eq_true h

/-- Of some calls one is the best: among those that have all their arguments from the scope the last of
the narrowest; if there are none, among those with the greatest standing the first of the widest. -/
structure IsBest (comparison : ShareComparison) (before : List Call) (c : Call) (after : List Call) :
    Prop where
  complete : ∀ d ∈ before ++ c :: after, d.isComplete = true → c.isComplete = true
  narrowest : (∀ d ∈ before, d.isComplete = true → c.arity ≤ d.arity)
    ∧ ∀ d ∈ after, d.isComplete = true → c.arity < d.arity
  greatest : (∀ d ∈ before ++ c :: after, ¬ d.isComplete = true) →
    ∀ d ∈ before ++ c :: after, d.standing comparison ≤ c.standing comparison
  widest : (∀ d ∈ before ++ c :: after, ¬ d.isComplete = true) →
    (∀ d ∈ before, d.standing comparison = c.standing comparison → d.arity < c.arity)
      ∧ ∀ d ∈ after, d.standing comparison = c.standing comparison → d.arity ≤ c.arity

/-- The best one of some calls is the best with regard to the order in which they were given. -/
theorem exists_isBest (o : Overloads) (comparison : ShareComparison) :
    ∃ before after, o.toList = before ++ o.best comparison :: after
      ∧ IsBest comparison before (o.best comparison) after := by
  obtain ⟨front, back, hsorted, hchosen⟩ := o.exists_parts_best comparison
  obtain ⟨before, after, hparts, hbefore, hafter⟩ := exists_parts_of_mergeSort
    (by simp only [decide_eq_true_eq]; omega)
    (by simp only [Bool.or_eq_true, decide_eq_true_eq]; omega) hsorted
  have hmem : ∀ d, d ∈ before ++ o.best comparison :: after
      ↔ d ∈ front ++ o.best comparison :: back := by
    intro d
    rw [← hparts, ← hsorted]
    exact List.mem_mergeSort.symm
  have hwide := o.pairwise_widestFirst
  rw [hsorted] at hwide
  obtain ⟨-, hback, hfront⟩ := List.pairwise_append.mp hwide
  have hfront : ∀ d ∈ front, (o.best comparison).arity ≤ d.arity :=
    fun d hd => hfront d hd _ List.mem_cons_self
  have hback : ∀ d ∈ back, d.arity ≤ (o.best comparison).arity := (List.pairwise_cons.mp hback).1
  simp only [decide_eq_false_iff_not, Nat.not_le] at hbefore hafter
  refine ⟨before, after, hparts, fun d hd hcomplete => ?_, ⟨fun d hd hcomplete => ?_,
    fun d hd hcomplete => ?_⟩, fun hnone d hd => ?_, fun hnone => ?_⟩
  · exact (hchosen.complete d ((hmem d).mp hd) hcomplete).1
  · have hlast := (hchosen.complete d ((hmem d).mp (List.mem_append_left _ hd)) hcomplete).2
    rcases hbefore d hd with hd | ⟨hd, -⟩
    · exact hfront d hd
    · exact absurd hcomplete (hlast d hd)
  · have hd' : d ∈ before ++ o.best comparison :: after :=
      List.mem_append_right _ (List.mem_cons_of_mem _ hd)
    have hlast := (hchosen.complete d ((hmem d).mp hd') hcomplete).2
    rcases hafter d hd with hd | ⟨-, hlt⟩
    · exact absurd hcomplete (hlast d hd)
    · exact hlt
  · exact (hchosen.unbeaten fun e he => hnone e ((hmem e).mpr he)).le ((hmem d).mp hd)
  · have hgreatest := hchosen.unbeaten fun e he => hnone e ((hmem e).mpr he)
    refine ⟨fun d hd heq => ?_, fun d hd heq => ?_⟩
    · rcases hbefore d hd with hd | ⟨-, hlt⟩
      · exact absurd heq (ne_of_lt (hgreatest.front d hd))
      · exact hlt
    · rcases hafter d hd with hd | ⟨hd, -⟩
      · exact hback d hd
      · exact absurd heq (ne_of_lt (hgreatest.front d hd))

end Overloads

/-! ### The best overload -/

namespace Call

variable {ix : Index} {scope : List Element} {penalty : Nat} {c : Call}

/-- The standing of a call that lacks arguments from the scope is its share, or nothing at all. -/
lemma standing_filled (h : ¬ c.IsFull ix scope) (comparison : ShareComparison) :
    (c.filled ix penalty scope).standing comparison
      = match comparison with
        | .exact => c.share ix scope
        | .truncated => 0 := by
  have hne : c.fitCount ix scope ≠ c.arity := fun heq => by
    have hcomplete : (c.filled ix penalty scope).isComplete = true := by
      rw [isComplete, symbolCount_filled, heq]
      exact beq_self_eq_true _
    exact h (isComplete_filled.mp hcomplete)
  have hlt : c.fitCount ix scope < c.arity := lt_of_le_of_ne fitCount_le_arity hne
  have hwhole : (c.filled ix penalty scope).whole = c.arity := Nat.max_eq_left (by
    show 1 ≤ c.arity
    omega)
  cases comparison with
  | exact => rw [standing, symbolCount_filled, hwhole, share]
  | truncated =>
    rw [standing, symbolCount_filled, hwhole, Nat.div_eq_of_lt hlt]
    rfl

end Call

namespace Ranking

variable (r : Ranking)

/-- What the best one of some calls is, told by what the values in scope can be given for. -/
structure IsBest (scope : List Element) (before : List Call) (c : Call) (after : List Call) :
    Prop where
  /-- If some call can have all its arguments from the scope, so can the best one, and it is the last of
  the narrowest of these. -/
  full : (∃ d ∈ before ++ c :: after, d.IsFull r.index scope) →
    c.IsFull r.index scope
      ∧ (∀ d ∈ before, d.IsFull r.index scope → c.arity ≤ d.arity)
      ∧ ∀ d ∈ after, d.IsFull r.index scope → c.arity < d.arity
  /-- Otherwise, if shares are compared as fractions, it has the greatest share, and it is the first of
  the widest of those that have it. -/
  exact : (∀ d ∈ before ++ c :: after, ¬ d.IsFull r.index scope) → r.settings.comparison = .exact →
    (∀ d ∈ before ++ c :: after, d.share r.index scope ≤ c.share r.index scope)
      ∧ (∀ d ∈ before, d.share r.index scope = c.share r.index scope → d.arity < c.arity)
      ∧ ∀ d ∈ after, d.share r.index scope = c.share r.index scope → d.arity ≤ c.arity
  /-- Otherwise, if shares are cut down to whole numbers, it is the first of the widest. -/
  truncated : (∀ d ∈ before ++ c :: after, ¬ d.IsFull r.index scope) →
    r.settings.comparison = .truncated →
    (∀ d ∈ before, d.arity < c.arity) ∧ ∀ d ∈ after, d.arity ≤ c.arity

/-- What is the best call when all have their arguments is so for what the scope can be given for. -/
lemma isBest_of_filled {scope : List Element} {penalty : Nat} {before after : List Call} {c : Call}
    (h : Overloads.IsBest r.settings.comparison (before.map (·.filled r.index penalty scope))
      (c.filled r.index penalty scope) (after.map (·.filled r.index penalty scope))) :
    r.IsBest scope before c after := by
  have hparts : before.map (·.filled r.index penalty scope) ++ c.filled r.index penalty scope
      :: after.map (·.filled r.index penalty scope)
        = (before ++ c :: after).map (·.filled r.index penalty scope) := by
    rw [List.map_append, List.map_cons]
  obtain ⟨hcomplete, ⟨hbefore, hafter⟩, hgreatest, hwidest⟩ := h
  rw [hparts] at hcomplete hgreatest hwidest
  simp only [List.forall_mem_map, Call.isComplete_filled, Call.arity_filled]
    at hcomplete hbefore hafter hgreatest hwidest
  have hc : c ∈ before ++ c :: after := List.mem_append_right _ List.mem_cons_self
  refine ⟨fun ⟨d, hd, hfull⟩ => ⟨hcomplete d hd hfull, hbefore, hafter⟩, fun hnone hexact => ?_,
    fun hnone htruncated => ?_⟩
  · have hshare : ∀ d ∈ before ++ c :: after,
        (d.filled r.index penalty scope).standing r.settings.comparison = d.share r.index scope := by
      intro d hd
      rw [hexact]
      exact Call.standing_filled (hnone d hd) .exact
    refine ⟨fun d hd => ?_, fun d hd heq => ?_, fun d hd heq => ?_⟩
    · rw [← hshare d hd, ← hshare c hc]
      exact hgreatest hnone d hd
    · rw [← hshare d (List.mem_append_left _ hd), ← hshare c hc] at heq
      exact (hwidest hnone).1 d hd heq
    · rw [← hshare d (List.mem_append_right _ (List.mem_cons_of_mem _ hd)), ← hshare c hc] at heq
      exact (hwidest hnone).2 d hd heq
  · have hnothing : ∀ d ∈ before ++ c :: after,
        (d.filled r.index penalty scope).standing r.settings.comparison
          = (c.filled r.index penalty scope).standing r.settings.comparison := by
      intro d hd
      rw [htruncated]
      exact (Call.standing_filled (hnone d hd) .truncated).trans
        (Call.standing_filled (hnone c hc) .truncated).symm
    refine ⟨fun d hd => ?_, fun d hd => ?_⟩
    · exact (hwidest hnone).1 d hd (hnothing d (List.mem_append_left _ hd))
    · exact (hwidest hnone).2 d hd
        (hnothing d (List.mem_append_right _ (List.mem_cons_of_mem _ hd)))

/-- Of some overloads the best one is chosen and given its arguments. -/
theorem bestOverload_isBest (scope : List Element) (o : Overloads) :
    ∃ before c after, o.toList = before ++ c :: after
      ∧ r.bestOverload scope o
        = c.withArguments (argumentFor r.index r.settings.assignablePenalty scope)
      ∧ r.IsBest scope before c after := by
  have hfilled : ∀ choose : ParamInfo → Argument,
      (o.withArguments choose).toList = o.toList.map (·.withArguments choose) := fun _ => rfl
  obtain ⟨before', after', hparts, hbest⟩ := (o.withArguments
    (argumentFor r.index r.settings.assignablePenalty scope)).exists_isBest r.settings.comparison
  rw [hfilled] at hparts
  obtain ⟨before, rest, hrest, rfl, hmap⟩ := List.map_eq_append_iff.mp hparts
  obtain ⟨c, after, rfl, hc, rfl⟩ := List.map_eq_cons_iff.mp hmap
  rw [← hc] at hbest
  exact ⟨before, c, after, hrest, hc.symm, r.isBest_of_filled hbest⟩

end Ranking

end Shorthand
