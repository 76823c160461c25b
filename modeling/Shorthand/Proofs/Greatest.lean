import Mathlib.Algebra.Order.Field.Basic
import Mathlib.Data.Rat.Cast.Order
import Mathlib.Tactic.Common
import Shorthand.Candidate.Overload

/-!
Keeping the best element in one pass.

A pass over some elements that goes over to another one only if it is strictly better keeps the first of
the best ones.

* `IsFirstGreatest` says what it is to be the first with the greatest score, and `exists_parts_foldl` that
  a pass keeps this one.
* `exists_parts_leastBy?` says the same of the first with the least score, and `isSome_leastBy?` that there
  is one wherever there are elements.
-/

namespace Shorthand

/-! ### The greatest score -/

section Greatest

variable {α : Type} {score : α → ℚ} {front back : List α} {x y : α}

/-- An element has the greatest score of some elements, and is the first that has it. -/
structure IsFirstGreatest (score : α → ℚ) (front : List α) (x : α) (back : List α) : Prop where
  front : ∀ y ∈ front, score y < score x
  back : ∀ y ∈ back, score y ≤ score x

namespace IsFirstGreatest

lemma le (h : IsFirstGreatest score front x back) (hy : y ∈ front ++ x :: back) :
    score y ≤ score x := by
  rcases List.mem_append.mp hy with hy | hy
  · exact le_of_lt (h.front y hy)
  · rcases List.mem_cons.mp hy with rfl | hy
    · exact le_rfl
    · exact h.back y hy

/-- An element with a smaller score makes no difference in front. -/
lemma cons (h : IsFirstGreatest score front x back) (hy : score y < score x) :
    IsFirstGreatest score (y :: front) x back :=
  ⟨List.forall_mem_cons.mpr ⟨hy, h.front⟩, h.back⟩

/-- An element makes no difference behind one with a score that is not smaller. -/
lemma insert {first : α} {others : List α} (h : IsFirstGreatest score front x back)
    (hparts : first :: others = front ++ x :: back) (hy : score y ≤ score first) :
    ∃ front back, first :: y :: others = front ++ x :: back
      ∧ IsFirstGreatest score front x back := by
  cases front with
  | nil =>
    obtain ⟨rfl, rfl⟩ := List.cons.inj hparts
    exact ⟨[], y :: others, rfl, h.front, List.forall_mem_cons.mpr ⟨hy, h.back⟩⟩
  | cons z front =>
    obtain ⟨rfl, rfl⟩ := List.cons.inj hparts
    have hfirst : score first < score x := h.front first List.mem_cons_self
    have hfront : ∀ z ∈ front, score z < score x := fun z hz => h.front z (List.mem_cons_of_mem _ hz)
    refine ⟨first :: y :: front, back, rfl, ?_, h.back⟩
    exact List.forall_mem_cons.mpr
      ⟨hfirst, List.forall_mem_cons.mpr ⟨lt_of_le_of_lt hy hfirst, hfront⟩⟩

end IsFirstGreatest

/-- A pass that goes over to an element only if its score is greater keeps the first of those with the
greatest score. -/
lemma exists_parts_foldl {better : α → α → Bool} (hbetter : ∀ y x, better y x = true ↔ score x < score y)
    (first : α) (others : List α) :
    ∃ front back, first :: others
        = front ++ others.foldl (fun best y => if better y best then y else best) first :: back
      ∧ IsFirstGreatest score front
        (others.foldl (fun best y => if better y best then y else best) first) back := by
  induction others generalizing first with
  | nil => exact ⟨[], [], rfl, by simp, by simp⟩
  | cons y others ih =>
    rw [List.foldl_cons]
    by_cases hy : better y first = true
    · rw [if_pos hy]
      obtain ⟨front, back, hparts, hgreatest⟩ := ih y
      have hle := hgreatest.le (hparts ▸ List.mem_cons_self)
      refine ⟨first :: front, back, congrArg (first :: ·) hparts, hgreatest.cons ?_⟩
      exact lt_of_lt_of_le ((hbetter y first).mp hy) hle
    · rw [if_neg hy]
      obtain ⟨front, back, hparts, hgreatest⟩ := ih first
      rw [hbetter, not_lt] at hy
      exact hgreatest.insert hparts hy

end Greatest

/-! ### The least score -/

section Least

variable {α : Type} {score : α → Nat} {xs : List α} {x : α}

lemma foldl_better (best : α) (xs : List α) : xs.foldl (leastBy?.better score) (some best)
    = some (xs.foldl (fun best y => if decide (score y < score best) = true then y else best) best) := by
  induction xs generalizing best with
  | nil => rfl
  | cons y xs ih =>
    rw [List.foldl_cons, List.foldl_cons, leastBy?.better, ih]
    simp only [decide_eq_true_eq]

/-- The first element with the least score has a smaller one than all before it. -/
lemma exists_parts_leastBy? (h : leastBy? score xs = some x) :
    ∃ before after, xs = before ++ x :: after ∧ (∀ y ∈ before, score x < score y)
      ∧ ∀ y ∈ after, score x ≤ score y := by
  cases xs with
  | nil => cases h
  | cons first others =>
    have hlast : some (others.foldl
        (fun best y => if decide (score y < score best) = true then y else best) first) = some x :=
      (foldl_better first others).symm.trans h
    have hbetter : ∀ y z : α, decide (score y < score z) = true ↔ -(score z : ℚ) < -(score y : ℚ) := by
      intro y z
      rw [decide_eq_true_eq, neg_lt_neg_iff, Nat.cast_lt]
    obtain ⟨before, after, hparts, hgreatest⟩ := exists_parts_foldl hbetter first others
    rw [Option.some.inj hlast] at hparts hgreatest
    refine ⟨before, after, hparts, fun y hy => ?_, fun y hy => ?_⟩
    · exact Nat.cast_lt.mp (neg_lt_neg_iff.mp (hgreatest.front y hy))
    · exact Nat.cast_le.mp (neg_le_neg_iff.mp (hgreatest.back y hy))

lemma isSome_leastBy? (score : α → Nat) (xs : List α) : (leastBy? score xs).isSome = !xs.isEmpty := by
  cases xs with
  | nil => rfl
  | cons first others => exact congrArg Option.isSome (foldl_better first others)

lemma leastBy?_eq_none_iff : leastBy? score xs = none ↔ xs = [] := by
  rw [← Option.not_isSome_iff_eq_none, isSome_leastBy?]
  simp

end Least

end Shorthand
