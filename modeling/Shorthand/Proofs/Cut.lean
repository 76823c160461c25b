import Mathlib.Data.List.Basic

/-!
Cutting a list where a condition stops holding.

If a condition holds of an element only where it holds of all elements before it, the list is cut in two:
the condition holds in front of the cut and nowhere behind it.

* `takeWhile_eq_filter` and `drop_takeWhile_eq_filter`: the two parts are what the condition selects and
  what it leaves.
* `lt_length_takeWhile_iff`: an index lies in front of the cut if the condition holds there.
* `bisect_eq_length_takeWhile`: a search by halves finds the cut.
-/

namespace Shorthand

variable {α : Type} {xs : List α} {p : α → Bool}

/-- What holds of an element only if it holds of those before it holds of just the first elements. -/
lemma takeWhile_eq_filter (h : xs.Pairwise fun x y => p y = true → p x = true) :
    xs.takeWhile p = xs.filter p := by
  induction xs with
  | nil => rfl
  | cons x xs ih =>
    obtain ⟨hx, hxs⟩ := List.pairwise_cons.mp h
    by_cases hp : p x = true
    · rw [List.takeWhile_cons_of_pos hp, List.filter_cons_of_pos hp, ih hxs]
    · have hnone : xs.filter p = [] := List.filter_eq_nil_iff.mpr fun y hy hp' => hp (hx y hy hp')
      rw [List.takeWhile_cons_of_neg hp, List.filter_cons_of_neg hp, hnone]

/-- It fails of just the elements behind these. -/
lemma drop_takeWhile_eq_filter (h : xs.Pairwise fun x y => p y = true → p x = true) :
    xs.drop (xs.takeWhile p).length = xs.filter fun x => !p x := by
  induction xs with
  | nil => rfl
  | cons x xs ih =>
    obtain ⟨hx, hxs⟩ := List.pairwise_cons.mp h
    by_cases hp : p x = true
    · rw [List.takeWhile_cons_of_pos hp, List.length_cons, List.drop_succ_cons, ih hxs,
        List.filter_cons_of_neg (by simpa using hp)]
    · have hall : xs.filter (fun x => !p x) = xs :=
        List.filter_eq_self.mpr fun y hy => by simpa using fun hp' => hp (hx y hy hp')
      rw [List.takeWhile_cons_of_neg hp, List.filter_cons_of_pos (by simpa using hp), hall]
      rfl

/-- An index lies in front of the cut if the condition holds there. -/
lemma lt_length_takeWhile_iff (h : xs.Pairwise fun x y => p y = true → p x = true) {i : Nat}
    (hi : i < xs.length) : i < (xs.takeWhile p).length ↔ p xs[i] = true := by
  induction xs generalizing i with
  | nil => cases hi
  | cons x xs ih =>
    obtain ⟨hx, hxs⟩ := List.pairwise_cons.mp h
    by_cases hp : p x = true
    · rw [List.takeWhile_cons_of_pos hp, List.length_cons]
      cases i with
      | zero => simpa using hp
      | succ i => simpa using ih hxs (Nat.lt_of_succ_lt_succ hi)
    · rw [List.takeWhile_cons_of_neg hp]
      cases i with
      | zero => simpa using hp
      | succ i =>
        have hi' : i < xs.length := Nat.lt_of_succ_lt_succ hi
        simpa using fun hp' => hp (hx _ (List.getElem_mem hi') hp')

/-! ### Searching by halves -/

/-- Searches for the place from which on a condition does not hold, among those from `lo` to `hi`: every
step asks in the middle and goes on in one of the halves. -/
def bisect (holds : Nat → Bool) (lo hi : Nat) : Nat :=
  if lo < hi then
    let mid := (lo + hi) / 2
    if holds mid then bisect holds (mid + 1) hi else bisect holds lo mid
  else lo
termination_by hi - lo

/-- The search keeps the place between its bounds, and stops where these meet. -/
lemma bisect_eq {holds : Nat → Bool} {lo hi place : Nat} (hlo : lo ≤ place) (hhi : place ≤ hi)
    (h : ∀ i < hi, holds i = true ↔ i < place) : bisect holds lo hi = place := by
  induction hn : hi - lo using Nat.strongRecOn generalizing lo hi with
  | ind n ih =>
    rw [bisect]
    split
    · next hlt =>
      have hmid := h ((lo + hi) / 2) (by omega)
      dsimp only
      split
      · next hholds =>
        have hbelow := hmid.mp hholds
        exact ih (hi - ((lo + hi) / 2 + 1)) (by omega) (by omega) hhi h rfl
      · next hholds =>
        have habove : place ≤ (lo + hi) / 2 := Nat.le_of_not_lt fun hlt => hholds (hmid.mpr hlt)
        exact ih ((lo + hi) / 2 - lo) (by omega) hlo habove (fun i hi => h i (by omega)) rfl
    · next hle => omega

/-- A search by halves finds the cut. -/
theorem bisect_eq_length_takeWhile (h : xs.Pairwise fun x y => p y = true → p x = true) :
    bisect (fun i => xs[i]?.any p) 0 xs.length = (xs.takeWhile p).length := by
  refine bisect_eq (Nat.zero_le _) (List.takeWhile_prefix p).length_le fun i hi => ?_
  rw [lt_length_takeWhile_iff h hi, List.getElem?_eq_getElem hi, Option.any_some]

end Shorthand
