import Mathlib.Data.List.Induction
import Mathlib.Order.Bounds.Basic
import Mathlib.Tactic.Common
import Mathlib.Tactic.SplitIfs
import Shorthand.Text.Distance

/-!
The distance of two texts is the number of edits that are needed.

`Edits n as bs` says that `n` edits make `bs` of `as`, each of them at any place. The distance has the
equations of a recursion over the front of both texts. From these it follows that so many edits suffice
(`edits_editDistance`). That no fewer do rests on what one edit can do: it changes the distance to any
text by at most one (`Edit.editDistance_le`).

* `editDistance_isLeast`: the distance is the least number of edits that make one text of the other.
* `Edits.trans`, `Edits.symm` and `Edits.reverse`: what can be done with edits, and from each of them what
  it says of distances.
* `rowAfter_eq`: while the distance is computed in one row, its cells are the distances from the
  characters so far to the beginnings of the other text.
* `editDistance_metric`: the distance, however it is computed, is a metric.
-/

namespace Shorthand.Text

variable {as bs cs : List Char} {a b : Char} {m n : Nat}

/-! ### The equations of the distance -/

/-- The distances from a text to the end parts of another one. -/
def endDistances (as bs : List Char) : List Nat :=
  as.foldr (fun a row => distanceRow a bs row) (lengthRow bs)

lemma endDistances_nil_right (as : List Char) : endDistances as [] = [as.length] := by
  induction as with
  | nil => rfl
  | cons a as ih =>
    have hrow : endDistances (a :: as) [] = distanceRow a [] (endDistances as []) := rfl
    rw [hrow, ih]
    rfl

/-- Behind the first distance come those to the end parts of the tail. -/
lemma endDistances_cons_right (as : List Char) (b : Char) (bs : List Char) :
    endDistances as (b :: bs) = editDistance as (b :: bs) :: endDistances as bs := by
  induction as with
  | nil => rfl
  | cons a as ih =>
    have hrow : endDistances (a :: as) (b :: bs) = distanceRow a (b :: bs) (endDistances as (b :: bs)) :=
      rfl
    rw [editDistance, ← endDistances, hrow, ih]
    rfl

@[simp] lemma editDistance_nil_left (bs : List Char) : editDistance [] bs = bs.length := by
  cases bs <;> rfl

@[simp] lemma editDistance_nil_right (as : List Char) : editDistance as [] = as.length := by
  rw [editDistance, ← endDistances, endDistances_nil_right]
  rfl

/-- The first character is taken out, put in or changed, or it stays. -/
lemma editDistance_cons_cons (a : Char) (as : List Char) (b : Char) (bs : List Char) :
    editDistance (a :: as) (b :: bs)
      = min (min (editDistance as (b :: bs) + 1) (editDistance (a :: as) bs + 1))
          (editDistance as bs + if a = b then 0 else 1) := by
  have hrow : endDistances (a :: as) (b :: bs) = distanceRow a (b :: bs) (endDistances as (b :: bs)) := rfl
  rw [editDistance, ← endDistances, hrow, endDistances_cons_right]
  rfl

lemma editDistance_self (as : List Char) : editDistance as as = 0 := by
  induction as with
  | nil => rfl
  | cons a as ih => simp [editDistance_cons_cons, ih]

/-! ### What one edit can do -/

/-- One character of a text is put in, taken out or changed. -/
inductive Edit : List Char → List Char → Prop
  | insert (front : List Char) (c : Char) (back : List Char) : Edit (front ++ back) (front ++ c :: back)
  | delete (front : List Char) (c : Char) (back : List Char) : Edit (front ++ c :: back) (front ++ back)
  | substitute (front : List Char) (c d : Char) (back : List Char) :
    Edit (front ++ c :: back) (front ++ d :: back)

lemma editDistance_cons_right_le (as : List Char) (c : Char) (cs : List Char) :
    editDistance as (c :: cs) ≤ editDistance as cs + 1 := by
  cases as with
  | nil => simp
  | cons a as =>
    rw [editDistance_cons_cons]
    omega

lemma editDistance_cons_left_le (a : Char) (as cs : List Char) :
    editDistance (a :: as) cs ≤ editDistance as cs + 1 := by
  cases cs with
  | nil => simp
  | cons c cs =>
    rw [editDistance_cons_cons]
    omega

lemma editDistance_le_cons_left (a : Char) (as cs : List Char) :
    editDistance as cs ≤ editDistance (a :: as) cs + 1 := by
  induction cs with
  | nil =>
    rw [editDistance_nil_right, editDistance_nil_right, List.length_cons]
    omega
  | cons c cs ih =>
    have hput := editDistance_cons_right_le as c cs
    rw [editDistance_cons_cons]
    omega

/-- Another first character changes the distance by at most one. -/
lemma editDistance_substitute_le (a b : Char) (as cs : List Char) :
    editDistance (a :: as) cs ≤ editDistance (b :: as) cs + 1 := by
  induction cs with
  | nil => simp
  | cons c cs ih =>
    rw [editDistance_cons_cons a, editDistance_cons_cons b]
    split_ifs <;> omega

/-- What changes the distance by at most one does so behind a first character, too. -/
lemma editDistance_cons_le_of_le (a : Char) (h : ∀ cs, editDistance as cs ≤ editDistance bs cs + 1)
    (cs : List Char) : editDistance (a :: as) cs ≤ editDistance (a :: bs) cs + 1 := by
  induction cs with
  | nil =>
    have hnil := h []
    simp only [editDistance_nil_right, List.length_cons] at hnil ⊢
    omega
  | cons c cs ih =>
    have htaken := h (c :: cs)
    have hkept := h cs
    rw [editDistance_cons_cons, editDistance_cons_cons]
    omega

/-- An edit changes the distance to any text by at most one. -/
lemma Edit.editDistance_le (h : Edit as bs) (cs : List Char) :
    editDistance as cs ≤ editDistance bs cs + 1 := by
  cases h with
  | insert front c back =>
    induction front generalizing cs with
    | nil => exact editDistance_le_cons_left c back cs
    | cons a front ih => exact editDistance_cons_le_of_le a ih cs
  | delete front c back =>
    induction front generalizing cs with
    | nil => exact editDistance_cons_left_le c back cs
    | cons a front ih => exact editDistance_cons_le_of_le a ih cs
  | substitute front c d back =>
    induction front generalizing cs with
    | nil => exact editDistance_substitute_le c d back cs
    | cons a front ih => exact editDistance_cons_le_of_le a ih cs

/-! ### Edits one after the other -/

/-- So many edits, one after the other, make the second text of the first. -/
inductive Edits : Nat → List Char → List Char → Prop
  | done {as : List Char} : Edits 0 as as
  | step {n : Nat} {as bs cs : List Char} (first : Edit as bs) (rest : Edits n bs cs) :
    Edits (n + 1) as cs

lemma Edits.editDistance_le (h : Edits n as bs) : editDistance as bs ≤ n := by
  induction h with
  | @done as => rw [editDistance_self]
  | @step n as bs cs first rest ih =>
    calc editDistance as cs
        ≤ editDistance bs cs + 1 := first.editDistance_le cs
      _ ≤ n + 1 := Nat.succ_le_succ ih

lemma Edit.cons (h : Edit as bs) (c : Char) : Edit (c :: as) (c :: bs) := by
  cases h with
  | insert front d back => exact .insert (c :: front) d back
  | delete front d back => exact .delete (c :: front) d back
  | substitute front d e back => exact .substitute (c :: front) d e back

lemma Edits.cons (h : Edits n as bs) (c : Char) : Edits n (c :: as) (c :: bs) := by
  induction h with
  | done => exact .done
  | step first rest ih => exact .step (first.cons c) ih

/-- As many edits as the distance says suffice: which one comes first is read off the equations. -/
lemma edits_editDistance (as bs : List Char) : Edits (editDistance as bs) as bs := by
  induction as generalizing bs with
  | nil =>
    rw [editDistance_nil_left]
    induction bs with
    | nil => exact .done
    | cons b bs ih => exact .step (.insert [] b []) (ih.cons b)
  | cons a as ih =>
    have hdelete (bs : List Char) : Edits (editDistance as bs + 1) (a :: as) bs :=
      .step (.delete [] a as) (ih bs)
    induction bs with
    | nil => simpa using hdelete []
    | cons b bs ihb =>
      have hinsert : Edits (editDistance (a :: as) bs + 1) (a :: as) (b :: bs) :=
        .step (.insert [] b (a :: as)) (ihb.cons b)
      have hkeep : Edits (editDistance as bs + if a = b then 0 else 1) (a :: as) (b :: bs) := by
        by_cases hab : a = b
        · rw [if_pos hab, hab]
          exact (ih bs).cons b
        · rw [if_neg hab]
          exact .step (.substitute [] a b as) ((ih bs).cons b)
      have hleast : editDistance (a :: as) (b :: bs) = editDistance as (b :: bs) + 1
          ∨ editDistance (a :: as) (b :: bs) = editDistance (a :: as) bs + 1
          ∨ editDistance (a :: as) (b :: bs) = editDistance as bs + if a = b then 0 else 1 := by
        rw [editDistance_cons_cons]
        omega
      rcases hleast with h | h | h
      · rw [h]
        exact hdelete (b :: bs)
      · rw [h]
        exact hinsert
      · rw [h]
        exact hkeep

/-- The distance is the least number of edits that make one text of the other. -/
theorem editDistance_isLeast (as bs : List Char) :
    IsLeast {n | Edits n as bs} (editDistance as bs) :=
  ⟨edits_editDistance as bs, fun _ h => h.editDistance_le⟩

lemma Edits.trans (h : Edits m as bs) (h' : Edits n bs cs) : Edits (m + n) as cs := by
  induction h with
  | done =>
    rw [Nat.zero_add]
    exact h'
  | step first rest ih =>
    rw [Nat.succ_add]
    exact .step first (ih h')

lemma Edit.symm (h : Edit as bs) : Edit bs as := by
  cases h with
  | insert front c back => exact .delete front c back
  | delete front c back => exact .insert front c back
  | substitute front c d back => exact .substitute front d c back

lemma Edits.symm (h : Edits n as bs) : Edits n bs as := by
  induction h with
  | done => exact .done
  | step first rest ih => exact ih.trans (.step first.symm .done)

lemma Edit.reverse (h : Edit as bs) : Edit as.reverse bs.reverse := by
  cases h with
  | insert front c back => simpa using Edit.insert back.reverse c front.reverse
  | delete front c back => simpa using Edit.delete back.reverse c front.reverse
  | substitute front c d back => simpa using Edit.substitute back.reverse c d front.reverse

lemma Edits.reverse (h : Edits n as bs) : Edits n as.reverse bs.reverse := by
  induction h with
  | done => exact .done
  | step first rest ih => exact .step first.reverse ih

lemma eq_of_edits_zero (h : Edits 0 as bs) : as = bs := by
  cases h
  rfl

lemma editDistance_comm (as bs : List Char) : editDistance as bs = editDistance bs as :=
  Nat.le_antisymm (edits_editDistance bs as).symm.editDistance_le
    (edits_editDistance as bs).symm.editDistance_le

lemma editDistance_reverse (as bs : List Char) :
    editDistance as.reverse bs.reverse = editDistance as bs := by
  have hback := (edits_editDistance as.reverse bs.reverse).reverse
  rw [List.reverse_reverse, List.reverse_reverse] at hback
  exact Nat.le_antisymm (edits_editDistance as bs).reverse.editDistance_le hback.editDistance_le

/-! ### One row -/

/-- The equation of the distance at the other end of the texts. -/
lemma editDistance_concat_concat (as : List Char) (a : Char) (bs : List Char) (b : Char) :
    editDistance (as ++ [a]) (bs ++ [b])
      = min (min (editDistance as bs + if a = b then 0 else 1) (editDistance as (bs ++ [b]) + 1))
          (editDistance (as ++ [a]) bs + 1) := by
  have h := editDistance_cons_cons a as.reverse b bs.reverse
  simp only [← List.reverse_concat, editDistance_reverse] at h
  omega

/-- The distances from a text to the beginnings of another one that are longer than `front`. -/
def distancesBehind (as : List Char) : (front : List Char) → List Char → List Nat
  | _, [] => []
  | front, b :: bs => editDistance as (front ++ [b]) :: distancesBehind as (front ++ [b]) bs

lemma distancesBehind_nil (front bs : List Char) :
    distancesBehind [] front bs = List.range' (front.length + 1) bs.length := by
  induction bs generalizing front with
  | nil => rfl
  | cons b bs ih =>
    rw [distancesBehind, ih, editDistance_nil_left, List.length_append, List.length_cons, List.length_nil,
      List.length_cons, List.range'_succ]

lemma getLastD_distancesBehind (as front bs : List Char) (d : Nat) :
    (editDistance as front :: distancesBehind as front bs).getLastD d = editDistance as (front ++ bs) := by
  induction bs generalizing front with
  | nil => simp [distancesBehind]
  | cons b bs ih =>
    have h := ih (front ++ [b])
    rw [List.append_assoc, List.singleton_append] at h
    rw [distancesBehind, ← h]
    rfl

/-- Overwriting cells keeps them distances: of the three cells that a new one depends on one is still there
and the two others are passed along. -/
lemma overwrite_distancesBehind (as : List Char) (a : Char) (front bs : List Char) :
    overwrite a (editDistance as front) (editDistance (as ++ [a]) front) bs (distancesBehind as front bs)
      = distancesBehind (as ++ [a]) front bs := by
  induction bs generalizing front with
  | nil => rfl
  | cons b bs ih =>
    rw [distancesBehind, distancesBehind, overwrite, ← editDistance_concat_concat, ih]

/-- While characters are read the row has the distances from them to the beginnings of the other text. -/
lemma rowAfter_eq (as bs : List Char) :
    as.zipIdx.foldl (overwriteRow bs) (List.range (bs.length + 1))
      = editDistance as [] :: distancesBehind as [] bs := by
  induction as using List.reverseRecOn with
  | nil =>
    rw [distancesBehind_nil, List.range_eq_range', List.range'_succ]
    rfl
  | append_singleton as a ih =>
    have hfirst : as.length + 1 = editDistance (as ++ [a]) [] := by simp
    rw [List.zipIdx_append, List.foldl_append, ih, List.zipIdx_singleton, List.foldl_cons, List.foldl_nil,
      Nat.zero_add, overwriteRow, hfirst, overwrite_distancesBehind]

lemma rowDistance_eq (as bs : List Char) : rowDistance as bs = editDistance as bs := by
  rw [rowDistance, rowAfter_eq, getLastD_distancesBehind, List.nil_append]

/-- The distance of two texts, computed from their ends or in one row from the front, is the least number
of characters to put in, take out or change. So it is a metric: it does not depend on the order of the texts,
only a text itself has no distance from it, and a way round is not shorter. -/
theorem editDistance_metric (s t u : String) :
    IsLeast {n | Edits n s.toList t.toList} (editDistance s.toList t.toList)
      ∧ rowDistance s.toList t.toList = editDistance s.toList t.toList
      ∧ editDistance s.toList t.toList = editDistance t.toList s.toList
      ∧ (editDistance s.toList t.toList = 0 ↔ s = t)
      ∧ editDistance s.toList u.toList
          ≤ editDistance s.toList t.toList + editDistance t.toList u.toList := by
  refine ⟨editDistance_isLeast _ _, rowDistance_eq _ _, editDistance_comm _ _, ?_, ?_⟩
  · constructor
    · intro hzero
      have hedits := edits_editDistance s.toList t.toList
      rw [hzero] at hedits
      exact String.toList_injective (eq_of_edits_zero hedits)
    · rintro rfl
      exact editDistance_self s.toList
  · have hst := edits_editDistance s.toList t.toList
    have htu := edits_editDistance t.toList u.toList
    exact (hst.trans htu).editDistance_le

example : rowDistance "kitten".toList "sitting".toList = 3 := by decide

end Shorthand.Text
