import Mathlib.Data.List.DropRight
import Mathlib.Data.List.Induction
import Mathlib.Data.Prod.Lex
import Mathlib.Data.Set.Function
import Mathlib.Order.Monotone.Basic
import Shorthand.Proofs.Cut
import Shorthand.Proofs.Text.Boundary
import Shorthand.Text.Lines

/-!
The line and column of an offset.

`position` is the line and column at the end of a text, read off its characters: the newlines are counted,
and what is behind the last one. The lines of a text that start by some offset inside of it are those of the
part before the offset (`takeWhile_lineStarts`), and the last of them starts where the characters behind the
last newline do (`bytes_lastLine`).

* `lineStarts_pairwise`: lines start one behind the other, so the line of an offset can be searched for by
  halves (`bisect_lineStarts`).
* `lineCol_bytes`: the line and column of an offset are the position at the end of the part before it.
* `lineCol_of_le`: behind the end of a text they are those of the end.
* `position_lt`: the position moves on with every character.
* `lineCol_located`: all of this for the boundaries of a text.
-/

namespace Shorthand.Text

variable {as bs cs : List Char} {offset pos : Nat}

/-- The characters behind the last newline. -/
def lastLine (cs : List Char) : List Char := cs.rtakeWhile (· != '\n')

/-- The line and column at the end of a text. -/
def position (cs : List Char) : Nat × Nat := (cs.count '\n' + 1, (lastLine cs).length + 1)

/-! ### Where lines start -/

lemma lineStartsFrom_append (pos : Nat) (as bs : List Char) :
    lineStartsFrom pos (as ++ bs) = lineStartsFrom pos as ++ lineStartsFrom (pos + bytes as) bs := by
  induction as generalizing pos with
  | nil => rfl
  | cons a as ih =>
    have hrest := ih (pos + a.utf8Size)
    rw [Nat.add_assoc, ← bytes_cons] at hrest
    by_cases ha : a = '\n'
    · rw [List.cons_append, lineStartsFrom, lineStartsFrom, if_pos ha, if_pos ha, hrest, List.cons_append]
    · rw [List.cons_append, lineStartsFrom, lineStartsFrom, if_neg ha, if_neg ha, hrest]

lemma lineStarts_append (as bs : List Char) :
    lineStarts (as ++ bs) = lineStarts as ++ lineStartsFrom (bytes as) bs := by
  rw [lineStarts, lineStartsFrom_append, Nat.zero_add]
  rfl

lemma length_lineStarts (cs : List Char) : (lineStarts cs).length = cs.count '\n' + 1 := by
  have hfrom (pos : Nat) : (lineStartsFrom pos cs).length = cs.count '\n' := by
    induction cs generalizing pos with
    | nil => rfl
    | cons c cs ih =>
      by_cases hc : c = '\n'
      · rw [lineStartsFrom, if_pos hc, List.length_cons, ih, hc, List.count_cons_self]
      · rw [lineStartsFrom, if_neg hc, ih, List.count_cons_of_ne hc]
  rw [lineStarts, List.length_cons, hfrom]

/-- A line starts behind a newline, and so behind the place where the text starts. -/
lemma lt_of_mem_lineStartsFrom {start : Nat} (h : start ∈ lineStartsFrom pos cs) :
    pos < start ∧ start ≤ pos + bytes cs := by
  induction cs generalizing pos with
  | nil => cases h
  | cons c cs ih =>
    have hpos := c.utf8Size_pos
    rw [bytes_cons]
    by_cases hc : c = '\n'
    · rw [lineStartsFrom, if_pos hc] at h
      rcases List.mem_cons.mp h with rfl | h
      · omega
      · have hrest := ih h
        omega
    · rw [lineStartsFrom, if_neg hc] at h
      have hrest := ih h
      omega

lemma le_of_mem_lineStarts {start : Nat} (h : start ∈ lineStarts cs) : start ≤ bytes cs := by
  rcases List.mem_cons.mp h with rfl | h
  · exact Nat.zero_le _
  · have := lt_of_mem_lineStartsFrom h
    omega

/-- Lines start one behind the other. -/
lemma lineStarts_pairwise (cs : List Char) : (lineStarts cs).Pairwise (· < ·) := by
  have hfrom (pos : Nat) : (lineStartsFrom pos cs).Pairwise (· < ·) := by
    induction cs generalizing pos with
    | nil => exact .nil
    | cons c cs ih =>
      by_cases hc : c = '\n'
      · rw [lineStartsFrom, if_pos hc]
        exact .cons (fun start h => (lt_of_mem_lineStartsFrom h).1) (ih _)
      · rw [lineStartsFrom, if_neg hc]
        exact ih _
  exact .cons (fun start h => Nat.lt_of_le_of_lt (Nat.zero_le 0) (lt_of_mem_lineStartsFrom h).1) (hfrom 0)

/-- The number of lines that start by an offset is found by a search by halves. -/
lemma bisect_lineStarts (cs : List Char) (offset : Nat) :
    bisect (fun i => (lineStarts cs)[i]?.any (· ≤ offset)) 0 (lineStarts cs).length
      = (lineCol cs offset).1 := by
  refine bisect_eq_length_takeWhile ((lineStarts_pairwise cs).imp fun hlt => ?_)
  simp only [decide_eq_true_eq]
  intro hle
  omega

/-- The lines that start by an offset are those of the part before it, if no line starts between its end and
the offset. -/
lemma takeWhile_lineStarts (hle : bytes as ≤ offset)
    (hlater : ∀ start ∈ lineStartsFrom (bytes as) bs, offset < start) :
    (lineStarts (as ++ bs)).takeWhile (· ≤ offset) = lineStarts as := by
  have hfront : ∀ start ∈ lineStarts as, decide (start ≤ offset) = true := fun start h =>
    decide_eq_true (Nat.le_trans (le_of_mem_lineStarts h) hle)
  have hback : (lineStartsFrom (bytes as) bs).takeWhile (· ≤ offset) = [] := by
    cases hlines : lineStartsFrom (bytes as) bs with
    | nil => rfl
    | cons start lines =>
      have hlt := hlater start (hlines ▸ List.mem_cons_self)
      exact List.takeWhile_cons_of_neg (by simpa using hlt)
  rw [lineStarts_append, List.takeWhile_append_of_pos hfront, hback, List.append_nil]

/-- The last line starts so many bytes before the end. -/
lemma bytes_lastLine (cs : List Char) :
    (lineStarts cs).getLastD 0 + bytes (lastLine cs) = bytes cs := by
  induction cs using List.reverseRecOn with
  | nil => rfl
  | append_singleton cs c ih =>
    rw [lineStarts_append, bytes_append, lastLine]
    by_cases hc : c = '\n'
    · have hstart : lineStartsFrom (bytes cs) [c] = [bytes cs + c.utf8Size] := by
        rw [lineStartsFrom, if_pos hc]
        rfl
      rw [hstart, List.getLastD_concat, List.rtakeWhile_concat_neg _ _ _ (by simpa using hc)]
      rfl
    · have hstart : lineStartsFrom (bytes cs) [c] = [] := by
        rw [lineStartsFrom, if_neg hc]
        rfl
      rw [hstart, List.append_nil, List.rtakeWhile_concat_pos _ _ _ (by simpa using hc), ← lastLine,
        bytes_append, ← ih, Nat.add_assoc]

/-! ### Positions -/

/-- The line and column of an offset are read off the part of the text before it. -/
lemma lineCol_eq (hoffset : min offset (bytes (as ++ bs)) = bytes as)
    (hlater : ∀ start ∈ lineStartsFrom (bytes as) bs, offset < start) :
    lineCol (as ++ bs) offset = position as := by
  have hle : bytes as ≤ offset := by omega
  have hlast := bytes_lastLine as
  have hstop : max (bytes as) ((lineStarts as).getLastD 0) = bytes as := by omega
  obtain ⟨front, hfront⟩ : lastLine as <:+ as := List.rtakeWhile_suffix _ as
  have hslice : slice? ((lineStarts as).getLastD 0) (bytes as) (as ++ bs) = some (lastLine as) := by
    have hbytes : bytes front + bytes (lastLine as) = bytes as := by rw [← bytes_append, hfront]
    exact slice?_eq_some.mpr ⟨front, bs, by rw [hfront], by omega, hbytes⟩
  rw [lineCol, takeWhile_lineStarts hle hlater, hoffset, hstop, hslice, length_lineStarts]
  rfl

lemma lineCol_bytes (as bs : List Char) : lineCol (as ++ bs) (bytes as) = position as := by
  refine lineCol_eq ?_ fun start h => (lt_of_mem_lineStartsFrom h).1
  rw [bytes_append]
  omega

/-- An offset behind the end of a text has the line and column of the end. -/
lemma lineCol_of_le (h : bytes cs ≤ offset) : lineCol cs offset = position cs := by
  have hmin : min offset (bytes (cs ++ [])) = bytes cs := by
    rw [List.append_nil]
    omega
  have heq := lineCol_eq hmin nofun
  rwa [List.append_nil] at heq

/-- The position moves on with every character: to a later line behind a newline, and else to a later column
of the same line. -/
lemma position_lt (as : List Char) (hbs : bs ≠ []) :
    toLex (position as) < toLex (position (as ++ bs)) := by
  rw [Prod.Lex.toLex_lt_toLex, position, position, List.count_append]
  by_cases hmem : '\n' ∈ bs
  · have hcount := List.count_pos_iff.mpr hmem
    exact .inl (by dsimp only; omega)
  · have hline : lastLine (as ++ bs) = lastLine as ++ bs := by
      have hall : ∀ c ∈ bs.reverse, (c != '\n') = true := fun c hc =>
        bne_iff_ne.mpr fun heq => hmem (heq ▸ List.mem_reverse.mp hc)
      rw [lastLine, List.rtakeWhile, List.reverse_append, List.takeWhile_append_of_pos hall,
        List.reverse_append, List.reverse_reverse]
      rfl
    have hlength := List.length_pos_iff.mpr hbs
    rw [List.count_eq_zero.mpr hmem, hline, List.length_append]
    exact .inr ⟨rfl, by dsimp only; omega⟩

/-- A later boundary has a later position. -/
lemma strictMonoOn_lineCol (cs : List Char) :
    StrictMonoOn (fun offset => toLex (lineCol cs offset)) {offset | isBoundary offset cs = true} := by
  intro start hstart stop hstop hlt
  obtain ⟨as, bs, ds, rfl, rfl, rfl⟩ := exists_parts hstart hstop (Nat.le_of_lt hlt)
  have hbs : bs ≠ [] := by
    rintro rfl
    exact Nat.lt_irrefl _ hlt
  have hlater := lineCol_bytes (as ++ bs) ds
  rw [bytes_append] at hlater
  dsimp only
  rw [hlater, List.append_assoc, lineCol_bytes]
  exact position_lt as hbs

/-- The line of a boundary is one more than the number of newlines before it, and its column one more than
the number of characters between the last of these and the boundary; an offset behind the end has the
position of the end; and different boundaries have different positions, in the order of the boundaries. The
line can be searched for by halves. -/
theorem lineCol_located (source : String) :
    (∀ offset, isBoundary offset source.toList = true → ∃ before after,
        before ++ after = source.toList ∧ bytes before = offset
          ∧ lineCol source.toList offset = (before.count '\n' + 1, (lastLine before).length + 1))
      ∧ (∀ offset, bytes source.toList ≤ offset →
        lineCol source.toList offset = lineCol source.toList (bytes source.toList))
      ∧ (∀ offset offset', isBoundary offset source.toList = true →
        isBoundary offset' source.toList = true →
          (lineCol source.toList offset = lineCol source.toList offset' ↔ offset = offset')
            ∧ (toLex (lineCol source.toList offset) < toLex (lineCol source.toList offset')
              ↔ offset < offset'))
      ∧ (∀ offset, (lineCol source.toList offset).1 = bisect
        (fun i => (lineStarts source.toList)[i]?.any (· ≤ offset)) 0 (lineCount source.toList)) := by
  refine ⟨?_, ?_, ?_, ?_⟩
  · intro offset h
    obtain ⟨before, after, hcut, rfl⟩ := isBoundary_iff.mp h
    refine ⟨before, after, hcut, rfl, ?_⟩
    rw [← hcut, lineCol_bytes]
    rfl
  · intro offset h
    rw [lineCol_of_le h, lineCol_of_le (Nat.le_refl _)]
  · intro offset offset' h h'
    have hmono := strictMonoOn_lineCol source.toList
    refine ⟨?_, hmono.lt_iff_lt h h'⟩
    rw [← hmono.injOn.eq_iff h h', toLex_inj]
  · intro offset
    exact (bisect_lineStarts source.toList offset).symm

/-- The letter behind `String` has two bytes and counts as one character. -/
example : lineCol "int a;\n  String é = x;".toList 19 = (2, 12) := by decide

end Shorthand.Text
