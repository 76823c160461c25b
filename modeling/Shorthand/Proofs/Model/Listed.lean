import Mathlib.Data.List.Induction
import Mathlib.Data.List.Nodup
import Shorthand.Grammar.Parse
import Shorthand.Model.Resolve

/-!
The types that are listed, and those that names stand for.

A type of the text hides one from elsewhere with its name, both where types are listed and where names are
looked up. Of several types with one name from the same place only the last can be looked up, but all of
them are listed.

* `Index.filter_allTypes`: what the text hides is not listed.
* `Index.lookup?_eq_getLast?`: a name stands for the last listed type of that name, and for none if no
  listed type has it.
* `Index.lookup?_of_mem_findTypes`: where no name is listed twice each listed type is what its name stands
  for.
-/

namespace Shorthand

namespace Index

variable {ix : Index} {name : String} {t : TypeInfo} {p : TypeInfo → Bool}

lemma lastNamed?_eq_getLast? (name : String) (types : List TypeInfo) :
    lastNamed? name types = (types.filter (·.name == name)).getLast? := by
  induction types using List.reverseRecOn with
  | nil => rfl
  | append_singleton types t ih =>
    rw [lastNamed?, List.foldl_append, ← lastNamed?, List.foldl_cons, List.foldl_nil,
      List.filter_append, ih]
    by_cases ht : (t.name == name) = true
    · simp [ht]
    · simp [ht]

lemma filter_named_eq_nil {types : List TypeInfo} (h : name ∉ types.map (·.name)) :
    types.filter (·.name == name) = [] :=
  List.filter_eq_nil_iff.mpr fun t ht heq => h (List.mem_map.mpr ⟨t, ht, beq_iff_eq.mp heq⟩)

/-- The types from elsewhere with a name are listed unless the text declares one with that name. -/
theorem filter_allTypes (ix : Index) (name : String) :
    ix.allTypes.filter (·.name == name) =
      if name ∈ ix.sourceInfos.map (·.name) then ix.sourceInfos.filter (·.name == name)
      else ix.library.filter (·.name == name) := by
  rw [allTypes, List.filter_append, List.filter_filter]
  split
  · next hmem =>
    obtain ⟨s, hs, rfl⟩ := List.mem_map.mp hmem
    have hhidden : ix.library.filter (fun t => t.name == s.name
        && ix.sourceInfos.all (·.name != t.name)) = [] := by
      refine List.filter_eq_nil_iff.mpr fun t _ hkept => ?_
      rw [Bool.and_eq_true, beq_iff_eq, List.all_eq_true] at hkept
      exact absurd hkept.1.symm (bne_iff_ne.mp (hkept.2 s hs))
    rw [hhidden, List.append_nil]
  · next hmem =>
    rw [filter_named_eq_nil hmem, List.nil_append]
    refine List.filter_congr fun t _ => Bool.and_eq_left_iff_imp.mpr fun ht => ?_
    obtain rfl := beq_iff_eq.mp ht
    exact List.all_eq_true.mpr fun s hs => bne_iff_ne.mpr fun heq =>
      hmem (List.mem_map.mpr ⟨s, hs, heq⟩)

/-- A name stands for the last type that is listed with it. -/
theorem lookup?_eq_getLast? (h : ix.resolved = true) (name : String) :
    ix.lookup? name = (ix.findTypes (·.name == name)).getLast? := by
  rw [findTypes, if_pos h, filter_allTypes, lookup?, Option.orElse_eq_orElse, Option.orElse_eq_or,
    lastNamed?_eq_getLast?, lastNamed?_eq_getLast?]
  split
  · next hmem =>
    obtain ⟨s, hs, hname⟩ := List.mem_map.mp hmem
    have hfound : s ∈ ix.sourceInfos.filter (·.name == name) :=
      List.mem_filter.mpr ⟨hs, beq_iff_eq.mpr hname⟩
    rw [List.getLast?_eq_some_getLast (List.ne_nil_of_mem hfound), Option.some_or]
  · next hmem => rw [filter_named_eq_nil hmem, List.getLast?_nil, Option.none_or]

/-- What a name stands for is listed. -/
theorem mem_findTypes_of_lookup? (h : ix.resolved = true) (hlookup : ix.lookup? name = some t)
    (hp : p t = true) : t ∈ ix.findTypes p := by
  rw [lookup?_eq_getLast? h] at hlookup
  have hfound := List.mem_of_getLast? hlookup
  rw [findTypes, if_pos h] at hfound ⊢
  exact List.mem_filter.mpr ⟨List.mem_of_mem_filter hfound, hp⟩

/-- Where no name is listed twice, each listed type is what its name stands for. -/
theorem lookup?_of_mem_findTypes (h : ix.resolved = true) (honce : (ix.allTypes.map (·.name)).Nodup)
    (ht : t ∈ ix.findTypes p) : ix.lookup? t.name = some t := by
  have hlookup := lookup?_eq_getLast? h t.name
  rw [findTypes, if_pos h] at ht hlookup
  have hlisted := List.mem_of_mem_filter ht
  have hfound : t ∈ ix.allTypes.filter (·.name == t.name) :=
    List.mem_filter.mpr ⟨hlisted, beq_self_eq_true _⟩
  rw [hlookup, List.getLast?_eq_some_getLast (List.ne_nil_of_mem hfound), Option.some_inj]
  obtain ⟨hlast, hname⟩ := List.mem_filter.mp (List.getLast_mem (List.ne_nil_of_mem hfound))
  exact List.inj_on_of_nodup_map honce hlast hlisted (beq_iff_eq.mp hname)

/-- Two classes of the text with one name are both listed, and the name stands for the second. -/
example :
    let ix := (Index.ofTree (parse "class A { int x; } class A { int y; }").tree []).resolve
    (ix.findTypes fun _ => true).map (·.fields.map (·.name)) = [["x"], ["y"]]
      ∧ (ix.lookup? "A").map (·.fields.map (·.name)) = some ["y"] := by
  decide +kernel

end Index

end Shorthand
