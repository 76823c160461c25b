import Shorthand.Proofs.Candidate.Resolution

/-!
What is offered in static methods.

In a static method there is no object of which the type around it could have members. The collectors for
abbreviations without an owner leave those out: instance fields, instance methods that are named by
themselves and the keyword `this`.

Owners and arguments are taken from all values in scope, so an instance field of the type can still be
the receiver of a member or the argument of a call.

* `Request.not_usesObject` says that no fragment which is offered in a static method is such a member
  itself.
-/

namespace Shorthand

/-- The fragment is the object at hand or a member of it that is named by itself. A constant of an
enumeration is a member of no object. -/
def Fragment.UsesObject : Fragment → Prop
  | keyword k => k = .thisKw
  | element e => e.kind = .field ∧ e.isStatic = false
  | call c => c.callee = .method none ∧ c.method.isStatic = false
  | access a => a.owner = none ∧ a.field.isStatic = false ∧ a.field.isEnumConstant = false
  | _ => False

/-- Arguments make no difference. -/
lemma Fragment.usesObject_of_bare {f g : Fragment} (h : f.bare = g.bare) (hg : ¬ g.UsesObject) :
    ¬ f.UsesObject := by
  have hbare : ∀ f : Fragment, f.bare.UsesObject ↔ f.UsesObject := by
    intro f
    cases f <;> rfl
  rw [← hbare f, h, hbare g]
  exact hg

/-! ### Lists of words -/

/-- The collector does not bring the keyword `this` among others. -/
def Collector.leavesThis : Collector → Bool
  | keywords among => !among.contains .thisKw
  | _ => true

lemma Slot.leavesThis (s : Slot) :
    (∀ c ∈ s.collectors, c.leavesThis = true) ∧ ∀ c ∈ s.memberCollectors, c.leavesThis = true := by
  cases s with
  | types sort primitives =>
    cases primitives <;> simp [collectors, memberCollectors, Collector.leavesThis]
  | _ => decide

namespace Query

variable {q : Query} {f : Fragment}

/-! ### Collectors -/

lemma not_usesObject_of_mem_map {α : Type} {xs : List α} {make : α → Fragment}
    (h : ∀ x, ¬ (make x).UsesObject) (hf : f ∈ xs.map make) : ¬ f.UsesObject := by
  obtain ⟨x, -, rfl⟩ := List.mem_map.mp hf
  exact h x

lemma localElements_static (hstatic : q.inStatic = true) (hf : f ∈ q.localElements) :
    ¬ f.UsesObject := by
  obtain ⟨e, he, rfl⟩ := List.mem_map.mp hf
  obtain ⟨-, huse⟩ := List.mem_filter.mp he
  simp only [Bool.and_eq_true, canUse, hstatic, Bool.not_true, Bool.false_or, Bool.or_eq_true,
    bne_iff_ne, ne_eq] at huse
  rintro ⟨hfield, hinstance⟩
  rcases huse.1.1 with hkind | hisStatic
  · exact hkind hfield
  · rw [hinstance] at hisStatic
    cases hisStatic

lemma ownMethods_static (hstatic : q.inStatic = true) (hf : f ∈ q.ownMethods) : ¬ f.UsesObject := by
  rw [ownMethods] at hf
  split at hf
  · obtain ⟨m, hm, rfl⟩ := List.mem_map.mp hf
    obtain ⟨-, huse⟩ := List.mem_filter.mp hm
    simp only [hstatic, Bool.not_true, Bool.false_or, Bool.and_eq_true] at huse
    rintro ⟨-, hinstance⟩
    have hinstance : m.isStatic = false := hinstance
    rw [hinstance] at huse
    cases huse.1
  · cases hf

lemma staticImports_static (hf : f ∈ q.staticImports) : ¬ f.UsesObject := by
  obtain ⟨⟨owner, member⟩, -, hf⟩ := List.mem_flatMap.mp hf
  rcases List.mem_append.mp hf with hf | hf
  · obtain ⟨field, hfield, rfl⟩ := List.mem_map.mp hf
    have huse := (Bool.and_eq_true_iff.mp (List.mem_filter.mp hfield).2).1
    rintro ⟨-, hinstance, -⟩
    have hinstance : field.isStatic = false := hinstance
    rw [hinstance] at huse
    cases huse
  · obtain ⟨m, hm, rfl⟩ := List.mem_map.mp hf
    have huse := (Bool.and_eq_true_iff.mp (List.mem_filter.mp hm).2).1
    rintro ⟨-, hinstance⟩
    have hinstance : m.isStatic = false := hinstance
    rw [hinstance] at huse
    cases huse

lemma enumConstants_static (hf : f ∈ q.enumConstants) : ¬ f.UsesObject := by
  rw [enumConstants] at hf
  split at hf
  · split at hf
    · obtain ⟨field, hfield, rfl⟩ := List.mem_map.mp hf
      have hconstant := (List.mem_filter.mp (List.mem_filter.mp hfield).1).2
      rintro ⟨-, -, hother⟩
      have hother : field.isEnumConstant = false := hother
      rw [hother] at hconstant
      cases hconstant
    · cases hf
  · cases hf

lemma memberFields_static {ofTypes : Bool} (hf : f ∈ q.memberFields ofTypes) : ¬ f.UsesObject := by
  obtain ⟨o, -, hf⟩ := List.mem_flatMap.mp hf
  exact not_usesObject_of_mem_map (by simp [Fragment.UsesObject]) hf

/-- Nothing brings the keyword `this` in a static method: the collector for it looks at the method. -/
lemma thisKeyword_static (hstatic : q.inStatic = true) : q.thisKeyword = [] := by
  rw [thisKeyword]
  split
  · next t m _ hmethod =>
    have hm : m.isStatic = true := by
      rw [inStatic, Index.isStaticAt, hmethod] at hstatic
      exact hstatic
    simp [hm]
  · rfl

/-- No candidate in a static method is a member of the object that is not there. -/
theorem not_usesObject (hstatic : q.inStatic = true) {c : Collector}
    (hc : c.leavesThis = true) (hf : f ∈ c.collect q) : ¬ f.UsesObject := by
  cases c with
  | keywords among =>
    obtain ⟨k, hk, rfl⟩ := List.mem_map.mp hf
    have hleaves : .thisKw ∉ among := by simpa [Collector.leavesThis] using hc
    rintro rfl
    exact hleaves (List.mem_filter.mp hk).1
  | localElements => exact localElements_static hstatic hf
  | methods => exact ownMethods_static hstatic hf
  | staticImports => exact staticImports_static hf
  | enumConstants => exact enumConstants_static hf
  | thisKeyword =>
    rw [Collector.collect, thisKeyword_static hstatic] at hf
    cases hf
  -- What else is brought is a word or a type, or is reached through an owner.
  | modifiers among => exact not_usesObject_of_mem_map (fun _ => id) hf
  | primitiveTypes => exact not_usesObject_of_mem_map (fun _ => id) hf
  | literals => exact not_usesObject_of_mem_map (fun _ => id) hf
  | declaredTypes sort => exact not_usesObject_of_mem_map (fun _ => id) hf
  | innerTypes sort => exact not_usesObject_of_mem_map (fun _ => id) hf
  | constructors =>
    obtain ⟨⟨t, mention⟩, -, hf⟩ := List.mem_flatMap.mp hf
    exact not_usesObject_of_mem_map (by simp [Fragment.UsesObject]) hf
  | memberCalls =>
    obtain ⟨o, -, hf⟩ := List.mem_flatMap.mp hf
    exact not_usesObject_of_mem_map (by simp [Fragment.UsesObject]) hf
  | staticFields => exact memberFields_static hf
  | instanceFields => exact memberFields_static hf
  | memberTypes =>
    obtain ⟨o, -, hf⟩ := List.mem_flatMap.mp hf
    cases o with
    | value name ty => cases hf
    | type owner => exact not_usesObject_of_mem_map (fun _ => id) hf

end Query

namespace Request

variable {r : Request} {ix : Index} {settings : Settings} {f : Fragment}

lemma caret_query : (r.query ix).caret = r.caret := by
  rw [query]
  split <;> rfl

lemma collectors_leaveThis : ∀ c ∈ r.collectors, c.leavesThis = true := by
  rw [collectors]
  split
  · exact (Slot.leavesThis _).2
  · exact (Slot.leavesThis _).1

/-- Nothing that is offered in a static method is the object at hand or a member of it that is named by
itself. -/
theorem not_usesObject (hstatic : ix.isStaticAt r.caret = true) (hf : f ∈ r.fragments ix settings) :
    ¬ f.UsesObject := by
  obtain ⟨g, hg, hbare⟩ := Ranking.exists_candidate hf
  obtain ⟨c, hc, hg⟩ := List.mem_flatMap.mp hg
  have hin : (r.query ix).inStatic = true := by
    rw [Query.inStatic, index_query, caret_query]
    exact hstatic
  have hleaves := collectors_leaveThis c (List.mem_filter.mp hc).1
  exact Fragment.usesObject_of_bare hbare (Query.not_usesObject hin hleaves hg)

end Request

end Shorthand
